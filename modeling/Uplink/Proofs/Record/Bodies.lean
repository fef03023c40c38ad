import Uplink.Proofs.Json.Nesting
import Uplink.Record.Field
/-!
Bodies on the wire.  A typed body and a free one leave the same kind of object, so a free map is
taken for typed fields exactly if it holds a fitting value under the name of each of them.
-/
namespace Uplink

theorem Ascending.nodup_keys {α : Type} {entries : List (String × α)} (h : Ascending entries) :
    (entries.map Prod.fst).Nodup := by
  have below : entries.Pairwise fun a b => a.1 < b.1 := h
  exact List.pairwise_map.mpr (below.imp fun lt => Std.ne_of_lt lt)

namespace Scalar

/-- The values a field of a type can hold. -/
def Fits : Scalar → Json → Prop
  | .text, .text _ => True
  | .signed, .number (.integer n _) => Int64.minValue.toInt ≤ n ∧ n ≤ Int64.maxValue.toInt
  | .unsigned, .number (.integer n _) => 0 ≤ n ∧ n.toNat < UInt64.size
  | _, _ => False

theorem signedOf?_eq_some {n : Int} {v : Int64} : signedOf? n = some v ↔ n = v.toInt := by
  unfold signedOf?
  constructor
  · intro h
    split at h <;> rename_i range
    · cases h
      exact (Int64.toInt_ofInt_of_le range.1 (Int.lt_add_one_of_le range.2)).symm
    · cases h
  · rintro rfl
    rw [if_pos ⟨v.minValue_le_toInt, v.toInt_le⟩, Int64.ofInt_toInt]

theorem unsignedOf?_eq_some {n : Int} {v : UInt64} : unsignedOf? n = some v ↔ n = v.toNat := by
  unfold unsignedOf?
  constructor
  · intro h
    split at h <;> rename_i range
    · cases h
      rw [UInt64.toNat_ofNat_of_lt' range.2]
      omega
    · cases h
  · rintro rfl
    rw [if_pos ⟨Int.natCast_nonneg _, v.toNat_lt⟩]
    simp

theorem signed_eq_encode {n : Int} {fits} {v : Int64} :
    Json.number (.integer n fits) = signed.encode v ↔ signedOf? n = some v := by
  rw [encode, Json.signed, Number.signed, Json.number.injEq, Number.integer.injEq,
    signedOf?_eq_some]

theorem unsigned_eq_encode {n : Int} {fits} {v : UInt64} :
    Json.number (.integer n fits) = unsigned.encode v ↔ unsignedOf? n = some v := by
  rw [encode, Json.unsigned, Number.unsigned, Json.number.injEq, Number.integer.injEq,
    unsignedOf?_eq_some]

/-- A value reads as `v` exactly if it is what `v` is written as. -/
theorem decode_ofJson {s : Scalar} {j : Json} {v : s.Value} :
    s.decode (Outline.ofJson j) = .ok v ↔ j = s.encode v := by
  cases s with
  | text =>
    cases j with
    | text t => simp [Outline.ofJson, decode, encode]
    | _ => constructor <;> intro h <;> cases h
  | signed =>
    cases j with
    | number n =>
      cases n with
      | integer n fits =>
        rw [Outline.ofJson, decode, signed_eq_encode]
        cases signedOf? n <;> simp
      | real => constructor <;> intro h <;> cases h
    | _ => constructor <;> intro h <;> cases h
  | unsigned =>
    cases j with
    | number n =>
      cases n with
      | integer n fits =>
        rw [Outline.ofJson, decode, unsigned_eq_encode]
        cases unsignedOf? n <;> simp
      | real => constructor <;> intro h <;> cases h
    | _ => constructor <;> intro h <;> cases h

theorem toOption_decode_ofJson {s : Scalar} {j : Json} {v : s.Value} :
    (s.decode (Outline.ofJson j)).toOption = some v ↔ j = s.encode v := by
  rw [← decode_ofJson]
  cases s.decode (Outline.ofJson j) <;> simp [Except.toOption]

theorem fits_iff {s : Scalar} {j : Json} : s.Fits j ↔ ∃ v, j = s.encode v := by
  cases s with
  | text =>
    cases j with
    | text t => exact iff_of_true trivial ⟨t, rfl⟩
    | _ => exact iff_of_false id (by rintro ⟨_, h⟩; cases h)
  | signed =>
    cases j with
    | number n =>
      cases n with
      | integer n fits =>
        simp only [signed_eq_encode, Fits, signedOf?]
        refine ⟨fun range => ⟨_, if_pos range⟩, ?_⟩
        rintro ⟨_, h⟩
        by_contra out
        cases (if_neg out).symm.trans h
      | real => exact iff_of_false id (by rintro ⟨_, h⟩; cases h)
    | _ => exact iff_of_false id (by rintro ⟨_, h⟩; cases h)
  | unsigned =>
    cases j with
    | number n =>
      cases n with
      | integer n fits =>
        simp only [unsigned_eq_encode, Fits, unsignedOf?]
        refine ⟨fun range => ⟨_, if_pos range⟩, ?_⟩
        rintro ⟨_, h⟩
        by_contra out
        cases (if_neg out).symm.trans h
      | real => exact iff_of_false id (by rintro ⟨_, h⟩; cases h)
    | _ => exact iff_of_false id (by rintro ⟨_, h⟩; cases h)

end Scalar

namespace BodyFields

open Outline (ofMembers)

variable {members : List (String × Json)} {name : String} {j : Json}

theorem valuesAt_cons (k : String) (v : Json) (rest : List (String × Json)) :
    valuesAt name (ofMembers ((k, v) :: rest)) =
      if k = name then Outline.ofJson v :: valuesAt name (ofMembers rest)
      else valuesAt name (ofMembers rest) := by
  by_cases h : k = name <;> simp [valuesAt, ofMembers, h]

theorem mem_valuesAt {x : Outline} :
    x ∈ valuesAt name (ofMembers members) ↔ ∃ j, (name, j) ∈ members ∧ Outline.ofJson j = x := by
  induction members with
  | nil => simp [valuesAt, ofMembers]
  | cons head rest ih =>
    obtain ⟨k, v⟩ := head
    rw [valuesAt_cons]
    split <;> rename_i h
    · subst h
      simp [ih, or_and_right, exists_or, eq_comm]
    · have h : name ≠ k := Ne.symm h
      simp [ih, h]

/-- Where no key stands twice, a key has one value. -/
theorem valuesAt_of_mem (distinct : (members.map Prod.fst).Nodup) (h : (name, j) ∈ members) :
    valuesAt name (ofMembers members) = [Outline.ofJson j] := by
  induction members with
  | nil => cases h
  | cons head rest ih =>
    obtain ⟨k, v⟩ := head
    obtain ⟨new, distinct⟩ := List.nodup_cons.mp distinct
    rw [valuesAt_cons]
    rcases List.mem_cons.mp h with first | later
    · cases first
      have none : valuesAt name (ofMembers rest) = [] := by
        refine List.eq_nil_iff_forall_not_mem.mpr fun x hx => ?_
        obtain ⟨j', hj, _⟩ := mem_valuesAt.mp hx
        exact new (List.mem_map.mpr ⟨_, hj, rfl⟩)
      rw [if_pos rfl, none]
    · have other : k ≠ name := by
        rintro rfl
        exact new (List.mem_map.mpr ⟨_, later, rfl⟩)
      rw [if_neg other, ih distinct later]

/-- An object reads as a typed row exactly if it has every member the row is written as. -/
theorem ofMembers?_eq_some {fields : BodyFields} {row : fields.Row}
    (distinct : (members.map Prod.fst).Nodup) :
    fields.ofMembers? (ofMembers members) = some row ↔ fields.encode row ⊆ members := by
  induction fields with
  | nil => exact iff_of_true rfl (List.nil_subset _)
  | cons field fields ih =>
    obtain ⟨name, s⟩ := field
    obtain ⟨v, row⟩ := row
    rw [encode, List.cons_subset, ← ih]
    constructor
    · intro h
      unfold ofMembers? at h
      split at h
      · rename_i x values
        simp only [Option.bind_eq_bind, Option.bind_eq_some_iff, Option.some.injEq] at h
        obtain ⟨w, hw, row', hrow, eq⟩ := h
        cases eq
        obtain ⟨j, held, rfl⟩ := mem_valuesAt.mp (values ▸ List.mem_singleton_self x)
        rw [← Scalar.toOption_decode_ofJson.mp hw]
        exact ⟨held, hrow⟩
      · cases h
    · rintro ⟨held, hrow⟩
      rw [ofMembers?, valuesAt_of_mem distinct held]
      dsimp only
      rw [Scalar.toOption_decode_ofJson.mpr rfl, hrow]
      rfl

/-- A fitting value for each field makes a row. -/
theorem exists_encode_subset {fields : BodyFields} :
    (∃ row, fields.encode row ⊆ members) ↔ ∀ f ∈ fields, ∃ v, (f.1, v) ∈ members ∧ f.2.Fits v := by
  induction fields with
  | nil => exact iff_of_true ⟨(), List.nil_subset _⟩ (List.forall_mem_nil _)
  | cons field fields ih =>
    obtain ⟨name, s⟩ := field
    rw [List.forall_mem_cons, ← ih]
    constructor
    · rintro ⟨⟨v, row⟩, h⟩
      obtain ⟨held, others⟩ := List.cons_subset.mp h
      exact ⟨⟨_, held, Scalar.fits_iff.mpr ⟨v, rfl⟩⟩, row, others⟩
    · rintro ⟨⟨j, held, fits⟩, row, others⟩
      obtain ⟨v, rfl⟩ := Scalar.fits_iff.mp fits
      exact ⟨(v, row), List.cons_subset.mpr ⟨held, others⟩⟩

theorem map_fst_encode {fields : BodyFields} (row : fields.Row) :
    (fields.encode row).map Prod.fst = fields.map Prod.fst := by
  induction fields with
  | nil => rfl
  | cons field fields ih => rw [encode, List.map_cons, ih, List.map_cons]

/-! ### Decoding -/

theorem decode_of_typed {fields : BodyFields} {depth : Nat} {x : Outline} {v : Json}
    {row : fields.Row} (value : x.value? depth = some v) (h : fields.ofOutline? x = some row) :
    fields.decode depth x = .ok (.typed row) := by
  unfold decode
  split
  · rename_i none
    cases none.symm.trans value
  · rw [h]

theorem decode_of_free {fields : BodyFields} {depth : Nat} {x : Outline} {m : Freeform}
    (value : x.value? depth = some (.object m.members)) (h : fields.ofOutline? x = none) :
    fields.decode depth x = .ok (.freeform m) := by
  unfold decode
  split
  · rename_i none
    cases none.symm.trans value
  · rename_i v hv
    cases hv.symm.trans value
    rw [h]

/-- Typed fields are texts and numbers, which nest in nothing. -/
theorem memberValues?_encode {fields : BodyFields} (row : fields.Row) (depth : Nat)
    (entries : List (String × Json)) :
    ∃ all, Outline.memberValues? depth entries (ofMembers (fields.encode row)) = some all := by
  induction fields generalizing entries with
  | nil => exact ⟨entries, rfl⟩
  | cons field fields ih =>
    obtain ⟨name, s⟩ := field
    obtain ⟨v, row⟩ := row
    obtain ⟨all, h⟩ := ih row (putEntry name (s.encode v) entries)
    have value : (Outline.ofJson (s.encode v)).value? depth = some (s.encode v) := by
      cases s <;> rfl
    exact ⟨all, by rw [encode, ofMembers, Outline.memberValues?, value, ← h]; rfl⟩

end BodyFields

/-- Whether a free map could as well be typed: under the name of each field it holds a value that
fits the field. -/
def Freeform.Resembles (m : Freeform) (fields : BodyFields) : Prop :=
  ∀ f ∈ fields, ∃ v, (f.1, v) ∈ m.members ∧ f.2.Fits v

namespace Body

open BodyFields Outline

variable {fields : BodyFields}

/-- What a body comes back as: a free map that resembles the typed fields turns into them. -/
def reread (fields : BodyFields) : Body fields.Row → Body fields.Row
  | .typed row => .typed row
  | .freeform m =>
    match fields.ofMembers? (ofMembers m.members) with
    | some row => .typed row
    | none => .freeform m

theorem reread_freeform (fields : BodyFields) (m : Freeform) :
    reread fields (freeform m) = freeform m ∧ ¬m.Resembles fields ∨
      ∃ row, reread fields (freeform m) = typed row ∧ fields.encode row ⊆ m.members := by
  have distinct := m.canonical.1.nodup_keys
  cases h : fields.ofMembers? (ofMembers m.members) with
  | some row => exact .inr ⟨row, by rw [reread, h], (ofMembers?_eq_some distinct).mp h⟩
  | none =>
    refine .inl ⟨by rw [reread, h], fun resembles => ?_⟩
    obtain ⟨row, held⟩ := exists_encode_subset.mpr resembles
    cases h.symm.trans ((ofMembers?_eq_some distinct).mpr held)

theorem decode_encode (distinct : (fields.map Prod.fst).Nodup) (body : Body fields.Row)
    {depth : Nat} (h : ((FieldType.body fields).encode body).nesting ≤ depth) :
    fields.decode depth (ofJson ((FieldType.body fields).encode body)) =
      .ok (reread fields body) := by
  cases body with
  | typed row =>
    obtain ⟨all, values⟩ := memberValues?_encode row (depth - 1) []
    have positive : depth ≠ 0 := Nat.ne_of_gt (Nat.lt_of_lt_of_le (Nat.succ_pos _) h)
    have value : (ofJson (.object (fields.encode row))).value? depth = some (.object all) := by
      rw [ofJson, value?, if_neg positive, values]
      rfl
    refine decode_of_typed value ((ofMembers?_eq_some ?_).mpr (List.Subset.refl _))
    rw [map_fst_encode]
    exact distinct
  | freeform m =>
    have value := value?_ofJson (.object m.members) depth m.canonical h
    rw [reread]
    cases typed : fields.ofMembers? (ofMembers m.members) with
    | some row => exact decode_of_typed value typed
    | none => exact decode_of_free value typed

end Body

end Uplink
