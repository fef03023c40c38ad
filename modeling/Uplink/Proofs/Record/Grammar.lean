import Mathlib.Data.List.Forall2
import Uplink.Proofs.Json.Valid
import Uplink.Proofs.Record.Rows
/-!
The grammar of record texts: which outlines stand for a value in the place of a field of each
type, and that a field is decoded from exactly these.  A text with an unpaired surrogate stands for
nothing.
-/
namespace Uplink

namespace Outline

/-- The members hold `x` under a key, and nothing else under it. -/
def Once (name : String) (x : Outline) (members : List (Outline × Outline)) : Prop :=
  ∃ before after, members = before ++ (.text (some name), x) :: after ∧
    ∀ e ∈ before ++ after, e.1 ≠ .text (some name)

/-- The last of the values under a key, which is the one that counts in a map. -/
def lastAt (name : String) (members : List (Outline × Outline)) : Option Outline :=
  (BodyFields.valuesAt name members).getLast?

/-- All keys are texts that can be read. -/
def Keyed (members : List (Outline × Outline)) : Prop := ∀ e ∈ members, ∃ k, e.1 = .text (some k)

def double? : Outline → Option Double
  | .number (some n) => some n.toDouble
  | _ => none

end Outline

open Outline (Once Keyed lastAt)

/-- In the place of a scalar stands a text, or an integer in range. -/
def Scalar.Reads : (s : Scalar) → Outline → s.Value → Prop
  | .text, x, v => x = .text (some v)
  | .signed, x, v => ∃ fits, x = .number (some (.integer v.toInt fits))
  | .unsigned, x, v => ∃ fits, x = .number (some (.integer v.toNat fits))

namespace BodyFields

/-- The items are the typed fields in declaration order, and no more. -/
def ReadsItems : (fields : BodyFields) → List Outline → fields.Row → Prop
  | [], items, _ => items = []
  | (_, s) :: fields, items, (v, row) =>
    ∃ x rest, items = x :: rest ∧ s.Reads x v ∧ ReadsItems fields rest row

/-- The members hold each typed field once, among any others. -/
def ReadsMembers : (fields : BodyFields) → List (Outline × Outline) → fields.Row → Prop
  | [], _, _ => True
  | (name, s) :: fields, members, (v, row) =>
    (∃ x, Once name x members ∧ s.Reads x v) ∧ ReadsMembers fields members row

def Reads (fields : BodyFields) (x : Outline) (row : fields.Row) : Prop :=
  (∃ items, x = .array items ∧ fields.ReadsItems items row) ∨
    ∃ members, x = .object members ∧ fields.ReadsMembers members row

end BodyFields

/-- The value `x` stands for in the place of a field.  A body that can be typed is, and whatever
stands in it has to be readable. -/
def FieldType.Reads : (t : FieldType) → Outline → t.Value → Prop
  | .scalar s, x, v => s.Reads x v
  | .choice names, x, i =>
    x = .text (some (names.get i)) ∨ x = .object [(.text (some (names.get i)), .null)]
  | .gauges, x, d => ∃ members, x = .object members ∧ Keyed members ∧
      (∀ e ∈ members, ∃ n, e.2 = .number (some n)) ∧
      ∀ k, d.get? k = (lastAt k members).bind Outline.double?
  | .body fields, x, .typed row => x.isValid ∧ fields.Reads x row
  | .body fields, x, .freeform m => x.isValid ∧ (¬∃ row, fields.Reads x row) ∧
      ∃ members, x = .object members ∧
        ∀ k, m.members.lookup k = (lastAt k members).bind (Outline.value? Outline.maximalDepth)

/-- What can stand in the place of a field. -/
def FieldType.Takes : FieldType → Outline → Prop
  | .scalar s, x => ∃ v, s.Reads x v
  | .choice names, x =>
    ∃ name ∈ names, x = .text (some name) ∨ x = .object [(.text (some name), .null)]
  | .gauges, x => ∃ members, x = .object members ∧ Keyed members ∧
      ∀ e ∈ members, ∃ n, e.2 = .number (some n)
  | .body fields, x => x.isValid ∧ ((∃ members, x = .object members) ∨
      ∃ items, x = .array items ∧ List.Forall₂ (fun f x => ∃ v, f.2.Reads x v) fields items)

/-! ### Members under a key -/

namespace Outline

open BodyFields (valuesAt)

variable {name k : String} {x y : Outline} {members before after : List (Outline × Outline)}

theorem keyed_cons {key : Outline} :
    Keyed ((key, x) :: members) ↔ (∃ k, key = .text (some k)) ∧ Keyed members :=
  List.forall_mem_cons

theorem valuesAt_cons_self : valuesAt name ((.text (some name), x) :: members) =
    x :: valuesAt name members := by
  simp [valuesAt]

theorem valuesAt_cons_of_ne {key : Outline} (h : key ≠ .text (some name)) :
    valuesAt name ((key, x) :: members) = valuesAt name members := by
  unfold valuesAt
  rw [List.filterMap_cons]
  split <;> rename_i found
  · rfl
  · split at found
    · rename_i k v e
      cases e
      have other : k ≠ name := by
        rintro rfl
        exact h rfl
      rw [if_neg other] at found
      cases found
    · cases found

theorem valuesAt_eq_nil : valuesAt name members = [] ↔ ∀ e ∈ members, e.1 ≠ .text (some name) := by
  induction members with
  | nil => exact iff_of_true rfl (List.forall_mem_nil _)
  | cons e rest ih =>
    obtain ⟨key, x⟩ := e
    rw [List.forall_mem_cons]
    by_cases h : key = .text (some name)
    · subst h
      rw [valuesAt_cons_self]
      exact iff_of_false (List.cons_ne_nil _ _) fun absent => absent.1 rfl
    · rw [valuesAt_cons_of_ne h, ih]
      exact (and_iff_right h).symm

theorem once_iff : Once name x members ↔ valuesAt name members = [x] := by
  constructor
  · rintro ⟨before, after, rfl, others⟩
    obtain ⟨before', after'⟩ := List.forall_mem_append.mp others
    have first : valuesAt name before = [] := valuesAt_eq_nil.mpr before'
    have last : valuesAt name after = [] := valuesAt_eq_nil.mpr after'
    have split : valuesAt name (before ++ (.text (some name), x) :: after) =
        valuesAt name before ++ valuesAt name ((.text (some name), x) :: after) :=
      List.filterMap_append
    rw [split, valuesAt_cons_self, first, last, List.nil_append]
  · intro h
    induction members with
    | nil => cases h
    | cons e rest ih =>
      obtain ⟨key, y⟩ := e
      by_cases hkey : key = .text (some name)
      · subst hkey
        rw [valuesAt_cons_self] at h
        obtain ⟨rfl, none⟩ := List.cons_eq_cons.mp h
        exact ⟨[], rest, rfl, valuesAt_eq_nil.mp none⟩
      · rw [valuesAt_cons_of_ne hkey] at h
        obtain ⟨before, after, rfl, others⟩ := ih h
        exact ⟨(key, y) :: before, after, rfl, List.forall_mem_cons.mpr ⟨hkey, others⟩⟩

theorem lastAt_cons_self : lastAt name ((.text (some name), x) :: members) =
    some ((lastAt name members).getD x) := by
  rw [lastAt, valuesAt_cons_self, List.getLast?_cons, lastAt]

theorem lastAt_cons_of_ne {key : Outline} (h : key ≠ .text (some name)) :
    lastAt name ((key, x) :: members) = lastAt name members := by
  rw [lastAt, valuesAt_cons_of_ne h, lastAt]

/-- In a map read from members, the last value under a key stands, or what stood there before. -/
theorem lookup_memberValues? {depth : Nat} {entries all : List (String × Json)}
    (h : memberValues? depth entries members = some all) (k : String) :
    all.lookup k = (lastAt k members).elim (entries.lookup k) (value? depth) := by
  induction members generalizing entries with
  | nil =>
    cases h
    rfl
  | cons e rest ih =>
    obtain ⟨key, x⟩ := e
    unfold memberValues? at h
    split at h
    · rename_i name
      obtain ⟨v, value, h⟩ := Option.bind_eq_some_iff.mp h
      rw [ih h]
      by_cases same : k = name
      · subst same
        rw [lastAt_cons_self, Dictionary.lookup_putEntry_self, ← value]
        cases lastAt k rest <;> rfl
      · rw [lastAt_cons_of_ne (by simpa using Ne.symm same),
          Dictionary.lookup_putEntry_of_ne same]
    · cases h

theorem exists_mem_of_lastAt (h : lastAt name members = some x) : ∃ e ∈ members, e.2 = x := by
  have held : x ∈ valuesAt name members := List.mem_of_getLast? h
  obtain ⟨e, he, found⟩ := List.mem_filterMap.mp held
  refine ⟨e, he, ?_⟩
  split at found
  · split at found <;> cases found
    rfl
  · cases found

theorem eq_object_of_value? {depth : Nat} {v : Json}
    (h : (object members).value? depth = some v) : ∃ all, v = .object all := by
  rw [value?] at h
  split at h
  · cases h
  · obtain ⟨all, _, rfl⟩ := Option.map_eq_some_iff.mp h
    exact ⟨all, rfl⟩

/-- The value of an object holds under each key the last of the values there. -/
theorem exists_members_of_value? {depth : Nat} {all : List (String × Json)}
    (h : x.value? depth = some (.object all)) (le : depth ≤ maximalDepth) :
    ∃ members, x = .object members ∧
      ∀ k, all.lookup k = (lastAt k members).bind (value? maximalDepth) := by
  obtain ⟨members, rfl⟩ : ∃ members, x = .object members := by
    cases x with
    | object members => exact ⟨members, rfl⟩
    | array => simp [value?] at h
    | _ => simp [value?] at h
  refine ⟨members, rfl, fun k => ?_⟩
  obtain ⟨valid, shallow⟩ := (isSome_value? _ depth).mp (Option.isSome_of_eq_some h)
  have valids := allMembersValid_iff.mp valid
  obtain ⟨_, shallows⟩ := nesting_object_le.mp shallow
  rw [value?] at h
  split at h
  · cases h
  · obtain ⟨_, values, e⟩ := Option.map_eq_some_iff.mp h
    cases e
    rw [lookup_memberValues? values k]
    cases last : lastAt k members with
    | none => rfl
    | some y =>
      obtain ⟨e, he, rfl⟩ := exists_mem_of_lastAt last
      obtain ⟨v, value⟩ := Option.isSome_iff_exists.mp
        ((isSome_value? e.2 _).mpr ⟨(valids e he).2, shallows e he⟩)
      have deeper := value?_of_le e.2 (Nat.le_trans (Nat.sub_le depth 1) le) value
      exact value.trans deeper.symm

end Outline

/-! ### Integer literals -/

namespace Numeral

/-- A literal without fraction and power, other than a negative zero. -/
def IsInteger (n : Numeral) : Prop :=
  n.fraction = [] ∧ n.power = none ∧ ¬(n.negative = true ∧ natural n.whole = 0)

def toInt (n : Numeral) : Int := if n.negative then -natural n.whole else natural n.whole

theorem integer?_eq_some {n : Numeral} {i : Int} :
    n.integer? = some i ↔ n.IsInteger ∧ n.toInt = i := by
  unfold integer? IsInteger toInt
  cases n.negative <;> grind

/-- Numerals of any other kind denote a double, if anything. -/
theorem number?_eq_integer {n : Numeral} {i : Int} {fits} :
    n.number? = some (.integer i fits) ↔ n.IsInteger ∧ n.toInt = i := by
  have real : n.double?.bind (fun y => if finite : y.isFinite = true then
      some (Number.real y finite) else none) ≠ some (.integer i fits) := by
    intro h
    obtain ⟨y, _, h⟩ := Option.bind_eq_some_iff.mp h
    split at h <;> cases h
  rw [← integer?_eq_some]
  unfold number?
  cases found : n.integer? with
  | none => exact iff_of_false real (by simp)
  | some j =>
    dsimp only
    split
    · simp
    · rename_i out
      refine iff_of_false real ?_
      rintro ⟨⟩
      exact out fits

end Numeral

namespace Scalar

theorem exists_number?_eq {n : Numeral} {i : Int}
    (fits : Int64.minValue.toInt ≤ i ∧ i.toNat < UInt64.size) :
    (∃ fits, Outline.number n.number? = .number (some (.integer i fits))) ↔
      n.IsInteger ∧ n.toInt = i := by
  rw [← @Numeral.number?_eq_integer n i fits]
  exact ⟨fun ⟨_, h⟩ => Outline.number.inj h, fun h => ⟨fits, congrArg _ h⟩⟩

theorem signed_reads_number? {n : Numeral} {v : Int64} :
    signed.Reads (.number n.number?) v ↔ n.IsInteger ∧ n.toInt = v.toInt := by
  refine exists_number?_eq ⟨v.minValue_le_toInt, ?_⟩
  have := v.toInt_lt
  simp only [UInt64.size]
  omega

theorem unsigned_reads_number? {n : Numeral} {v : UInt64} :
    unsigned.Reads (.number n.number?) v ↔ n.IsInteger ∧ n.toInt = v.toNat :=
  exists_number?_eq ⟨Int.le_trans (by decide) (Int.natCast_nonneg _), v.toNat_lt⟩

variable {s : Scalar} {x : Outline} {v : s.Value}

theorem exists_integer_eq {n m : Int} {fits} :
    (∃ fits', Outline.number (some (.integer n fits)) = .number (some (.integer m fits'))) ↔
      n = m := by
  constructor
  · rintro ⟨_, h⟩
    cases h
    rfl
  · rintro rfl
    exact ⟨fits, rfl⟩

theorem decode_eq_ok : s.decode x = .ok v ↔ s.Reads x v := by
  unfold decode
  split
  · simp [Reads]
  · rename_i n fits
    rw [Reads, exists_integer_eq, ← signedOf?_eq_some]
    cases signedOf? n <;> simp
  · rename_i n fits
    rw [Reads, exists_integer_eq, ← unsignedOf?_eq_some]
    cases unsignedOf? n <;> simp
  · rename_i other
    refine iff_of_false (by simp) fun h => ?_
    exact other _ h
  · rename_i other
    refine iff_of_false (by simp) ?_
    rintro ⟨_, h⟩
    exact other _ _ h
  · rename_i other
    refine iff_of_false (by simp) ?_
    rintro ⟨_, h⟩
    exact other _ _ h

theorem toOption_decode_eq_some : (s.decode x).toOption = some v ↔ s.Reads x v := by
  rw [← decode_eq_ok]
  cases s.decode x <;> simp [Except.toOption]

end Scalar

namespace BodyFields

theorem ofItems?_eq_some {fields : BodyFields} {items : List Outline} {row : fields.Row} :
    fields.ofItems? items = some row ↔ fields.ReadsItems items row := by
  induction fields generalizing items with
  | nil => cases items <;> simp [ofItems?, ReadsItems]
  | cons field fields ih =>
    obtain ⟨name, s⟩ := field
    obtain ⟨v, row⟩ := row
    cases items with
    | nil => simp [ofItems?, ReadsItems]
    | cons x rest =>
      simp [ofItems?, ReadsItems, ← ih, ← Scalar.toOption_decode_eq_some,
        Option.bind_eq_some_iff]

theorem ofMembers?_eq_some_iff {fields : BodyFields} {members : List (Outline × Outline)}
    {row : fields.Row} :
    fields.ofMembers? members = some row ↔ fields.ReadsMembers members row := by
  induction fields with
  | nil => exact iff_of_true rfl trivial
  | cons field fields ih =>
    obtain ⟨name, s⟩ := field
    obtain ⟨v, row⟩ := row
    simp only [ofMembers?, ReadsMembers, Outline.once_iff]
    split
    · rename_i x values
      simp [values, ← ih, ← Scalar.toOption_decode_eq_some, Option.bind_eq_some_iff]
    · rename_i other
      refine iff_of_false (by simp) fun h => ?_
      obtain ⟨⟨x, values, _⟩, _⟩ := h
      exact other x values

theorem ofOutline?_eq_some {fields : BodyFields} {x : Outline} {row : fields.Row} :
    fields.ofOutline? x = some row ↔ fields.Reads x row := by
  cases x with
  | array items => simp [ofOutline?, Reads, ofItems?_eq_some]
  | object members => simp [ofOutline?, Reads, ofMembers?_eq_some_iff]
  | _ => simp [ofOutline?, Reads]

theorem exists_readsItems {fields : BodyFields} {items : List Outline} :
    (∃ row, fields.ReadsItems items row) ↔
      List.Forall₂ (fun f x => ∃ v, f.2.Reads x v) fields items := by
  induction fields generalizing items with
  | nil =>
    rw [List.forall₂_nil_left_iff]
    exact ⟨fun ⟨_, h⟩ => h, fun h => ⟨(), h⟩⟩
  | cons f fields ih =>
    rw [List.forall₂_cons_left_iff]
    constructor
    · rintro ⟨⟨v, row⟩, x, rest, rfl, reads, others⟩
      exact ⟨x, rest, ⟨v, reads⟩, ih.mp ⟨row, others⟩, rfl⟩
    · rintro ⟨x, rest, ⟨v, reads⟩, others, rfl⟩
      obtain ⟨row, others⟩ := ih.mpr others
      exact ⟨(v, row), x, rest, rfl, reads, others⟩

theorem decode_of_other {fields : BodyFields} {depth : Nat} {x : Outline} {v : Json}
    (value : x.value? depth = some v) (other : ∀ members, v ≠ .object members)
    (h : fields.ofOutline? x = none) : fields.decode depth x = .error (.data .noBody) := by
  unfold decode
  split
  · rename_i none
    cases none.symm.trans value
  · rename_i w hw
    cases hw.symm.trans value
    rw [h]
    dsimp only
    split
    · rename_i members _
      exact absurd rfl (other members)
    · rfl

theorem decode_of_not_isValid {fields : BodyFields} {depth : Nat} {x : Outline}
    (invalid : ¬x.isValid) : fields.decode depth x = .error .malformed := by
  unfold decode
  split
  · rfl
  · rename_i v value
    exact absurd ((Outline.isSome_value? x depth).mp (Option.isSome_of_eq_some value)).1 invalid

/-- A body is its typed fields, or else an object, and one that is shallow never fails for its
depth. -/
theorem decode_eq_ok {fields : BodyFields} {depth : Nat} {x : Outline} {b : Body fields.Row}
    (shallow : x.nesting ≤ depth) (le : depth ≤ Outline.maximalDepth) :
    fields.decode depth x = .ok b ↔ (FieldType.body fields).Reads x b := by
  by_cases valid : x.isValid
  swap
  · rw [decode_of_not_isValid valid]
    refine iff_of_false nofun fun reads => valid ?_
    cases b <;> exact reads.1
  obtain ⟨v, value⟩ := Option.isSome_iff_exists.mp
    ((Outline.isSome_value? x depth).mpr ⟨valid, shallow⟩)
  cases typed : fields.ofOutline? x with
  | some row =>
    have reads : fields.Reads x row := ofOutline?_eq_some.mp typed
    rw [decode_of_typed value typed, Except.ok.injEq]
    cases b with
    | typed row' =>
      rw [Body.typed.injEq, FieldType.Reads, and_iff_right valid, ← ofOutline?_eq_some, typed,
        Option.some.injEq]
    | freeform m => exact iff_of_false nofun fun free => free.2.1 ⟨row, reads⟩
  | none =>
    have untyped : ¬∃ row, fields.Reads x row := fun ⟨row, reads⟩ => by
      cases typed.symm.trans (ofOutline?_eq_some.mpr reads)
    by_cases object : ∃ all, v = .object all
    · obtain ⟨all, rfl⟩ := object
      have canonical : (Json.object all).Canonical := Outline.canonical_value? x depth _ value
      obtain ⟨members, rfl, held⟩ := Outline.exists_members_of_value? value le
      rw [decode_of_free (m := ⟨all, canonical⟩) value typed, Except.ok.injEq]
      cases b with
      | typed row => exact iff_of_false nofun fun reads => untyped ⟨row, reads.2⟩
      | freeform m =>
        constructor
        · rintro ⟨⟩
          exact ⟨valid, untyped, members, rfl, held⟩
        · rintro ⟨_, _, _, ⟨⟩, held'⟩
          have same : all = m.members :=
            canonical.1.ext m.canonical.1 fun k => (held k).trans (held' k).symm
          cases m
          cases same
          rfl
    · have other : ∀ all, v ≠ .object all := fun all h => object ⟨all, h⟩
      rw [decode_of_other value other typed]
      refine iff_of_false nofun fun reads => ?_
      cases b with
      | typed row => exact untyped ⟨row, reads.2⟩
      | freeform m =>
        obtain ⟨_, _, members, rfl, _⟩ := reads
        exact object (Outline.eq_object_of_value? value)

end BodyFields

namespace FieldType

theorem decodeName_eq_ok {names : List String} (distinct : names.Nodup) {name : String}
    {i : Fin names.length} : decodeName names name = .ok i ↔ name = names.get i := by
  constructor
  · intro h
    unfold decodeName at h
    split at h
    · rename_i j found
      cases h
      exact (List.finIdxOf?_eq_some_iff.mp found).1.symm
    · cases h
  · rintro rfl
    exact decodeName_get distinct i

theorem decodeChoice_eq_ok {names : List String} (distinct : names.Nodup) {depth : Nat}
    {x : Outline} {i : Fin names.length} (shallow : x.nesting ≤ depth) :
    decodeChoice names depth x = .ok i ↔ (choice names).Reads x i := by
  cases x with
  | text s =>
    cases s with
    | none => simp [decodeChoice, Reads]
    | some name => simp [decodeChoice, Reads, decodeName_eq_ok distinct]
  | object members =>
    obtain ⟨positive, _⟩ := Outline.nesting_object_le.mp shallow
    unfold decodeChoice
    dsimp only
    rw [if_neg (Nat.ne_of_gt positive)]
    cases members with
    | nil => simp [Reads]
    | cons e rest =>
      obtain ⟨key, v⟩ := e
      by_cases readable : ∃ name, key = .text (some name)
      swap
      · cases key with
        | text s => cases s <;> simp_all [Reads]
        | _ => simp [Reads]
      obtain ⟨name, rfl⟩ := readable
      have named : decodeName names name = .ok i ↔ name = names.get i := decodeName_eq_ok distinct
      have reads : (choice names).Reads (.object ((.text (some name), v) :: rest)) i ↔
          name = names.get i ∧ v = .null ∧ rest = [] := by
        simp [Reads, and_assoc]
      rw [reads, ← named]
      cases found : decodeName names name with
      | error => simp [bind, Except.bind, found]
      | ok j =>
        cases v with
        | null => cases rest <;> simp [bind, Except.bind, found]
        | _ => simp [bind, Except.bind, found]
  | _ => simp [decodeChoice, Reads]

theorem decodeDouble_eq_ok {x : Outline} {v : Double} :
    decodeDouble x = .ok v ↔ ∃ n, x = .number (some n) ∧ n.toDouble = v := by
  unfold decodeDouble
  split
  · simp
  · rename_i other
    exact iff_of_false nofun fun ⟨n, h, _⟩ => other n h

theorem decodeGauges_of_unkeyed {d : Dictionary Double} {key x : Outline}
    {members : List (Outline × Outline)} (unkeyed : ¬∃ k, key = .text (some k)) :
    decodeGauges d ((key, x) :: members) = .error .malformed := by
  cases key with
  | text s =>
    cases s with
    | none => rfl
    | some k => exact absurd ⟨k, rfl⟩ unkeyed
  | _ => rfl

/-- Gauges are read from numbers only, the last one under a key standing. -/
theorem decodeGauges_eq_ok {members : List (Outline × Outline)} {d all : Dictionary Double} :
    decodeGauges d members = .ok all ↔ Keyed members ∧
      (∀ e ∈ members, ∃ n, e.2 = .number (some n)) ∧
      ∀ k, all.get? k = (lastAt k members).elim (d.get? k) Outline.double? := by
  induction members generalizing d with
  | nil =>
    rw [decodeGauges, Except.ok.injEq]
    constructor
    · rintro rfl
      exact ⟨List.forall_mem_nil _, List.forall_mem_nil _, fun k => rfl⟩
    · rintro ⟨_, _, same⟩
      exact Dictionary.ext_get? fun k => (same k).symm
  | cons e rest ih =>
    obtain ⟨key, x⟩ := e
    by_cases keyed : ∃ k, key = .text (some k)
    swap
    · rw [decodeGauges_of_unkeyed keyed]
      exact iff_of_false (by simp) fun h => keyed (Outline.keyed_cons.mp h.1).1
    obtain ⟨name, rfl⟩ := keyed
    rw [List.forall_mem_cons, Outline.keyed_cons]
    rw [decodeGauges]
    cases number : decodeDouble x with
    | error error =>
      refine iff_of_false (by simp [bind, Except.bind]) ?_
      rintro ⟨_, ⟨⟨n, h⟩, _⟩, _⟩
      cases number.symm.trans (decodeDouble_eq_ok.mpr ⟨n, h, rfl⟩)
    | ok v =>
      obtain ⟨n, rfl, rfl⟩ := decodeDouble_eq_ok.mp number
      have same (k : String) :
          (lastAt k rest).elim ((d.put name n.toDouble).get? k) Outline.double? =
          (lastAt k ((.text (some name), .number (some n)) :: rest)).elim (d.get? k)
            Outline.double? := by
        by_cases here : k = name
        · subst here
          rw [Outline.lastAt_cons_self, Dictionary.get?_put_self]
          cases lastAt k rest <;> rfl
        · rw [Outline.lastAt_cons_of_ne (by simpa using Ne.symm here),
            Dictionary.get?_put_of_ne d here]
      refine ih.trans ?_
      simp [same]

/-- A field is decoded from exactly the outlines that stand for its values. -/
theorem decode_eq_ok {t : FieldType} (distinct : t.Distinct) {depth : Nat} {x : Outline}
    {v : t.Value} (shallow : x.nesting ≤ depth) (le : depth ≤ Outline.maximalDepth) :
    t.decode depth x = .ok v ↔ t.Reads x v := by
  match t with
  | .scalar s => exact Scalar.decode_eq_ok
  | .choice names => exact decodeChoice_eq_ok distinct shallow
  | .gauges =>
    cases x with
    | object members =>
      obtain ⟨positive, _⟩ := Outline.nesting_object_le.mp shallow
      rw [decode, if_neg (Nat.ne_of_gt positive), decodeGauges_eq_ok]
      constructor
      · rintro ⟨keyed, numbers, held⟩
        refine ⟨members, rfl, keyed, numbers, fun k => (held k).trans ?_⟩
        cases lastAt k members <;> rfl
      · rintro ⟨_, ⟨⟩, keyed, numbers, held⟩
        refine ⟨keyed, numbers, fun k => (held k).trans ?_⟩
        cases lastAt k members <;> rfl
    | _ => simp [decode, Reads]
  | .body fields => exact BodyFields.decode_eq_ok shallow le

theorem exists_decodeGauges {members : List (Outline × Outline)} (d : Dictionary Double)
    (keyed : Keyed members)
    (numbers : ∀ e ∈ members, ∃ n, e.2 = .number (some n)) :
    ∃ all, decodeGauges d members = .ok all := by
  induction members generalizing d with
  | nil => exact ⟨d, rfl⟩
  | cons e rest ih =>
    obtain ⟨⟨name, key⟩, otherKeys⟩ := List.forall_mem_cons.mp keyed
    obtain ⟨⟨n, number⟩, otherNumbers⟩ := List.forall_mem_cons.mp numbers
    obtain ⟨_, _⟩ := e
    cases key
    cases number
    exact ih (d.put name n.toDouble) otherKeys otherNumbers

/-- Whatever can stand in the place of a field stands for a value. -/
theorem takes_iff {t : FieldType} {depth : Nat} {x : Outline} (shallow : x.nesting ≤ depth)
    (le : depth ≤ Outline.maximalDepth) : t.Takes x ↔ ∃ v, t.Reads x v := by
  match t with
  | .scalar s => exact Iff.rfl
  | .choice names =>
    constructor
    · rintro ⟨name, held, h⟩
      obtain ⟨i, rfl⟩ := List.get_of_mem held
      exact ⟨i, h⟩
    · rintro ⟨i, h⟩
      exact ⟨names.get i, List.get_mem names i, h⟩
  | .gauges =>
    constructor
    · rintro ⟨members, rfl, keyed, numbers⟩
      obtain ⟨positive, _⟩ := Outline.nesting_object_le.mp shallow
      obtain ⟨all, read⟩ := exists_decodeGauges .empty keyed numbers
      have decoded : gauges.decode depth (.object members) = .ok all := by
        rw [decode, if_neg (Nat.ne_of_gt positive), read]
      exact ⟨all, (decode_eq_ok (t := gauges) trivial shallow le).mp decoded⟩
    · rintro ⟨_, members, rfl, keyed, numbers, _⟩
      exact ⟨members, rfl, keyed, numbers⟩
  | .body fields =>
    constructor
    · rintro ⟨valid, ⟨members, rfl⟩ | ⟨items, rfl, each⟩⟩
      · by_cases typed : ∃ row, fields.Reads (.object members) row
        · obtain ⟨row, reads⟩ := typed
          exact ⟨.typed row, valid, reads⟩
        · obtain ⟨v, value⟩ := Option.isSome_iff_exists.mp
            ((Outline.isSome_value? _ depth).mpr ⟨valid, shallow⟩)
          obtain ⟨all, rfl⟩ := Outline.eq_object_of_value? value
          have held := Outline.exists_members_of_value? value le
          exact ⟨.freeform ⟨all, Outline.canonical_value? _ depth _ value⟩, valid, typed, held⟩
      · obtain ⟨row, reads⟩ := BodyFields.exists_readsItems.mpr each
        exact ⟨.typed row, valid, .inl ⟨items, rfl, reads⟩⟩
    · rintro ⟨row | m, valid, reads⟩
      · obtain ⟨items, rfl, reads⟩ | ⟨members, rfl, _⟩ := reads
        · exact ⟨valid, .inr ⟨items, rfl, BodyFields.exists_readsItems.mp ⟨row, reads⟩⟩⟩
        · exact ⟨valid, .inl ⟨members, rfl⟩⟩
      · obtain ⟨_, members, rfl, _⟩ := reads
        exact ⟨valid, .inl ⟨members, rfl⟩⟩

end FieldType

end Uplink
