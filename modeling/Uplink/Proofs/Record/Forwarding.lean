import Uplink.Proofs.Record.Sources
/-!
Records that are received and sent on.  Whatever text a record was read from, the text it is
written as is read as the same record, but for a body that names a typed field twice: it is read
as a free map, and this as the typed fields.
-/
namespace Uplink

open Outline (lastAt maximalDepth)
open BodyFields (valuesAt)

/-! ### Bodies that name a typed field twice -/

theorem Ascending.lookup_eq_some {α : Type} {entries : List (String × α)}
    (h : Ascending entries) {k : String} {v : α} :
    entries.lookup k = some v ↔ (k, v) ∈ entries := by
  rw [List.lookup_eq_some_iff]
  constructor
  · rintro ⟨before, after, rfl, _⟩
    exact List.mem_append_right _ List.mem_cons_self
  · intro held
    obtain ⟨before, after, rfl⟩ := List.append_of_mem held
    refine ⟨before, after, rfl, fun e he => ?_⟩
    have below : e.1 < k := (List.pairwise_append.mp h).2.2 e he (k, v) List.mem_cons_self
    simpa using (Std.ne_of_lt below).symm

/-- A scalar is read from an outline exactly if the outline's value is what it is written as. -/
theorem Scalar.value?_eq_encode {s : Scalar} {x : Outline} {v : s.Value} {depth : Nat} :
    x.value? depth = some (s.encode v) ↔ s.Reads x v := by
  cases s with
  | text => cases x <;> simp [Outline.value?, encode, Reads]
  | signed =>
    cases x with
    | number n =>
      simp only [Outline.value?, encode, Reads, Json.signed, Number.signed, Option.map_eq_some_iff,
        Json.number.injEq, exists_eq_right]
      constructor
      · rintro rfl
        exact exists_integer_eq.mpr rfl
      · rintro ⟨_, h⟩
        cases h
        rfl
    | _ => simp [Outline.value?, encode, Reads, Json.signed]
  | unsigned =>
    cases x with
    | number n =>
      simp only [Outline.value?, encode, Reads, Json.unsigned, Number.unsigned,
        Option.map_eq_some_iff, Json.number.injEq, exists_eq_right]
      constructor
      · rintro rfl
        exact exists_integer_eq.mpr rfl
      · rintro ⟨_, h⟩
        cases h
        rfl
    | _ => simp [Outline.value?, encode, Reads, Json.unsigned]

namespace BodyFields

/-- An object that repeats the name of a typed field, while the last values make all of them. -/
def Repeats (fields : BodyFields) (x : Outline) : Prop :=
  ∃ members, x = .object members ∧ (∃ f ∈ fields, 1 < (valuesAt f.1 members).length) ∧
    ∀ f ∈ fields, ∃ y v, lastAt f.1 members = some y ∧ f.2.Reads y v

variable {fields : BodyFields} {members : List (Outline × Outline)}

theorem exists_readsMembers
    (each : ∀ f ∈ fields, ∃ x v, Outline.Once f.1 x members ∧ f.2.Reads x v) :
    ∃ row, fields.ReadsMembers members row := by
  induction fields with
  | nil => exact ⟨(), trivial⟩
  | cons field fields ih =>
    obtain ⟨⟨x, v, once, reads⟩, others⟩ := List.forall_mem_cons.mp each
    obtain ⟨row, rest⟩ := ih others
    exact ⟨(v, row), ⟨x, once, reads⟩, rest⟩

theorem length_valuesAt_of_readsMembers {row : fields.Row} (h : fields.ReadsMembers members row) :
    ∀ f ∈ fields, (valuesAt f.1 members).length = 1 := by
  induction fields with
  | nil => exact List.forall_mem_nil _
  | cons field fields ih =>
    obtain ⟨⟨x, once, _⟩, rest⟩ := h
    refine List.forall_mem_cons.mpr ⟨?_, ih rest⟩
    rw [Outline.once_iff.mp once]
    rfl

theorem not_repeats_of_reads {x : Outline} {row : fields.Row} (h : fields.Reads x row) :
    ¬fields.Repeats x := by
  rintro ⟨members, rfl, ⟨f, hf, twice⟩, _⟩
  obtain ⟨_, same, _⟩ | ⟨_, same, reads⟩ := h
  · cases same
  · cases same
    have once := length_valuesAt_of_readsMembers reads f hf
    omega

end BodyFields

/-- A map of the last values resembles the typed fields exactly if these values make them. -/
theorem Freeform.resembles_iff {m : Freeform} {fields : BodyFields}
    {members : List (Outline × Outline)}
    (held : ∀ k, m.members.lookup k = (lastAt k members).bind (Outline.value? maximalDepth)) :
    m.Resembles fields ↔ ∀ f ∈ fields, ∃ y v, lastAt f.1 members = some y ∧ f.2.Reads y v := by
  refine forall₂_congr fun f _ => ?_
  constructor
  · rintro ⟨_, here, fits⟩
    obtain ⟨v, rfl⟩ := Scalar.fits_iff.mp fits
    have found := m.canonical.1.lookup_eq_some.mpr here
    rw [held] at found
    obtain ⟨y, last, value⟩ := Option.bind_eq_some_iff.mp found
    exact ⟨y, v, last, Scalar.value?_eq_encode.mp value⟩
  · rintro ⟨y, v, last, reads⟩
    refine ⟨f.2.encode v, m.canonical.1.lookup_eq_some.mp ?_, Scalar.fits_iff.mpr ⟨v, rfl⟩⟩
    rw [held, last]
    exact Scalar.value?_eq_encode.mpr reads

/-- A free map resembles the typed fields exactly if it was read from an object that repeats one. -/
theorem Freeform.resembles_iff_repeats {fields : BodyFields} {x : Outline} {m : Freeform}
    (h : (FieldType.body fields).Reads x (.freeform m)) :
    m.Resembles fields ↔ fields.Repeats x := by
  obtain ⟨_, untyped, members, rfl, held⟩ := h
  rw [resembles_iff held]
  constructor
  · intro each
    refine ⟨members, rfl, ?_, each⟩
    -- were each of these names there once, the body would have been typed
    by_contra single
    apply untyped
    have once : ∃ row, fields.ReadsMembers members row := by
      apply BodyFields.exists_readsMembers
      intro f hf
      obtain ⟨y, v, last, reads⟩ := each f hf
      refine ⟨y, v, Outline.once_iff.mpr ?_, reads⟩
      have few : ¬1 < (valuesAt f.1 members).length := fun twice => single ⟨f, hf, twice⟩
      unfold lastAt at last
      match valuesAt f.1 members, few, last with
      | [_], _, rfl => rfl
      | _ :: _ :: _, few, _ => simp at few
    obtain ⟨row, reads⟩ := once
    exact ⟨row, .inr ⟨members, rfl, reads⟩⟩
  · rintro ⟨_, ⟨⟩, _, each⟩
    exact each

/-! ### Records -/

def Kind.RepeatsBody : Kind → Outline → Prop
  | .callDetail, x => ∃ y, x.at? "cdr" 2 = some y ∧ CallFields.fields.Repeats y
  | .generalEvent, x => ∃ y, x.at? "data" 3 = some y ∧ EventFields.fields.Repeats y
  | _, _ => False

namespace Report

/-- The one way in which a decoded record is ambiguous. -/
theorem ReadFrom.ambiguous_iff {x : Outline} {r : Report} (h : r.ReadFrom x) :
    r.Ambiguous ↔ r.kind.RepeatsBody x := by
  -- the body of the record is read from the outline in its place
  have body {fields : BodyFields} {name : String} {i : Nat} {b : Body fields.Row}
      (h : ∃ y, x.at? name i = some y ∧
        (FieldType.body fields).decode (maximalDepth - 1) y = .ok b) :
      (∃ m, b = .freeform m ∧ m.Resembles fields) ↔
        ∃ y, x.at? name i = some y ∧ fields.Repeats y := by
    obtain ⟨y, here, read⟩ := h
    have reads := (BodyFields.decode_eq_ok (BodyFields.nesting_le_of_decode read)
      (Nat.sub_le _ _)).mp read
    rw [here]
    simp only [Option.some.injEq, exists_eq_left']
    cases b with
    | typed row =>
      refine iff_of_false ?_ (BodyFields.not_repeats_of_reads reads.2)
      rintro ⟨_, ⟨⟩, _⟩
    | freeform m => simpa using Freeform.resembles_iff_repeats reads
  cases r with
  | callDetail c =>
    obtain ⟨_, _, cdr⟩ := c
    obtain ⟨_, _, read, _⟩ := h
    rw [kind, Kind.RepeatsBody, ← body read]
    cases cdr <;> simp [Ambiguous, Body.map]
  | generalEvent e =>
    obtain ⟨_, _, _, data⟩ := e
    obtain ⟨_, _, _, read, _⟩ := h
    rw [kind, Kind.RepeatsBody, ← body read]
    cases data <;> simp [Ambiguous, Body.map]
  | _ => exact Iff.rfl

theorem Captured.isMap? {r s : Report} (h : r.Captured s) :
    r.isMap? = some true ∧ s.isMap? = some false := by
  cases h <;> exact ⟨rfl, rfl⟩

/-- A record that was read from a text is read as the same record from the text it is written as,
unless its body named a typed field twice and the last values make all typed fields.  Then it was
read as a free map, and is read as the typed fields from now on. -/
theorem decode_encode_of_decode {k : Kind} {o : Octets} {r : Report} (read : decode k o = .ok r)
    (faithful : ∀ x ∈ r.doubles, x.Faithful) :
    (decode k r.encode = .ok r ↔ ¬k.RepeatsBody (Outline.ofOctets o).1) ∧
      (k.RepeatsBody (Outline.ofOctets o).1 → r.isMap? = some true ∧
        ∃ s, decode k r.encode = .ok s ∧ s.isMap? = some false ∧ r.Captured s) := by
  obtain ⟨rfl, from'⟩ := decode_readFrom read
  rw [← from'.ambiguous_iff]
  rcases decode_encode_cases r faithful from'.shallow with ⟨same, apart⟩ | ⟨s, captured, again⟩
  · exact ⟨iff_of_true same apart, fun ambiguous => absurd ambiguous apart⟩
  · have changed : decode r.kind r.encode ≠ .ok r := by
      rw [again]
      exact fun same => captured.ne (Except.ok.inj same)
    obtain ⟨free, typed⟩ := captured.isMap?
    exact ⟨iff_of_false changed fun apart => apart captured.ambiguous, fun _ =>
      ⟨free, s, again, typed, captured⟩⟩

/-- An event of two levels is read as a free map of the last of them. -/
theorem decode_encode_of_decode_twoLevels :
    let event : Json := .object [("eventType", .text "door"), ("neUid", .text "NE"),
      ("recordTime", .signed 1),
      ("data", .object [("level", .text "major"), ("event", .text "open"),
        ("detail", .text "hall"), ("level", .text "minor")])]
    let door : Freeform :=
      ⟨[("detail", .text "hall"), ("event", .text "open"), ("level", .text "minor")],
        by decide, by simp [Json.MembersCanonical, Json.Canonical]⟩
    let r : Report := .generalEvent ⟨"NE", 1, "door", .freeform door⟩
    decode .generalEvent event.write = .ok r ∧ (∀ x ∈ r.doubles, x.Faithful) ∧
      Kind.generalEvent.RepeatsBody (Outline.ofOctets event.write).1 ∧
      decode .generalEvent r.encode ≠ .ok r := by
  intro event door r
  have text : Outline.ofOctets event.write = (Outline.ofJson event, false) :=
    Outline.ofOctets_write event (List.forall_mem_nil _)
  have read : decode .generalEvent event.write = .ok r := by
    rw [decode, Record.decode, text]
    rfl
  have faithful : ∀ x ∈ r.doubles, x.Faithful := by decide +kernel
  have repeats : Kind.generalEvent.RepeatsBody (Outline.ofOctets event.write).1 := by
    rw [text]
    refine ⟨_, rfl, _, rfl, ⟨("level", .text), by decide, by decide⟩, ?_⟩
    exact List.forall_mem_cons.mpr ⟨⟨_, _, rfl, rfl⟩, List.forall_mem_cons.mpr
      ⟨⟨_, _, rfl, rfl⟩, List.forall_mem_cons.mpr ⟨⟨_, _, rfl, rfl⟩, List.forall_mem_nil _⟩⟩⟩
  have kept := (decode_encode_of_decode read faithful).1
  exact ⟨read, faithful, repeats, fun same => kept.mp same repeats⟩

end Report

end Uplink
