import Mathlib.Data.List.Nodup
import Uplink.Proofs.Record.Bodies
/-!
Rows of fields on the wire: each value comes back under its own name, whatever stands in the
other fields.
-/
namespace Uplink

open Outline (ofJson ofMembers)

namespace FieldType

def Distinct : FieldType → Prop
  | .choice names => names.Nodup
  | .body fields => (fields.map Prod.fst).Nodup
  | _ => True

instance : DecidablePred Distinct
  | .scalar _ => isTrue trivial
  | .choice names => inferInstanceAs (Decidable names.Nodup)
  | .gauges => isTrue trivial
  | .body fields => inferInstanceAs (Decidable (fields.map Prod.fst).Nodup)

def doubles : (t : FieldType) → t.Value → List Double
  | .gauges, d => d.entries.map Prod.snd
  | .body _, .freeform m => (Json.object m.members).doubles
  | _, _ => []

/-- What a value is read back as. -/
def reread : (t : FieldType) → t.Value → t.Value
  | .body fields, b => Body.reread fields b
  | _, v => v

theorem decodeName_get {names : List String} (distinct : names.Nodup) (i : Fin names.length) :
    decodeName names (names.get i) = .ok i := by
  have found : names.finIdxOf? (names.get i) = some i := by
    refine List.finIdxOf?_eq_some_iff.mpr ⟨rfl, fun j below same => ?_⟩
    exact Nat.ne_of_lt below ((List.Nodup.getElem_inj_iff distinct).mp same)
  rw [decodeName, found]

theorem decodeGauges_ofMembers {entries : List (String × Double)} (d : Dictionary Double)
    (finite : ∀ e ∈ entries, e.2.isFinite) (ascending : Ascending (d.entries ++ entries)) :
    decodeGauges d (ofMembers (entries.map fun e => (e.1, .real e.2))) =
      .ok ⟨d.entries ++ entries, ascending⟩ := by
  induction entries generalizing d with
  | nil => simp [ofMembers, decodeGauges]
  | cons head rest ih =>
    obtain ⟨k, x⟩ := head
    obtain ⟨first, others⟩ := List.forall_mem_cons.mp finite
    have below : ∀ e ∈ d.entries, e.1 < k := fun e he =>
      (List.pairwise_append.mp ascending).2.2 e he (k, x) List.mem_cons_self
    have put : (d.put k x).entries = d.entries ++ [(k, x)] := putEntry_eq_append below x
    have ascending' : Ascending ((d.put k x).entries ++ rest) := by
      rwa [put, ← List.append_cons]
    rw [List.map_cons, ofMembers, Json.real, dif_pos first, ofJson, decodeGauges]
    simp only [decodeDouble, Number.toDouble]
    refine (ih _ others ascending').trans ?_
    rw [Except.ok.injEq, Dictionary.mk.injEq, put, ← List.append_cons]

theorem doubles_real (x : Double) : (Json.real x).doubles ⊆ [x] := by
  rw [Json.real]
  split
  · exact List.Subset.refl _
  · exact List.nil_subset _

theorem memberDoubles_gauges (entries : List (String × Double)) :
    Json.memberDoubles (entries.map fun e => (e.1, .real e.2)) ⊆ entries.map Prod.snd := by
  induction entries with
  | nil => exact List.nil_subset _
  | cons head rest ih =>
    refine List.append_subset.mpr ⟨List.Subset.trans (doubles_real head.2) ?_, ?_⟩
    · exact List.cons_subset_cons _ (List.nil_subset _)
    · exact List.Subset.trans ih (List.subset_cons_self ..)

theorem memberDoubles_typed {fields : BodyFields} (row : fields.Row) :
    Json.memberDoubles (fields.encode row) = [] := by
  induction fields with
  | nil => rfl
  | cons field fields ih =>
    obtain ⟨name, s⟩ := field
    rw [BodyFields.encode, Json.memberDoubles, ih]
    cases s <;> rfl

theorem doubles_encode (t : FieldType) (v : t.Value) : (t.encode v).doubles ⊆ t.doubles v := by
  match t, v with
  | .scalar .text, _ | .scalar .signed, _ | .scalar .unsigned, _ | .choice _, _ =>
    exact List.nil_subset _
  | .gauges, d => exact memberDoubles_gauges d.entries
  | .body fields, .typed row =>
    rw [encode, Json.doubles, memberDoubles_typed]
    exact List.nil_subset _
  | .body _, .freeform m => exact List.Subset.refl _

/-- A value is read back from what it is written as. -/
theorem decode_encode {t : FieldType} (distinct : t.Distinct) {v : t.Value} {depth : Nat}
    (finite : ∀ x ∈ t.doubles v, x.isFinite) (shallow : (t.encode v).nesting ≤ depth) :
    t.decode depth (ofJson (t.encode v)) = .ok (t.reread v) := by
  match t, v with
  | .scalar s, v => exact Scalar.decode_ofJson.mpr rfl
  | .choice names, i => exact decodeName_get distinct i
  | .gauges, d =>
    have positive : depth ≠ 0 := Nat.ne_of_gt (Nat.lt_of_lt_of_le (Nat.succ_pos _) shallow)
    rw [encode, ofJson, decode, if_neg positive]
    exact decodeGauges_ofMembers .empty
      (fun e he => finite e.2 (List.mem_map.mpr ⟨e, he, rfl⟩)) d.ascending
  | .body fields, b => exact Body.decode_encode distinct b shallow

end FieldType

namespace Fields

variable {depth : Nat}

def full : (fields : Fields) → fields.Row → fields.Slots
  | [], _ => ()
  | _ :: rest, (v, row) => (some v, full rest row)

def reread : (fields : Fields) → fields.Row → fields.Row
  | [], _ => ()
  | f :: rest, (v, row) => (f.type.reread v, reread rest row)

def doubles : (fields : Fields) → fields.Row → List Double
  | [], _ => []
  | f :: rest, (v, row) => f.type.doubles v ++ doubles rest row

/-- The names of the fields, and those within each, are told apart. -/
def Distinct (fields : Fields) : Prop :=
  (fields.map Field.name).Nodup ∧ ∀ f ∈ fields, f.type.Distinct

instance : DecidablePred Distinct := fun fields =>
  inferInstanceAs (Decidable ((fields.map Field.name).Nodup ∧ ∀ f ∈ fields, f.type.Distinct))

theorem complete_full (fields : Fields) (row : fields.Row) :
    fields.complete (fields.full row) = .ok row := by
  induction fields with
  | nil => rfl
  | cons f fields ih =>
    rw [full, complete, ih row.2]
    rfl

/-- Members with other names leave a slot as it is. -/
theorem decodeMembers_cons {f : Field} {fields : Fields} {members : List (String × Json)}
    (other : ∀ e ∈ members, f.name ≠ e.1) (slot : Option f.type.Value) (slots : fields.Slots) :
    decodeMembers depth (f :: fields) (slot, slots) (ofMembers members) =
      (decodeMembers depth fields slots (ofMembers members)).map fun slots => (slot, slots) := by
  induction members generalizing slots with
  | nil => rfl
  | cons head rest ih =>
    obtain ⟨k, v⟩ := head
    obtain ⟨first, others⟩ := List.forall_mem_cons.mp other
    have ih := ih others
    simp only [ofMembers, decodeMembers, fill, if_neg first]
    cases fill depth k (ofJson v) fields slots with
    | error e => rfl
    | ok filled =>
      cases filled with
      | some slots => exact ih slots
      | none =>
        dsimp only [Except.map, Option.map, bind, Except.bind]
        split
        · exact ih slots
        · rfl

theorem map_fst_encode {fields : Fields} (row : fields.Row) :
    (fields.encode row).map Prod.fst = fields.map Field.name := by
  induction fields with
  | nil => rfl
  | cons f fields ih => rw [encode, List.map_cons, ih, List.map_cons]

theorem decodeMembers_encode {fields : Fields} {row : fields.Row} (distinct : fields.Distinct)
    (finite : ∀ x ∈ fields.doubles row, x.isFinite)
    (shallow : Json.memberNesting (fields.encode row) ≤ depth) :
    decodeMembers depth fields fields.vacant (ofMembers (fields.encode row)) =
      .ok (fields.full (fields.reread row)) := by
  induction fields with
  | nil => rfl
  | cons f fields ih =>
    obtain ⟨v, row⟩ := row
    obtain ⟨names, types⟩ := distinct
    obtain ⟨new, names⟩ := List.nodup_cons.mp names
    obtain ⟨type, types⟩ := List.forall_mem_cons.mp types
    obtain ⟨finite, finites⟩ := List.forall_mem_append.mp finite
    obtain ⟨shallow, shallows⟩ := Nat.max_le.mp shallow
    have other : ∀ e ∈ encode fields row, f.name ≠ e.1 := by
      intro e he same
      apply new
      rw [← map_fst_encode row, same]
      exact List.mem_map_of_mem he
    have value := FieldType.decode_encode type finite shallow
    rw [encode, ofMembers, decodeMembers, vacant, fill, if_pos rfl]
    simp only [value, Except.bind, bind]
    rw [decodeMembers_cons other, ih ⟨names, types⟩ finites shallows]
    rfl

/-- A row is read back from the object it is written as. -/
theorem decode_encode {fields : Fields} {row : fields.Row} (record : String)
    (distinct : fields.Distinct) (finite : ∀ x ∈ fields.doubles row, x.isFinite)
    (shallow : (Json.object (fields.encode row)).nesting ≤ Outline.maximalDepth) :
    fields.decode record (ofJson (.object (fields.encode row))) = .ok (fields.reread row) := by
  have members : decodeMembers (Outline.maximalDepth - 1) fields fields.vacant
      (ofMembers (fields.encode row)) = .ok (fields.full (fields.reread row)) :=
    decodeMembers_encode distinct finite (Nat.le_sub_one_of_lt shallow)
  rw [ofJson, decode, members]
  exact complete_full fields _

theorem doubles_encode {fields : Fields} (row : fields.Row) :
    (Json.object (fields.encode row)).doubles ⊆ fields.doubles row := by
  induction fields with
  | nil => exact List.nil_subset _
  | cons f fields ih =>
    refine List.append_subset.mpr ⟨?_, ?_⟩
    · exact List.Subset.trans (f.type.doubles_encode row.1) (List.subset_append_left ..)
    · exact List.Subset.trans (ih row.2) (List.subset_append_right ..)

end Fields

end Uplink
