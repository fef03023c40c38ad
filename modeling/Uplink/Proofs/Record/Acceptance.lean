import Uplink.Proofs.Record.Grammar
import Uplink.Record.Report
/-!
Records are decoded from exactly the texts of their grammar, and hold what these say.
-/
namespace Uplink

open Outline (Once Keyed maximalDepth)
open BodyFields (valuesAt)

/-- What a slot makes of the values left for it: a vacant slot wants one, a filled one none. -/
def FieldType.FillsTo (t : FieldType) : Option t.Value → List Outline → t.Value → Prop
  | some w, left, v => left = [] ∧ w = v
  | none, left, v => ∃ x, left = [x] ∧ t.Reads x v

namespace Fields

/-- The items are the fields in declaration order, and no more. -/
def ReadsItems : (fields : Fields) → List Outline → fields.Row → Prop
  | [], items, _ => items = []
  | f :: fields, items, (v, row) =>
    ∃ x rest, items = x :: rest ∧ f.type.Reads x v ∧ ReadsItems fields rest row

/-- The members hold each field once, in any order and among any others. -/
def ReadsMembers : (fields : Fields) → List (Outline × Outline) → fields.Row → Prop
  | [], _, _ => True
  | f :: fields, members, (v, row) =>
    (∃ x, Once f.name x members ∧ f.type.Reads x v) ∧ ReadsMembers fields members row

def Reads (fields : Fields) (x : Outline) (row : fields.Row) : Prop :=
  (∃ items, x = .array items ∧ fields.ReadsItems items row) ∨
    ∃ members, x = .object members ∧ Keyed members ∧ fields.ReadsMembers members row

/-- The row that slots and members make together. -/
def FillsTo : (fields : Fields) → fields.Slots → List (Outline × Outline) → fields.Row → Prop
  | [], _, _, _ => True
  | f :: fields, (slot, slots), members, (v, row) =>
    f.type.FillsTo slot (valuesAt f.name members) v ∧ FillsTo fields slots members row

/-- What can stand for a row: an object with every field once and no key that cannot be read, or an
array of exactly the fields. -/
def Takes (fields : Fields) (x : Outline) : Prop :=
  (∃ members, x = .object members ∧ Keyed members ∧
      ∀ f ∈ fields, ∃ y, Once f.name y members ∧ f.type.Takes y) ∨
    ∃ items, x = .array items ∧ List.Forall₂ (fun f y => f.type.Takes y) fields items

variable {depth : Nat} {fields : Fields} {members : List (Outline × Outline)} {name : String}
  {x : Outline}

theorem fillsTo_vacant {row : fields.Row} :
    fields.FillsTo fields.vacant members row ↔ fields.ReadsMembers members row := by
  induction fields with
  | nil => exact Iff.rfl
  | cons f fields ih =>
    simp only [vacant, FillsTo, FieldType.FillsTo, ReadsMembers, ih, Outline.once_iff]

/-- With no members left, the filled slots are the row. -/
theorem complete_eq_ok {slots : fields.Slots} {row : fields.Row} :
    fields.complete slots = .ok row ↔ fields.FillsTo slots [] row := by
  induction fields with
  | nil => exact iff_of_true rfl trivial
  | cons f fields ih =>
    obtain ⟨slot, slots⟩ := slots
    obtain ⟨v, row⟩ := row
    cases slot with
    | none => simp [complete, FillsTo, FieldType.FillsTo, valuesAt]
    | some w =>
      rw [FillsTo, ← ih, complete]
      cases found : complete fields slots with
      | error => simp [bind, Except.bind]
      | ok row' => simp [bind, Except.bind, FieldType.FillsTo, valuesAt]

/-- A member under the name of no field changes nothing. -/
theorem fillsTo_cons_of_not_mem {slots : fields.Slots} {row : fields.Row}
    (other : name ∉ fields.map Field.name) :
    fields.FillsTo slots ((.text (some name), x) :: members) row ↔
      fields.FillsTo slots members row := by
  induction fields with
  | nil => exact Iff.rfl
  | cons f fields ih =>
    obtain ⟨slot, slots⟩ := slots
    obtain ⟨first, others⟩ := not_or.mp fun h => other (List.mem_cons.mpr h)
    have skip : valuesAt f.name ((.text (some name), x) :: members) = valuesAt f.name members :=
      Outline.valuesAt_cons_of_ne (by simpa using first)
    rw [FillsTo, skip, ih others, FillsTo]

/-- A member fills the vacant slot under its name, and is passed over if there is none. -/
theorem fillsTo_cons (distinct : fields.Distinct) (shallow : x.nesting ≤ depth)
    (le : depth ≤ maximalDepth) {slots : fields.Slots} {row : fields.Row} :
    fields.FillsTo slots ((.text (some name), x) :: members) row ↔
      ∃ filled, fields.fill depth name x slots = .ok filled ∧
        fields.FillsTo (filled.getD slots) members row := by
  induction fields with
  | nil => exact iff_of_true trivial ⟨none, rfl, trivial⟩
  | cons f fields ih =>
    obtain ⟨slot, slots⟩ := slots
    obtain ⟨v, row⟩ := row
    obtain ⟨names, types⟩ := distinct
    obtain ⟨new, names⟩ := List.nodup_cons.mp names
    obtain ⟨type, types⟩ := List.forall_mem_cons.mp types
    by_cases same : f.name = name
    · subst same
      rw [FillsTo, fillsTo_cons_of_not_mem new, Outline.valuesAt_cons_self]
      cases slot with
      | some w => simp [fill, FieldType.FillsTo]
      | none =>
        have value : f.type.decode depth x = .ok v ↔ f.type.Reads x v :=
          FieldType.decode_eq_ok type shallow le
        have only : f.type.FillsTo none (x :: valuesAt f.name members) v ↔
            valuesAt f.name members = [] ∧ f.type.decode depth x = .ok v := by
          simp [FieldType.FillsTo, value, and_assoc]
        rw [only]
        cases found : f.type.decode depth x with
        | error => simp [fill, found, bind, Except.bind]
        | ok w => simp [fill, found, bind, Except.bind, FillsTo, FieldType.FillsTo]
    · have skip : valuesAt f.name ((.text (some name), x) :: members) = valuesAt f.name members :=
        Outline.valuesAt_cons_of_ne (by simpa using Ne.symm same)
      rw [FillsTo, skip, ih ⟨names, types⟩]
      cases found : fill depth name x fields slots with
      | error => simp [fill, same, found, bind, Except.bind]
      | ok filled =>
        cases filled with
        | none => simp [fill, same, found, bind, Except.bind, FillsTo]
        | some slots' => simp [fill, same, found, bind, Except.bind, FillsTo]

theorem decodeMembers_of_unkeyed {slots : fields.Slots} {key : Outline}
    (unkeyed : ¬∃ k, key = .text (some k)) :
    decodeMembers depth fields slots ((key, x) :: members) = .error .malformed := by
  cases key with
  | text s =>
    cases s with
    | none => rfl
    | some k => exact absurd ⟨k, rfl⟩ unkeyed
  | _ => rfl

/-- Reading members on from any slots makes the row that these and the members make, if all keys can
be read. -/
theorem decodeMembers_complete (distinct : fields.Distinct) (le : depth ≤ maximalDepth)
    (each : ∀ e ∈ members, e.2.isWhole ∧ e.2.nesting ≤ depth) {slots : fields.Slots}
    {row : fields.Row} :
    (decodeMembers depth fields slots members).bind fields.complete = .ok row ↔
      Keyed members ∧ fields.FillsTo slots members row := by
  induction members generalizing slots with
  | nil => exact complete_eq_ok.trans (and_iff_right (List.forall_mem_nil _)).symm
  | cons e rest ih =>
    obtain ⟨⟨whole, shallow⟩, others⟩ := List.forall_mem_cons.mp each
    obtain ⟨key, x⟩ := e
    by_cases keyed : ∃ k, key = .text (some k)
    swap
    · rw [decodeMembers_of_unkeyed keyed]
      exact iff_of_false nofun fun h => keyed (Outline.keyed_cons.mp h.1).1
    obtain ⟨name, rfl⟩ := keyed
    have keyed : Keyed ((.text (some name), x) :: rest) ↔ Keyed rest :=
      Outline.keyed_cons.trans (and_iff_right ⟨name, rfl⟩)
    rw [keyed, fillsTo_cons distinct shallow le, decodeMembers]
    cases found : fill depth name x fields slots with
    | error => simp [bind, Except.bind]
    | ok filled =>
      cases filled with
      | none =>
        dsimp only at whole
        simp [bind, Except.bind, whole, ← ih others]
      | some slots' => simp [bind, Except.bind, ← ih others]

theorem decodeItems_eq_ok (distinct : ∀ f ∈ fields, f.type.Distinct) (le : depth ≤ maximalDepth)
    {items : List Outline} (each : ∀ x ∈ items, x.nesting ≤ depth) {record : String}
    {size passed : Nat} {row : fields.Row} :
    decodeItems depth record size passed fields items = .ok row ↔ fields.ReadsItems items row := by
  induction fields generalizing items passed with
  | nil => cases items <;> simp [decodeItems, ReadsItems]
  | cons f fields ih =>
    obtain ⟨v, row⟩ := row
    cases items with
    | nil => simp [decodeItems, ReadsItems]
    | cons x rest =>
      obtain ⟨type, types⟩ := List.forall_mem_cons.mp distinct
      obtain ⟨first, others⟩ := List.forall_mem_cons.mp each
      have value : f.type.decode depth x = .ok v ↔ f.type.Reads x v :=
        FieldType.decode_eq_ok type first le
      have reads : ReadsItems (f :: fields) (x :: rest) (v, row) ↔
          f.type.Reads x v ∧ ReadsItems fields rest row := by
        simp [ReadsItems]
      rw [reads, ← value, ← ih types others, decodeItems]
      cases f.type.decode depth x with
      | error => simp [bind, Except.bind]
      | ok w =>
        cases decodeItems depth record size (passed + 1) fields rest with
        | error => simp [bind, Except.bind]
        | ok row' => simp [bind, Except.bind]

/-- A row is read from exactly the outlines that stand for it. -/
theorem decode_eq_ok (distinct : fields.Distinct) (whole : x.isWhole)
    (shallow : x.nesting ≤ maximalDepth) {record : String} {row : fields.Row} :
    fields.decode record x = .ok row ↔ fields.Reads x row := by
  cases x with
  | object members =>
    obtain ⟨_, shallows⟩ := Outline.nesting_object_le.mp shallow
    have wholes := Outline.allMembersWhole_iff.mp whole
    have each : ∀ e ∈ members, e.2.isWhole ∧ e.2.nesting ≤ maximalDepth - 1 :=
      fun e he => ⟨(wholes e he).2, shallows e he⟩
    simp only [Reads, reduceCtorEq, false_and, exists_false, false_or, Outline.object.injEq,
      exists_eq_left', ← fillsTo_vacant]
    exact decodeMembers_complete distinct (Nat.sub_le _ _) each
  | array items =>
    obtain ⟨_, each⟩ := Outline.nesting_array_le.mp shallow
    simp only [Reads, reduceCtorEq, false_and, exists_false, or_false, Outline.array.injEq,
      exists_eq_left']
    exact decodeItems_eq_ok distinct.2 (Nat.sub_le _ _) each
  | _ => simp [decode, Reads]

/-! ### What can stand for a row -/

theorem exists_readsItems (le : depth ≤ maximalDepth) {items : List Outline}
    (each : ∀ x ∈ items, x.nesting ≤ depth) : (∃ row, fields.ReadsItems items row) ↔
      List.Forall₂ (fun f y => f.type.Takes y) fields items := by
  induction fields generalizing items with
  | nil =>
    rw [List.forall₂_nil_left_iff]
    exact ⟨fun ⟨_, h⟩ => h, fun h => ⟨(), h⟩⟩
  | cons f fields ih =>
    rw [List.forall₂_cons_left_iff]
    constructor
    · rintro ⟨⟨v, row⟩, x, rest, rfl, reads, others⟩
      obtain ⟨first, each⟩ := List.forall_mem_cons.mp each
      exact ⟨x, rest, (FieldType.takes_iff first le).mpr ⟨v, reads⟩, (ih each).mp ⟨row, others⟩,
        rfl⟩
    · rintro ⟨x, rest, takes, others, rfl⟩
      obtain ⟨first, each⟩ := List.forall_mem_cons.mp each
      obtain ⟨v, reads⟩ := (FieldType.takes_iff first le).mp takes
      obtain ⟨row, others⟩ := (ih each).mpr others
      exact ⟨(v, row), x, rest, rfl, reads, others⟩

theorem exists_readsMembers (le : depth ≤ maximalDepth)
    (each : ∀ e ∈ members, e.2.nesting ≤ depth) : (∃ row, fields.ReadsMembers members row) ↔
      ∀ f ∈ fields, ∃ y, Once f.name y members ∧ f.type.Takes y := by
  have shallow {f : Field} {y : Outline} (once : Once f.name y members) : y.nesting ≤ depth := by
    obtain ⟨before, after, rfl, _⟩ := once
    exact each _ (List.mem_append_right _ List.mem_cons_self)
  induction fields with
  | nil => exact iff_of_true ⟨(), trivial⟩ (List.forall_mem_nil _)
  | cons f fields ih =>
    rw [List.forall_mem_cons]
    constructor
    · rintro ⟨⟨v, row⟩, ⟨y, once, reads⟩, others⟩
      have takes := (FieldType.takes_iff (shallow once) le).mpr ⟨v, reads⟩
      exact ⟨⟨y, once, takes⟩, ih.mp ⟨row, others⟩⟩
    · rintro ⟨⟨y, once, takes⟩, others⟩
      obtain ⟨v, reads⟩ := (FieldType.takes_iff (shallow once) le).mp takes
      obtain ⟨row, others⟩ := ih.mpr others
      exact ⟨(v, row), ⟨y, once, reads⟩, others⟩

theorem takes_iff (shallow : x.nesting ≤ maximalDepth) :
    fields.Takes x ↔ ∃ row, fields.Reads x row := by
  unfold Takes Reads
  constructor
  · rintro (⟨members, rfl, keyed, takes⟩ | ⟨items, rfl, takes⟩)
    · obtain ⟨_, each⟩ := Outline.nesting_object_le.mp shallow
      obtain ⟨row, reads⟩ := (exists_readsMembers (Nat.sub_le _ _) each).mpr takes
      exact ⟨row, .inr ⟨members, rfl, keyed, reads⟩⟩
    · obtain ⟨_, each⟩ := Outline.nesting_array_le.mp shallow
      obtain ⟨row, reads⟩ := (exists_readsItems (Nat.sub_le _ _) each).mpr takes
      exact ⟨row, .inl ⟨items, rfl, reads⟩⟩
  · rintro ⟨row, ⟨items, rfl, reads⟩ | ⟨members, rfl, keyed, reads⟩⟩
    · obtain ⟨_, each⟩ := Outline.nesting_array_le.mp shallow
      exact .inr ⟨items, rfl, (exists_readsItems (Nat.sub_le _ _) each).mp ⟨row, reads⟩⟩
    · obtain ⟨_, each⟩ := Outline.nesting_object_le.mp shallow
      exact .inl ⟨members, rfl, keyed,
        (exists_readsMembers (Nat.sub_le _ _) each).mp ⟨row, reads⟩⟩

end Fields

/-! ### Records -/

namespace Record

variable {α : Type} [Record α]

/-- A record is read from exactly the texts that stand for its row. -/
theorem decode_eq_ok {o : Octets} {x : Outline} {a : α} (distinct : (fields α).Distinct)
    (text : Outline.ofOctets o = (x, false)) (whole : x.isWhole)
    (shallow : x.nesting ≤ maximalDepth) :
    decode α o = .ok a ↔ (fields α).Reads x (toRow a) := by
  have row (r : (fields α).Row) : (fields α).decode (name α) x = .ok r ↔ (fields α).Reads x r :=
    Fields.decode_eq_ok distinct whole shallow
  rw [← row, decode, text]
  cases found : (fields α).decode (name α) x with
  | error => simp [bind, Except.bind, found]
  | ok r =>
    simp only [bind, Except.bind, found, Bool.false_eq_true, if_false, Except.ok.injEq]
    constructor
    · rintro rfl
      exact (toRow_ofRow r).symm
    · rintro rfl
      exact ofRow_toRow a

/-- As a record of any kind. -/
theorem map_decode_eq_ok {o : Octets} {x : Outline} (distinct : (fields α).Distinct)
    (text : Outline.ofOctets o = (x, false)) (whole : x.isWhole)
    (shallow : x.nesting ≤ maximalDepth) {f : α → Report} {r : Report} :
    f <$> decode α o = .ok r ↔ ∃ a, (fields α).Reads x (toRow a) ∧ f a = r := by
  have read (a : α) := decode_eq_ok (a := a) distinct text whole shallow
  cases found : decode α o with
  | error => simp [← read, found, Functor.map, Except.map]
  | ok b => simp [← read, found, Functor.map, Except.map]

theorem exists_decode {o : Octets} {x : Outline} (distinct : (fields α).Distinct)
    (text : Outline.ofOctets o = (x, false)) (whole : x.isWhole)
    (shallow : x.nesting ≤ maximalDepth) {f : α → Report} :
    (∃ r, f <$> decode α o = .ok r) ↔ (fields α).Takes x := by
  rw [Fields.takes_iff shallow]
  constructor
  · rintro ⟨r, h⟩
    obtain ⟨a, reads, _⟩ := (map_decode_eq_ok distinct text whole shallow).mp h
    exact ⟨toRow a, reads⟩
  · rintro ⟨row, reads⟩
    have again : (fields α).Reads x (toRow (ofRow row)) := (toRow_ofRow row).symm ▸ reads
    exact ⟨_, (map_decode_eq_ok distinct text whole shallow).mpr ⟨ofRow row, again, rfl⟩⟩

end Record

def Kind.fields : Kind → Fields
  | .alarm => Record.fields Alarm
  | .callDetail => Record.fields CallDetail
  | .generalEvent => Record.fields GeneralEvent
  | .stationState => Record.fields StationState
  | .terminalAccess => Record.fields TerminalAccess
  | .kpi => Record.fields KpiReport

theorem Kind.distinct_fields (k : Kind) : k.fields.Distinct := by
  cases k <;> decide

namespace Report

/-- A record that `x` stands for, each field holding what stands in its place. -/
def Reads (x : Outline) : Report → Prop
  | .alarm a => (Record.fields Alarm).Reads x (Record.toRow a)
  | .callDetail c => (Record.fields CallDetail).Reads x (Record.toRow c)
  | .generalEvent e => (Record.fields GeneralEvent).Reads x (Record.toRow e)
  | .stationState s => (Record.fields StationState).Reads x (Record.toRow s)
  | .terminalAccess t => (Record.fields TerminalAccess).Reads x (Record.toRow t)
  | .kpi k => (Record.fields KpiReport).Reads x (Record.toRow k)

variable {x : Outline} {k : Kind} {o : Octets}

theorem decode_eq_ok (text : Outline.ofOctets o = (x, false)) (whole : x.isWhole)
    (shallow : x.nesting ≤ maximalDepth) {r : Report} :
    decode k o = .ok r ↔ r.kind = k ∧ r.Reads x := by
  have distinct := k.distinct_fields
  cases k <;> refine (Record.map_decode_eq_ok distinct text whole shallow).trans ?_ <;>
    cases r <;> simp [kind, Reads]

theorem exists_decode (text : Outline.ofOctets o = (x, false)) (whole : x.isWhole)
    (shallow : x.nesting ≤ maximalDepth) : (∃ r, decode k o = .ok r) ↔ k.fields.Takes x := by
  have distinct := k.distinct_fields
  cases k <;> exact Record.exists_decode distinct text whole shallow

/-- A text of the JSON syntax that nests no deeper than a reader follows is a record of a kind
exactly if it is an object with every field of the kind once, or an array of exactly these, each of
its type, and nothing that has to be read holds an unpaired surrogate: no key of the object, no
field and nothing in a body, while what is passed over may.  The record then holds what stands in
the place of each field, and an integer is a literal without fraction and power, in range and other
than a negative zero. -/
theorem decode_by_grammar (k : Kind) (o : Octets) (x : Outline)
    (text : Outline.ofOctets o = (x, false)) (whole : x.isWhole = true)
    (shallow : x.nesting ≤ 127) :
    ((∃ r, decode k o = .ok r) ↔ k.fields.Takes x) ∧
      (∀ r, decode k o = .ok r ↔ r.kind = k ∧ r.Reads x) ∧
      ∀ n : Numeral,
        (∀ v, Scalar.signed.Reads (.number n.number?) v ↔ n.IsInteger ∧ n.toInt = v.toInt) ∧
        ∀ v, Scalar.unsigned.Reads (.number n.number?) v ↔ n.IsInteger ∧ n.toInt = v.toNat :=
  ⟨exists_decode text whole shallow, fun _ => decode_eq_ok text whole shallow, fun _ =>
    ⟨fun _ => Scalar.signed_reads_number?, fun _ => Scalar.unsigned_reads_number?⟩⟩

/-- A station as an array of its fields, its state as an object. -/
theorem decode_by_grammar_station :
    let station : Json := .array [.text "NE", .signed 1, .text "hall", .text "node", .text "LTE",
      .object [("Online", .null)]]
    let x := Outline.ofJson station
    let r : Report := .stationState ⟨"NE", 1, "hall", "node", "LTE", .online⟩
    Outline.ofOctets station.write = (x, false) ∧ x.isWhole = true ∧ x.nesting ≤ 127 ∧
      r.Reads x ∧ decode .stationState station.write = .ok r := by
  intro station x r
  have text : Outline.ofOctets station.write = (x, false) :=
    Outline.ofOctets_write station (List.forall_mem_nil _)
  have whole : x.isWhole = true := by decide +kernel
  have shallow : x.nesting ≤ 127 := by decide +kernel
  have reads : r.Reads x :=
    .inl ⟨_, rfl, _, _, rfl, rfl, _, _, rfl, ⟨_, rfl⟩, _, _, rfl, rfl, _, _, rfl, rfl, _, _, rfl,
      rfl, _, _, rfl, .inr rfl, rfl⟩
  exact ⟨text, whole, shallow, reads,
    ((decode_by_grammar .stationState _ x text whole shallow).2.1 r).mpr ⟨rfl, reads⟩⟩

/-- A key with an unpaired surrogate is not passed over, though it is the name of no field. -/
theorem decode_loneSurrogate :
    let o := Octets.ofText
      "\x7b\"neUid\":\"NE\",\"recordTime\":1,\"cdr\":\x7b\x7d,\"\\ud800\":null\x7d"
    let members := [(.text (some "neUid"), .text (some "NE")),
      (.text (some "recordTime"), .number (some (.signed 1))), (.text (some "cdr"), .object []),
      (.text none, .null)]
    Outline.ofOctets o = (.object members, false) ∧ (Outline.object members).isWhole = true ∧
      (Outline.object members).nesting ≤ 127 ∧
      (∀ f ∈ Kind.callDetail.fields, ∃ y, Once f.name y members ∧ f.type.Takes y) ∧
      ∀ r, decode .callDetail o ≠ .ok r := by
  intro o members
  have tokens : Token.ofOctets o = [.openObject, .text (some "neUid"), .colon, .text (some "NE"),
      .comma, .text (some "recordTime"), .colon, .number (some (.signed 1)), .comma,
      .text (some "cdr"), .colon, .openObject, .closeObject, .comma, .text none, .colon, .null,
      .closeObject] := by decide +kernel
  have text : Outline.ofOctets o = (.object members, false) := by
    rw [Outline.ofOctets, tokens]
    rfl
  have whole : (Outline.object members).isWhole = true := rfl
  have shallow : (Outline.object members).nesting ≤ 127 := by decide +kernel
  have fields : ∀ f ∈ Kind.callDetail.fields, ∃ y, Once f.name y members ∧ f.type.Takes y := by
    refine List.forall_mem_cons.mpr ⟨⟨_, Outline.once_iff.mpr rfl, "NE", rfl⟩, ?_⟩
    refine List.forall_mem_cons.mpr ⟨⟨_, Outline.once_iff.mpr rfl, 1, _, rfl⟩, ?_⟩
    refine List.forall_mem_cons.mpr ⟨⟨_, Outline.once_iff.mpr rfl, rfl, .inl ⟨[], rfl⟩⟩, ?_⟩
    exact List.forall_mem_nil _
  refine ⟨text, whole, shallow, fields, fun r decoded => ?_⟩
  obtain ⟨_, ⟨⟩, keyed, _⟩ | ⟨_, ⟨⟩, _⟩ := (exists_decode text whole shallow).mp ⟨r, decoded⟩
  obtain ⟨k, unreadable⟩ := keyed (.text none, .null) (List.mem_of_getLast? rfl)
  cases unreadable

end Report

end Uplink
