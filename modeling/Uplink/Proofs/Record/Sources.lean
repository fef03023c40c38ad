import Uplink.Proofs.Record.Acceptance
import Uplink.Proofs.Record.RoundTrip
/-!
Where the values of a decoded record come from: each field is read from what stands in its place,
whatever else the text holds, and no value nests deeper than the reader follows.
-/
namespace Uplink

open Outline (lastAt maximalDepth)

/-! ### How deep decoded values nest -/

namespace Json

theorem memberNesting_putEntry (k : String) (v : Json) (entries : List (String × Json)) :
    memberNesting (putEntry k v entries) ≤ max v.nesting (memberNesting entries) := by
  induction entries with
  | nil => simp [putEntry, memberNesting]
  | cons e rest ih =>
    obtain ⟨k', v'⟩ := e
    unfold putEntry
    split
    · simp only [memberNesting]
      omega
    · split <;> simp only [memberNesting] <;> omega

end Json

namespace Outline

mutual

/-- A value nests no deeper than the reader follows. -/
theorem nesting_le_of_value? : ∀ (x : Outline) {v : Json} {depth : Nat},
    x.value? depth = some v → v.nesting ≤ depth
  | .null, _, _, h | .bool _, _, _, h => by
    cases h
    exact Nat.zero_le _
  | .number n, _, _, h => by
    obtain ⟨_, _, rfl⟩ := Option.map_eq_some_iff.mp h
    exact Nat.zero_le _
  | .text s, _, _, h => by
    obtain ⟨_, _, rfl⟩ := Option.map_eq_some_iff.mp h
    exact Nat.zero_le _
  | .array items, _, depth, h => by
    rw [value?] at h
    split at h <;> rename_i positive
    · cases h
    · obtain ⟨vs, values, rfl⟩ := Option.map_eq_some_iff.mp h
      have inner := itemNesting_le_of_values? items values
      rw [Json.nesting]
      omega
  | .object members, _, depth, h => by
    rw [value?] at h
    split at h <;> rename_i positive
    · cases h
    · obtain ⟨all, values, rfl⟩ := Option.map_eq_some_iff.mp h
      have inner := memberNesting_le_of_memberValues? members (Nat.zero_le _) values
      rw [Json.nesting]
      omega

theorem itemNesting_le_of_values? : ∀ (items : List Outline) {vs : List Json} {depth : Nat},
    values? depth items = some vs → Json.itemNesting vs ≤ depth
  | [], _, _, h => by
    cases h
    exact Nat.zero_le _
  | x :: rest, _, depth, h => by
    obtain ⟨v, first, h⟩ := Option.bind_eq_some_iff.mp h
    obtain ⟨vs, others, h⟩ := Option.bind_eq_some_iff.mp h
    cases h
    exact Nat.max_le.mpr
      ⟨nesting_le_of_value? x first, itemNesting_le_of_values? rest others⟩

theorem memberNesting_le_of_memberValues? : ∀ (members : List (Outline × Outline))
    {entries all : List (String × Json)} {depth : Nat},
    Json.memberNesting entries ≤ depth → memberValues? depth entries members = some all →
    Json.memberNesting all ≤ depth
  | [], _, _, _, shallow, h => by
    cases h
    exact shallow
  | (.text (some k), x) :: rest, entries, _, depth, shallow, h => by
    obtain ⟨v, first, h⟩ := Option.bind_eq_some_iff.mp h
    have entered := Json.memberNesting_putEntry k v entries
    have value := nesting_le_of_value? x first
    exact memberNesting_le_of_memberValues? rest (by omega) h
  | (.text none, _) :: _, _, _, _, _, h | (.null, _) :: _, _, _, _, _, h
  | (.bool _, _) :: _, _, _, _, _, h | (.number _, _) :: _, _, _, _, _, h
  | (.array _, _) :: _, _, _, _, _, h | (.object _, _) :: _, _, _, _, _, h
  | (.broken, _) :: _, _, _, _, _, h => nomatch h

end

end Outline

namespace BodyFields

variable {fields : BodyFields} {depth : Nat} {x : Outline}

/-- A body of either form is read from a whole value. -/
theorem exists_value?_of_decode {b : Body fields.Row} (h : fields.decode depth x = .ok b) :
    ∃ v, x.value? depth = some v := by
  unfold decode at h
  split at h
  · cases h
  · rename_i v value
    exact ⟨v, value⟩

theorem nesting_le_of_decode {b : Body fields.Row} (h : fields.decode depth x = .ok b) :
    x.nesting ≤ depth := by
  obtain ⟨v, value⟩ := exists_value?_of_decode h
  exact ((Outline.isSome_value? x depth).mp (Option.isSome_of_eq_some value)).2

theorem memberNesting_encode (row : fields.Row) : Json.memberNesting (fields.encode row) = 0 := by
  induction fields with
  | nil => rfl
  | cons field fields ih =>
    obtain ⟨name, s⟩ := field
    obtain ⟨v, row⟩ := row
    rw [encode, Json.memberNesting, ih]
    cases s <;> rfl

/-- A body nests no deeper than what it was read from, and an array as deep as the object the
typed fields are written as. -/
theorem nesting_encode_le {b : Body fields.Row} (h : fields.decode depth x = .ok b)
    (le : depth ≤ maximalDepth) : ((FieldType.body fields).encode b).nesting ≤ depth := by
  have shallow := nesting_le_of_decode h
  have reads := (decode_eq_ok shallow le).mp h
  cases b with
  | typed row =>
    have positive : 0 < depth := by
      obtain ⟨_, ⟨items, rfl, _⟩ | ⟨members, rfl, _⟩⟩ := reads
      · exact (Outline.nesting_array_le.mp shallow).1
      · exact (Outline.nesting_object_le.mp shallow).1
    rw [FieldType.encode, Json.nesting, memberNesting_encode]
    omega
  | freeform m =>
    obtain ⟨v, value⟩ := exists_value?_of_decode h
    obtain ⟨_, _, members, rfl, held⟩ := reads
    obtain ⟨all, rfl⟩ := Outline.eq_object_of_value? value
    have canonical : (Json.object all).Canonical := Outline.canonical_value? _ depth _ value
    obtain ⟨_, same, held'⟩ := Outline.exists_members_of_value? value le
    cases same
    have same : m.members = all :=
      m.canonical.1.ext canonical.1 fun k => (held k).trans (held' k).symm
    rw [FieldType.encode, same]
    exact Outline.nesting_le_of_value? _ value

end BodyFields

namespace FieldType

theorem memberNesting_gauges (entries : List (String × Double)) :
    Json.memberNesting (entries.map fun e => (e.1, .real e.2)) = 0 := by
  induction entries with
  | nil => rfl
  | cons e rest ih =>
    rw [List.map_cons, Json.memberNesting, ih, Json.real]
    split <;> rfl

theorem nesting_encode_le {t : FieldType} {depth : Nat} {x : Outline} {v : t.Value}
    (h : t.decode depth x = .ok v) (le : depth ≤ maximalDepth) : (t.encode v).nesting ≤ depth := by
  match t with
  | .scalar .text | .scalar .signed | .scalar .unsigned | .choice _ => exact Nat.zero_le _
  | .gauges =>
    have positive : depth ≠ 0 := by
      rintro rfl
      cases x <;> simp [decode] at h
    rw [encode, Json.nesting, memberNesting_gauges]
    omega
  | .body fields => exact BodyFields.nesting_encode_le h le

end FieldType

/-! ### Where the values of a record come from -/

/-- What stands in the place of a field: the last member under its name, or the item at its
index. -/
def Outline.at? (name : String) (i : Nat) : Outline → Option Outline
  | .object members => lastAt name members
  | .array items => items[i]?
  | _ => none

/-- A value is in its slot and no member is left for it, or it is read from the last one. -/
def FieldType.Stems (depth : Nat) (t : FieldType) (v : t.Value) :
    Option t.Value → Option Outline → Prop
  | some w, none => w = v
  | none, some y => t.decode depth y = .ok v
  | _, _ => False

namespace Fields

/-- Each value of a row comes from its slot or from the members left. -/
def Stems (depth : Nat) (members : List (Outline × Outline)) :
    (fields : Fields) → fields.Slots → fields.Row → Prop
  | [], _, _ => True
  | f :: fields, (slot, slots), (v, row) =>
    f.type.Stems depth v slot (lastAt f.name members) ∧ Stems depth members fields slots row

/-- Each value of a row is read from what stands in its place; `i` fields stand before these. -/
def ReadFrom (depth : Nat) (x : Outline) (i : Nat) : (fields : Fields) → fields.Row → Prop
  | [], _ => True
  | f :: fields, (v, row) =>
    (∃ y, x.at? f.name i = some y ∧ f.type.decode depth y = .ok v) ∧
      ReadFrom depth x (i + 1) fields row

variable {depth : Nat} {fields : Fields} {members : List (Outline × Outline)} {name : String}
  {x : Outline} {slots : fields.Slots} {row : fields.Row}

theorem stems_nil (h : fields.complete slots = .ok row) : fields.Stems depth [] slots row := by
  induction fields with
  | nil => trivial
  | cons f fields ih =>
    obtain ⟨slot, slots⟩ := slots
    cases slot with
    | none => cases h
    | some w =>
      unfold complete at h
      cases found : complete fields slots with
      | error e => simp [found, bind, Except.bind] at h
      | ok row' =>
        simp only [found, bind, Except.bind, Except.ok.injEq] at h
        cases h
        exact ⟨rfl, ih found⟩

theorem stems_cons_of_not_mem (other : name ∉ fields.map Field.name)
    (h : fields.Stems depth members slots row) :
    fields.Stems depth ((.text (some name), x) :: members) slots row := by
  induction fields with
  | nil => trivial
  | cons f fields ih =>
    obtain ⟨first, others⟩ := not_or.mp fun h => other (List.mem_cons.mpr h)
    have skip : lastAt f.name ((.text (some name), x) :: members) = lastAt f.name members :=
      Outline.lastAt_cons_of_ne (by simpa using first)
    constructor
    · rw [skip]
      exact h.1
    · exact ih others h.2

/-- A member is the one its field stems from if it is the last, and else the slot was vacant. -/
theorem stems_cons (distinct : (fields.map Field.name).Nodup) {filled : Option fields.Slots}
    (fill : fields.fill depth name x slots = .ok filled)
    (h : fields.Stems depth members (filled.getD slots) row) :
    fields.Stems depth ((.text (some name), x) :: members) slots row := by
  induction fields with
  | nil => trivial
  | cons f fields ih =>
    obtain ⟨slot, slots⟩ := slots
    obtain ⟨v, row⟩ := row
    obtain ⟨new, distinct⟩ := List.nodup_cons.mp distinct
    unfold Fields.fill at fill
    split at fill <;> rename_i named
    · subst named
      cases slot with
      | some w => cases fill
      | none =>
        cases read : f.type.decode depth x with
        | error e => simp [read, bind, Except.bind] at fill
        | ok w =>
          simp only [read, bind, Except.bind, Except.ok.injEq] at fill
          subst fill
          obtain ⟨here, others⟩ := h
          refine ⟨?_, stems_cons_of_not_mem new others⟩
          rw [Outline.lastAt_cons_self]
          -- the slot is filled now, so no later member has this name
          cases last : lastAt f.name members with
          | some y => simp [FieldType.Stems, last] at here
          | none =>
            rw [last] at here
            cases here
            exact read
    · have skip : lastAt f.name ((.text (some name), x) :: members) = lastAt f.name members :=
        Outline.lastAt_cons_of_ne (by simpa using Ne.symm named)
      cases later : Fields.fill depth name x fields slots with
      | error e => simp [later, bind, Except.bind] at fill
      | ok filled' =>
        simp only [later, bind, Except.bind, Except.ok.injEq] at fill
        subst fill
        constructor
        · rw [skip]
          cases filled' <;> exact h.1
        · apply ih distinct later
          cases filled' <;> exact h.2

theorem decodeMembers_stems (distinct : (fields.map Field.name).Nodup) {final : fields.Slots}
    (read : fields.decodeMembers depth slots members = .ok final)
    (whole : fields.complete final = .ok row) : fields.Stems depth members slots row := by
  induction members generalizing slots with
  | nil =>
    cases read
    exact stems_nil whole
  | cons e rest ih =>
    obtain ⟨key, x⟩ := e
    cases key with
    | text k =>
      cases k with
      | none => cases read
      | some name =>
        rw [decodeMembers] at read
        cases found : fields.fill depth name x slots with
        | error e => simp [found, bind, Except.bind] at read
        | ok filled =>
          apply stems_cons distinct found
          simp only [found, bind, Except.bind] at read
          cases filled with
          | some filled => exact ih read
          | none =>
            dsimp only at read
            split at read
            · exact ih read
            · cases read
    | _ => cases read

theorem readFrom_of_stems {i : Nat} (h : fields.Stems depth members fields.vacant row) :
    fields.ReadFrom depth (.object members) i row := by
  induction fields generalizing i with
  | nil => trivial
  | cons f fields ih =>
    obtain ⟨here, others⟩ := h
    refine ⟨?_, ih others⟩
    cases last : lastAt f.name members with
    | none => simp [FieldType.Stems, last] at here
    | some y =>
      rw [last] at here
      exact ⟨y, last, here⟩

theorem decodeItems_readFrom {record : String} {size passed : Nat} (before : List Outline)
    {items : List Outline} (read : fields.decodeItems depth record size passed items = .ok row) :
    fields.ReadFrom depth (.array (before ++ items)) before.length row := by
  induction fields generalizing before items passed with
  | nil => trivial
  | cons f fields ih =>
    cases items with
    | nil => cases read
    | cons x items =>
      unfold decodeItems at read
      cases first : f.type.decode depth x with
      | error e => simp [first, bind, Except.bind] at read
      | ok v =>
        cases others : decodeItems depth record size (passed + 1) fields items with
        | error e => simp [first, others, bind, Except.bind] at read
        | ok row' =>
          simp only [first, others, bind, Except.bind, Except.ok.injEq] at read
          cases read
          have next := ih (before ++ [x]) others
          rw [List.length_append, List.append_assoc] at next
          refine ⟨⟨x, ?_, first⟩, next⟩
          simp [Outline.at?]

/-- Whatever else a text holds, each field is read from what stands in its place. -/
theorem decode_readFrom {record : String} (distinct : (fields.map Field.name).Nodup)
    (read : fields.decode record x = .ok row) :
    fields.ReadFrom (maximalDepth - 1) x 0 row := by
  cases x with
  | object members =>
    unfold decode at read
    cases found : fields.decodeMembers (maximalDepth - 1) fields.vacant members with
    | error e => simp [found, bind, Except.bind] at read
    | ok final =>
      simp only [found, bind, Except.bind] at read
      exact readFrom_of_stems (decodeMembers_stems distinct found read)
  | array items => exact decodeItems_readFrom [] read
  | _ => cases read

theorem memberNesting_encode_le {i : Nat} (le : depth ≤ maximalDepth)
    (h : fields.ReadFrom depth x i row) : Json.memberNesting (fields.encode row) ≤ depth := by
  induction fields generalizing i with
  | nil => exact Nat.zero_le _
  | cons f fields ih =>
    obtain ⟨⟨y, _, read⟩, others⟩ := h
    exact Nat.max_le.mpr ⟨FieldType.nesting_encode_le read le, ih others⟩

end Fields

/-! ### Records -/

namespace Record

variable {α : Type} [Record α]

def ReadFrom (x : Outline) (a : α) : Prop :=
  (fields α).ReadFrom (maximalDepth - 1) x 0 (toRow a)

theorem decode_readFrom {o : Octets} {a : α} (distinct : (fields α).Distinct)
    (read : decode α o = .ok a) : ReadFrom (Outline.ofOctets o).1 a := by
  unfold decode at read
  dsimp only at read
  cases row : (fields α).decode (name α) (Outline.ofOctets o).1 with
  | error e => simp [row, bind, Except.bind] at read
  | ok r =>
    simp only [row, bind, Except.bind] at read
    split at read
    · cases read
    · cases read
      rw [ReadFrom, toRow_ofRow]
      exact Fields.decode_readFrom distinct.1 row

theorem nesting_toJson_le {x : Outline} {a : α} (h : ReadFrom x a) :
    (toJson a).nesting ≤ maximalDepth := by
  have inner := Fields.memberNesting_encode_le (Nat.sub_le _ _) h
  rw [toJson, Json.nesting]
  exact Nat.add_le_of_le_sub (by decide) inner

end Record

namespace Report

/-- Each field of a record is read from what stands in its place. -/
def ReadFrom (x : Outline) : Report → Prop
  | .alarm a => Record.ReadFrom x a
  | .callDetail c => Record.ReadFrom x c
  | .generalEvent e => Record.ReadFrom x e
  | .stationState s => Record.ReadFrom x s
  | .terminalAccess t => Record.ReadFrom x t
  | .kpi k => Record.ReadFrom x k

theorem decode_readFrom {k : Kind} {o : Octets} {r : Report} (read : decode k o = .ok r) :
    r.kind = k ∧ r.ReadFrom (Outline.ofOctets o).1 := by
  have inv {α : Type} [Record α] {f : α → Report} (h : f <$> Record.decode α o = .ok r) :
      ∃ a, Record.decode α o = .ok a ∧ f a = r := by
    cases found : Record.decode α o with
    | error => simp [found, Functor.map, Except.map] at h
    | ok a => exact ⟨a, rfl, by simpa [found, Functor.map, Except.map] using h⟩
  cases k <;> obtain ⟨a, found, rfl⟩ := inv read <;>
    exact ⟨rfl, Record.decode_readFrom (by decide) found⟩

theorem ReadFrom.shallow {x : Outline} {r : Report} (h : r.ReadFrom x) :
    r.toJson.nesting ≤ maximalDepth := by
  cases r <;> exact Record.nesting_toJson_le h

end Report

end Uplink
