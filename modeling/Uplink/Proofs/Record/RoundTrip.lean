import Uplink.Proofs.Record.Rows
import Uplink.Record.Report
/-!
Records across the wire.  What is decoded from an encoded record is that record, except that a
free body which resembles the typed fields of its kind comes back as these.
-/
namespace Uplink

namespace Record

variable {α : Type} [Record α]

def doubles (a : α) : List Double := (fields α).doubles (toRow a)

theorem decode_encode (a : α) (distinct : (fields α).Distinct)
    (faithful : ∀ x ∈ doubles a, x.Faithful)
    (shallow : (toJson a).nesting ≤ Outline.maximalDepth) :
    decode α (encode a) = .ok (ofRow ((fields α).reread (toRow a))) := by
  have outline : Outline.ofOctets (encode a) = (Outline.ofJson (toJson a), false) :=
    Outline.ofOctets_write _ fun x hx => faithful x (Fields.doubles_encode (toRow a) hx)
  have finite : ∀ x ∈ (fields α).doubles (toRow a), x.isFinite := fun x hx =>
    (faithful x hx).1
  have row := Fields.decode_encode (name α) distinct finite shallow
  rw [decode, outline]
  simp only [toJson, row]
  rfl

/-- A record whose row is read back as it is comes back whole. -/
theorem decode_encode_self (a : α) (distinct : (fields α).Distinct)
    (same : (fields α).reread (toRow a) = toRow a) (faithful : ∀ x ∈ doubles a, x.Faithful)
    (shallow : (toJson a).nesting ≤ Outline.maximalDepth) : decode α (encode a) = .ok a := by
  rw [decode_encode a distinct faithful shallow, same, ofRow_toRow]

end Record

namespace Report

def toJson : Report → Json
  | .alarm a => Record.toJson a
  | .callDetail c => Record.toJson c
  | .generalEvent e => Record.toJson e
  | .stationState s => Record.toJson s
  | .terminalAccess t => Record.toJson t
  | .kpi k => Record.toJson k

/-- The doubles a record holds, in its gauges or anywhere inside a free body. -/
def doubles : Report → List Double
  | .alarm a => Record.doubles a
  | .callDetail c => Record.doubles c
  | .generalEvent e => Record.doubles e
  | .stationState s => Record.doubles s
  | .terminalAccess t => Record.doubles t
  | .kpi k => Record.doubles k

/-- Whether the body is a free map that could as well be the typed fields of its kind. -/
def Ambiguous : Report → Prop
  | .callDetail ⟨_, _, .freeform m⟩ => m.Resembles CallFields.fields
  | .generalEvent ⟨_, _, _, .freeform m⟩ => m.Resembles EventFields.fields
  | _ => False

/-- The typed fields in place of a free map that has all their members, and perhaps others that
are lost. -/
inductive Captured : Report → Report → Prop
  | callDetail (neUid : String) (time : Int64) {m : Freeform} {call : CallFields}
      (held : CallFields.fields.encode call.toRow ⊆ m.members) :
      Captured (.callDetail ⟨neUid, time, .freeform m⟩) (.callDetail ⟨neUid, time, .typed call⟩)
  | generalEvent (neUid : String) (time : Int64) (type : String) {m : Freeform}
      {event : EventFields} (held : EventFields.fields.encode event.toRow ⊆ m.members) :
      Captured (.generalEvent ⟨neUid, time, type, .freeform m⟩)
        (.generalEvent ⟨neUid, time, type, .typed event⟩)

theorem Captured.ambiguous {r s : Report} (h : r.Captured s) : r.Ambiguous := by
  cases h with
  | callDetail _ _ held => exact BodyFields.exists_encode_subset.mp ⟨_, held⟩
  | generalEvent _ _ _ held => exact BodyFields.exists_encode_subset.mp ⟨_, held⟩

theorem Captured.ne {r s : Report} (h : r.Captured s) : s ≠ r := by
  cases h <;> nofun

/-- Every record comes back as it is or captured. -/
theorem decode_encode_cases (r : Report) (faithful : ∀ x ∈ r.doubles, x.Faithful)
    (shallow : r.toJson.nesting ≤ Outline.maximalDepth) :
    decode r.kind r.encode = .ok r ∧ ¬r.Ambiguous ∨
      ∃ s, r.Captured s ∧ decode r.kind r.encode = .ok s := by
  cases r with
  | alarm a =>
    have read := Record.decode_encode_self a (by decide) rfl faithful shallow
    exact .inl ⟨congrArg (Report.alarm <$> ·) read, id⟩
  | callDetail c =>
    obtain ⟨neUid, time, body⟩ := c
    cases body with
    | typed call =>
      have read := Record.decode_encode_self _ (by decide) rfl faithful shallow
      exact .inl ⟨congrArg (Report.callDetail <$> ·) read, id⟩
    | freeform m =>
      have read :
          Record.decode CallDetail (Record.encode (⟨neUid, time, .freeform m⟩ : CallDetail)) =
          .ok ⟨neUid, time, (Body.reread CallFields.fields (.freeform m)).map CallFields.ofRow⟩ :=
        Record.decode_encode _ (by decide) faithful shallow
      rcases Body.reread_freeform CallFields.fields m with ⟨same, apart⟩ | ⟨row, typed, held⟩
      · rw [same] at read
        exact .inl ⟨congrArg (Report.callDetail <$> ·) read, apart⟩
      · rw [typed] at read
        have captured : Captured (.callDetail ⟨neUid, time, .freeform m⟩)
            (.callDetail ⟨neUid, time, .typed (CallFields.ofRow row)⟩) :=
          .callDetail neUid time held
        exact .inr ⟨_, captured, congrArg (Report.callDetail <$> ·) read⟩
  | generalEvent e =>
    obtain ⟨neUid, time, type, body⟩ := e
    cases body with
    | typed event =>
      have read := Record.decode_encode_self _ (by decide) rfl faithful shallow
      exact .inl ⟨congrArg (Report.generalEvent <$> ·) read, id⟩
    | freeform m =>
      have read : Record.decode GeneralEvent
          (Record.encode (⟨neUid, time, type, .freeform m⟩ : GeneralEvent)) =
            .ok ⟨neUid, time, type,
            (Body.reread EventFields.fields (.freeform m)).map EventFields.ofRow⟩ :=
        Record.decode_encode _ (by decide) faithful shallow
      rcases Body.reread_freeform EventFields.fields m with ⟨same, apart⟩ | ⟨row, typed, held⟩
      · rw [same] at read
        exact .inl ⟨congrArg (Report.generalEvent <$> ·) read, apart⟩
      · rw [typed] at read
        have captured : Captured (.generalEvent ⟨neUid, time, type, .freeform m⟩)
            (.generalEvent ⟨neUid, time, type, .typed (EventFields.ofRow row)⟩) :=
          .generalEvent neUid time type held
        exact .inr ⟨_, captured, congrArg (Report.generalEvent <$> ·) read⟩
  | stationState s =>
    have read := Record.decode_encode_self s (by decide) rfl faithful shallow
    exact .inl ⟨congrArg (Report.stationState <$> ·) read, id⟩
  | terminalAccess t =>
    have read := Record.decode_encode_self t (by decide) rfl faithful shallow
    exact .inl ⟨congrArg (Report.terminalAccess <$> ·) read, id⟩
  | kpi k =>
    have read := Record.decode_encode_self k (by decide) rfl faithful shallow
    exact .inl ⟨congrArg (Report.kpi <$> ·) read, id⟩

/-- Records of doubles that read back, nested no deeper than a reader follows, come back as they
are unless they are ambiguous, and an ambiguous one comes back captured. -/
theorem decode_encode_unless_ambiguous (r : Report) (faithful : ∀ x ∈ r.doubles, x.Faithful)
    (shallow : r.toJson.nesting ≤ 127) :
    (decode r.kind r.encode = .ok r ↔ ¬r.Ambiguous) ∧
      (r.Ambiguous → ∃ s, r.Captured s ∧ decode r.kind r.encode = .ok s) := by
  rcases decode_encode_cases r faithful shallow with ⟨read, apart⟩ | ⟨s, captured, read⟩
  · exact ⟨iff_of_true read apart, fun ambiguous => absurd ambiguous apart⟩
  · have changed : decode r.kind r.encode ≠ .ok r := by
      rw [read]
      exact fun same => captured.ne (Except.ok.inj same)
    exact ⟨iff_of_false changed fun apart => apart captured.ambiguous, fun _ => ⟨s, captured, read⟩⟩

/-- A free map with texts under the three names comes back as these, and its ratios are lost. -/
theorem decode_encode_ambiguousDoor :
    let door : Freeform :=
      ⟨[("detail", .text "hall"), ("event", .text "open"), ("level", .text "minor"),
        ("ratios", .array [.number (.real ⟨0x3ff8000000000000⟩ (by decide))])],
        by decide, by simp [Json.MembersCanonical, Json.Canonical, Json.AllCanonical]⟩
    let r : Report := .generalEvent ⟨"NE", 1, "door", .freeform door⟩
    (∀ x ∈ r.doubles, x.Faithful) ∧ r.toJson.nesting ≤ 127 ∧ r.Ambiguous ∧
      decode r.kind r.encode ≠ .ok r ∧ ∃ s, r.Captured s ∧ decode r.kind r.encode = .ok s := by
  intro door r
  have faithful : ∀ x ∈ r.doubles, x.Faithful := by decide +kernel
  have shallow : r.toJson.nesting ≤ 127 := by decide +kernel
  have ambiguous : r.Ambiguous := by
    simp [r, door, Ambiguous, Freeform.Resembles, EventFields.fields, Scalar.Fits]
  obtain ⟨same, captured⟩ := decode_encode_unless_ambiguous r faithful shallow
  exact ⟨faithful, shallow, ambiguous, fun h => same.mp h ambiguous, captured ambiguous⟩

end Report

end Uplink
