import Uplink.Record.Basic
/-!
Events of any type.
-/
namespace Uplink

structure EventFields where
  event : String := ""
  level : String := ""
  detail : String := ""
  deriving DecidableEq, Repr

namespace EventFields

def fields : BodyFields := [("event", .text), ("level", .text), ("detail", .text)]

def toRow (e : EventFields) : fields.Row := (e.event, e.level, e.detail, ())

def ofRow : fields.Row → EventFields
  | (event, level, detail, ()) => ⟨event, level, detail⟩

end EventFields

/-- An event, with typed data or whatever its source reports. -/
structure GeneralEvent where
  neUid : String := ""
  recordTime : Int64 := 0
  eventType : String
  data : Body EventFields

namespace GeneralEvent

def fields : Fields :=
  [⟨"neUid", .scalar .text⟩, ⟨"recordTime", .scalar .signed⟩, ⟨"eventType", .scalar .text⟩,
    ⟨"data", .body EventFields.fields⟩]

def toRow (e : GeneralEvent) : fields.Row :=
  (e.neUid, e.recordTime, e.eventType, e.data.map EventFields.toRow, ())

def ofRow : fields.Row → GeneralEvent
  | (neUid, time, type, body, ()) => ⟨neUid, time, type, Body.map EventFields.ofRow body⟩

instance : Record GeneralEvent where
  kind := .generalEvent
  name := "CommonRecord"
  fields := fields
  toRow := toRow
  ofRow := ofRow
  ofRow_toRow e := by
    obtain ⟨_, _, _, body⟩ := e
    cases body <;> rfl
  toRow_ofRow r := by
    obtain ⟨_, _, _, body, _⟩ := r
    cases body <;> rfl
  neUid := GeneralEvent.neUid
  withNeUid uid e := { e with neUid := uid }
  stamped now e := { e with recordTime := now }
  numbered _ e := e

end GeneralEvent

end Uplink
