import Uplink.Record.Basic
/-!
Call detail records.
-/
namespace Uplink

structure CallFields where
  recordType : String := ""
  callingNumber : String := ""
  calledNumber : String := ""
  seizureTime : Int64 := 0
  releaseTime : Int64 := 0
  durationSecs : UInt64 := 0
  cause : String := ""
  deriving DecidableEq, Repr

namespace CallFields

def fields : BodyFields :=
  [("recordType", .text), ("callingNumber", .text), ("calledNumber", .text),
    ("seizureTime", .signed), ("releaseTime", .signed), ("durationSecs", .unsigned),
    ("cause", .text)]

def toRow (c : CallFields) : fields.Row :=
  (c.recordType, c.callingNumber, c.calledNumber, c.seizureTime, c.releaseTime, c.durationSecs,
    c.cause, ())

def ofRow : fields.Row → CallFields
  | (type, calling, called, seizure, release, duration, cause, ()) =>
    ⟨type, calling, called, seizure, release, duration, cause⟩

end CallFields

/-- A call, with typed details or whatever the switch reports. -/
structure CallDetail where
  neUid : String := ""
  recordTime : Int64 := 0
  cdr : Body CallFields

namespace CallDetail

def fields : Fields :=
  [⟨"neUid", .scalar .text⟩, ⟨"recordTime", .scalar .signed⟩, ⟨"cdr", .body CallFields.fields⟩]

def toRow (c : CallDetail) : fields.Row := (c.neUid, c.recordTime, c.cdr.map CallFields.toRow, ())

def ofRow : fields.Row → CallDetail
  | (neUid, time, body, ()) => ⟨neUid, time, Body.map CallFields.ofRow body⟩

instance : Record CallDetail where
  kind := .callDetail
  name := "Cdr"
  fields := fields
  toRow := toRow
  ofRow := ofRow
  ofRow_toRow c := by
    obtain ⟨_, _, body⟩ := c
    cases body <;> rfl
  toRow_ofRow r := by
    obtain ⟨_, _, body, _⟩ := r
    cases body <;> rfl
  neUid := CallDetail.neUid
  withNeUid uid c := { c with neUid := uid }
  stamped now c := { c with recordTime := now }
  numbered _ c := c

end CallDetail

end Uplink
