import Uplink.Record.Field
/-!
Records of a network element: what every kind of record has in common.
-/
namespace Uplink

inductive Kind where
  | alarm
  | callDetail
  | generalEvent
  | stationState
  | terminalAccess
  | kpi
  deriving DecidableEq, Repr

namespace Kind

def all : List Kind := [.alarm, .callDetail, .generalEvent, .stationState, .terminalAccess, .kpi]

/-- The name of a kind in endpoints. -/
def path : Kind → String
  | .alarm => "alarm"
  | .callDetail => "cdr"
  | .generalEvent => "common"
  | .stationState => "nb-state"
  | .terminalAccess => "ue-access"
  | .kpi => "kpi"

def ofPath? (path : String) : Option Kind := all.find? fun k => k.path = path

/-- The name of a kind in listings. -/
def title : Kind → String
  | .alarm => "Alarm"
  | .callDetail => "Cdr"
  | .generalEvent => "Common"
  | .stationState => "BaseStationState"
  | .terminalAccess => "TerminalAccess"
  | .kpi => "Kpi"

end Kind

/-- A type of records: its fields on the wire, and the parts every record has. -/
class Record (α : Type) where
  kind : Kind
  name : String
  fields : Fields
  toRow : α → fields.Row
  ofRow : fields.Row → α
  ofRow_toRow : ∀ a, ofRow (toRow a) = a
  toRow_ofRow : ∀ r, toRow (ofRow r) = r
  neUid : α → String
  withNeUid : String → α → α
  /-- The record at a time in epoch milliseconds. -/
  stamped : Int64 → α → α
  /-- The record with its place in the sequence of its service, if it carries one. -/
  numbered : UInt64 → α → α

namespace Record

variable {α : Type} [Record α]

def toJson (a : α) : Json := .object ((fields α).encode (toRow a))

def encode (a : α) : Octets := (toJson a).write

def decode (α : Type) [Record α] (o : Octets) : Except DecodeError α := do
  let (x, trailing) := Outline.ofOctets o
  let row ← (fields α).decode (name α) x
  if trailing then .error .malformed else .ok (ofRow row)

end Record

end Uplink
