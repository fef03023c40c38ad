import Uplink.Record.Basic
/-!
Accesses of terminals to the network.
-/
namespace Uplink

inductive AccessEvent where
  | register
  | deregister
  | authentication
  | connectionEstablished
  | connectionReleased
  deriving DecidableEq, Repr

namespace AccessEvent

def names : List String :=
  ["Register", "Deregister", "Authentication", "ConnectionEstablished", "ConnectionReleased"]

def index : AccessEvent → Fin names.length
  | .register => ⟨0, by decide⟩
  | .deregister => ⟨1, by decide⟩
  | .authentication => ⟨2, by decide⟩
  | .connectionEstablished => ⟨3, by decide⟩
  | .connectionReleased => ⟨4, by decide⟩

def ofIndex (i : Fin names.length) : AccessEvent :=
  match i.val with
  | 0 => .register
  | 1 => .deregister
  | 2 => .authentication
  | 3 => .connectionEstablished
  | _ => .connectionReleased

theorem ofIndex_index (e : AccessEvent) : ofIndex e.index = e := by cases e <;> rfl

theorem index_ofIndex : ∀ i, index (ofIndex i) = i := by decide

end AccessEvent

structure TerminalAccess where
  neUid : String := ""
  recordTime : Int64 := 0
  imsi : String := ""
  cellId : String := ""
  event : AccessEvent := .register
  result : String := ""
  deriving DecidableEq, Repr

namespace TerminalAccess

def fields : Fields :=
  [⟨"neUid", .scalar .text⟩, ⟨"recordTime", .scalar .signed⟩, ⟨"imsi", .scalar .text⟩,
    ⟨"cellId", .scalar .text⟩, ⟨"event", .choice AccessEvent.names⟩, ⟨"result", .scalar .text⟩]

def toRow (t : TerminalAccess) : fields.Row :=
  (t.neUid, t.recordTime, t.imsi, t.cellId, t.event.index, t.result, ())

def ofRow : fields.Row → TerminalAccess
  | (neUid, time, imsi, cell, event, result, ()) =>
    ⟨neUid, time, imsi, cell, .ofIndex event, result⟩

instance : Record TerminalAccess where
  kind := .terminalAccess
  name := "TerminalAccess"
  fields := fields
  toRow := toRow
  ofRow := ofRow
  ofRow_toRow t := by simp [toRow, ofRow, AccessEvent.ofIndex_index]
  toRow_ofRow r := by
    obtain ⟨_, _, _, _, _, _, _⟩ := r
    simp only [toRow, ofRow, AccessEvent.index_ofIndex]
    rfl
  neUid := TerminalAccess.neUid
  withNeUid uid t := { t with neUid := uid }
  stamped now t := { t with recordTime := now }
  numbered _ t := t

end TerminalAccess

end Uplink
