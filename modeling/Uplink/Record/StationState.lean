import Uplink.Record.Basic
/-!
States of base stations.
-/
namespace Uplink

inductive StationStatus where
  | online
  | offline
  deriving DecidableEq, Repr

namespace StationStatus

def names : List String := ["Online", "Offline"]

def index : StationStatus → Fin names.length
  | .online => ⟨0, by decide⟩
  | .offline => ⟨1, by decide⟩

def ofIndex (i : Fin names.length) : StationStatus :=
  match i.val with
  | 0 => .online
  | _ => .offline

theorem ofIndex_index (s : StationStatus) : ofIndex s.index = s := by cases s <;> rfl

theorem index_ofIndex : ∀ i, index (ofIndex i) = i := by decide

end StationStatus

structure StationState where
  neUid : String := ""
  recordTime : Int64 := 0
  address : String := ""
  deviceName : String := ""
  ratType : String := ""
  state : StationStatus := .offline
  deriving DecidableEq, Repr

namespace StationState

def fields : Fields :=
  [⟨"neUid", .scalar .text⟩, ⟨"recordTime", .scalar .signed⟩, ⟨"address", .scalar .text⟩,
    ⟨"deviceName", .scalar .text⟩, ⟨"ratType", .scalar .text⟩,
    ⟨"state", .choice StationStatus.names⟩]

def toRow (s : StationState) : fields.Row :=
  (s.neUid, s.recordTime, s.address, s.deviceName, s.ratType, s.state.index, ())

def ofRow : fields.Row → StationState
  | (neUid, time, address, device, rat, state, ()) =>
    ⟨neUid, time, address, device, rat, .ofIndex state⟩

instance : Record StationState where
  kind := .stationState
  name := "BaseStationState"
  fields := fields
  toRow := toRow
  ofRow := ofRow
  ofRow_toRow s := by simp [toRow, ofRow, StationStatus.ofIndex_index]
  toRow_ofRow r := by
    obtain ⟨_, _, _, _, _, _, _⟩ := r
    simp only [toRow, ofRow, StationStatus.index_ofIndex]
    rfl
  neUid := StationState.neUid
  withNeUid uid s := { s with neUid := uid }
  stamped now s := { s with recordTime := now }
  numbered _ s := s

end StationState

end Uplink
