import Uplink.Record.Report
import Uplink.Ring.Basic
/-!
Push services, one for each kind of record.  A service completes a record and keeps it in its
history before the record is submitted, so the history does not depend on the delivery.
-/
namespace Uplink

/-- A history and the number of the last record. -/
structure Service (α : Type) where
  history : Ring α
  sequence : UInt64 := 0

namespace Service

variable {α : Type} [Record α]

def create (capacity : Nat) : Service α := { history := .create capacity }

/-- The record as it is submitted: at the time of the push, with the next number, and with the
identity of the network element unless it names one itself. -/
def complete (s : Service α) (now : Int64) (neUid : String) (a : α) : α :=
  let a := Record.numbered (s.sequence + 1) (Record.stamped now a)
  if (Record.neUid a).isEmpty then Record.withNeUid neUid a else a

def record (s : Service α) (a : α) : Service α :=
  { history := s.history.push a, sequence := s.sequence + 1 }

/-- The encoded records that a request for `n` of them gives. -/
def recent (s : Service α) (n : Int) : List Octets := (s.history.recent n).map Record.encode

def adjust (s : Service α) (n : Int) : Service α := { s with history := s.history.adjust n }

def qualifier : Kind → String
  | .alarm => "alarm"
  | .callDetail => "cdr"
  | .generalEvent => "common"
  | .stationState => "base_station"
  | .terminalAccess => "terminal_access"
  | .kpi => "kpi"

def text (s : Service α) : String :=
  "PushService \x7b record: \"ne_telemetry::records::" ++ qualifier (Record.kind α) ++ "::"
    ++ Record.name α ++ "\", sequence: " ++ toString s.sequence ++ ", .. \x7d"

end Service

structure Services where
  alarm : Service Alarm
  callDetail : Service CallDetail
  generalEvent : Service GeneralEvent
  stationState : Service StationState
  terminalAccess : Service TerminalAccess

namespace Services

def create (capacity : Nat) : Services :=
  ⟨.create capacity, .create capacity, .create capacity, .create capacity, .create capacity⟩

/-- Reads the service of a kind.  KPI reports have none. -/
def view? {β : Type} (v : Services) (f : {α : Type} → [Record α] → Service α → β) :
    Kind → Option β
  | .alarm => some (f v.alarm)
  | .callDetail => some (f v.callDetail)
  | .generalEvent => some (f v.generalEvent)
  | .stationState => some (f v.stationState)
  | .terminalAccess => some (f v.terminalAccess)
  | .kpi => none

def update (v : Services) (f : {α : Type} → [Record α] → Service α → Service α) :
    Kind → Services
  | .alarm => { v with alarm := f v.alarm }
  | .callDetail => { v with callDetail := f v.callDetail }
  | .generalEvent => { v with generalEvent := f v.generalEvent }
  | .stationState => { v with stationState := f v.stationState }
  | .terminalAccess => { v with terminalAccess := f v.terminalAccess }
  | .kpi => v

/-- A record goes through the service of its kind.  A KPI report has none and stays as it is. -/
def push (v : Services) (now : Int64) (neUid : String) : Report → Services × Report
  | .alarm a =>
    let a := v.alarm.complete now neUid a
    ({ v with alarm := v.alarm.record a }, .alarm a)
  | .callDetail a =>
    let a := v.callDetail.complete now neUid a
    ({ v with callDetail := v.callDetail.record a }, .callDetail a)
  | .generalEvent a =>
    let a := v.generalEvent.complete now neUid a
    ({ v with generalEvent := v.generalEvent.record a }, .generalEvent a)
  | .stationState a =>
    let a := v.stationState.complete now neUid a
    ({ v with stationState := v.stationState.record a }, .stationState a)
  | .terminalAccess a =>
    let a := v.terminalAccess.complete now neUid a
    ({ v with terminalAccess := v.terminalAccess.record a }, .terminalAccess a)
  | .kpi k => (v, .kpi k)

end Services

end Uplink
