import Uplink.Record.Alarm
import Uplink.Record.CallDetail
import Uplink.Record.GeneralEvent
import Uplink.Record.KpiReport
import Uplink.Record.StationState
import Uplink.Record.TerminalAccess
/-!
A record of any kind.
-/
namespace Uplink

inductive Report where
  | alarm (a : Alarm)
  | callDetail (c : CallDetail)
  | generalEvent (e : GeneralEvent)
  | stationState (s : StationState)
  | terminalAccess (t : TerminalAccess)
  | kpi (k : KpiReport)

namespace Report

def kind : Report → Kind
  | .alarm _ => .alarm
  | .callDetail _ => .callDetail
  | .generalEvent _ => .generalEvent
  | .stationState _ => .stationState
  | .terminalAccess _ => .terminalAccess
  | .kpi _ => .kpi

def update (f : {α : Type} → [Record α] → α → α) : Report → Report
  | .alarm a => .alarm (f a)
  | .callDetail c => .callDetail (f c)
  | .generalEvent e => .generalEvent (f e)
  | .stationState s => .stationState (f s)
  | .terminalAccess t => .terminalAccess (f t)
  | .kpi k => .kpi (f k)

def stamped (now : Int64) (r : Report) : Report := r.update (Record.stamped now)

def numbered (n : UInt64) (r : Report) : Report := r.update (Record.numbered n)

def withNeUid (uid : String) (r : Report) : Report := r.update (Record.withNeUid uid)

def neUid : Report → String
  | .alarm a => a.neUid
  | .callDetail c => c.neUid
  | .generalEvent e => e.neUid
  | .stationState s => s.neUid
  | .terminalAccess t => t.neUid
  | .kpi k => k.neUid

def encode : Report → Octets
  | .alarm a => Record.encode a
  | .callDetail c => Record.encode c
  | .generalEvent e => Record.encode e
  | .stationState s => Record.encode s
  | .terminalAccess t => Record.encode t
  | .kpi k => Record.encode k

def decode (kind : Kind) (o : Octets) : Except DecodeError Report :=
  match kind with
  | .alarm => .alarm <$> Record.decode Alarm o
  | .callDetail => .callDetail <$> Record.decode CallDetail o
  | .generalEvent => .generalEvent <$> Record.decode GeneralEvent o
  | .stationState => .stationState <$> Record.decode StationState o
  | .terminalAccess => .terminalAccess <$> Record.decode TerminalAccess o
  | .kpi => .kpi <$> Record.decode KpiReport o

/-- Whether the body is a free map, for records that have one. -/
def isMap? : Report → Option Bool
  | .callDetail c => some c.cdr.isMap
  | .generalEvent e => some e.data.isMap
  | _ => none

end Report

end Uplink
