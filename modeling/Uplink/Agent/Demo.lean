import Uplink.Record.Report
/-!
Synthetic records, for trying out a receiver without a network element: one of each kind a round.
-/
namespace Uplink

namespace Demo

/-- The number with zeros in front, at least `width` digits. -/
def padded (n width : Nat) : String :=
  let digits := Nat.toDigits 10 n
  String.ofList (List.replicate (width - digits.length) '0' ++ digits)

/-- How warnings name a kind. -/
def title : Kind → String
  | .alarm => "alarm"
  | .callDetail => "CDR"
  | .generalEvent => "common"
  | .stationState => "base station"
  | .terminalAccess => "terminal access"
  | .kpi => "KPI"

def alarm (round : Nat) : Alarm :=
  .raise (toString (10000 + round)) (Int64.ofNat (10000 + round % 100)) "Demo alarm"
    (if round % 10 = 0 then .critical else .minor)

def callDetail (round : Nat) : CallDetail :=
  { cdr :=
      .typed {
        recordType := "MOC"
        callingNumber := "1380000" ++ padded round 4
        calledNumber := "13900000000"
        durationSecs := UInt64.ofNat (round % 300)
        cause := "normal" } }

def generalEvent (round : Nat) : GeneralEvent :=
  { eventType := "heartbeat"
    data := .typed { event := "demo", level := "info", detail := "round " ++ toString round } }

def stationState (round : Nat) : StationState :=
  { address := "192.168.1." ++ toString (round % 254 + 1)
    deviceName := "gNB-demo"
    state := if round % 2 = 0 then .online else .offline }

def terminalAccess (round : Nat) : TerminalAccess :=
  { imsi := "4600000" ++ padded round 8
    cellId := "0x0001"
    event := .register
    result := "success" }

/-- The records of a round, in the order they are pushed. -/
def records (round : UInt64) : List Report :=
  let n := round.toNat
  [.alarm (alarm n), .callDetail (callDetail n), .generalEvent (generalEvent n),
    .stationState (stationState n), .terminalAccess (terminalAccess n)]

end Demo

end Uplink
