import Uplink.Record.Basic
/-!
Alarms.
-/
namespace Uplink

inductive Severity where
  | critical
  | major
  | minor
  | warning
  | event
  deriving DecidableEq, Repr

namespace Severity

def names : List String := ["Critical", "Major", "Minor", "Warning", "Event"]

def index : Severity → Fin names.length
  | .critical => ⟨0, by decide⟩
  | .major => ⟨1, by decide⟩
  | .minor => ⟨2, by decide⟩
  | .warning => ⟨3, by decide⟩
  | .event => ⟨4, by decide⟩

def ofIndex (i : Fin names.length) : Severity :=
  match i.val with
  | 0 => .critical
  | 1 => .major
  | 2 => .minor
  | 3 => .warning
  | _ => .event

theorem ofIndex_index (s : Severity) : ofIndex s.index = s := by cases s <;> rfl

theorem index_ofIndex : ∀ i, index (ofIndex i) = i := by decide

end Severity

inductive AlarmStatus where
  | clear
  | active
  deriving DecidableEq, Repr

namespace AlarmStatus

def names : List String := ["Clear", "Active"]

def index : AlarmStatus → Fin names.length
  | .clear => ⟨0, by decide⟩
  | .active => ⟨1, by decide⟩

def ofIndex (i : Fin names.length) : AlarmStatus :=
  match i.val with
  | 0 => .clear
  | _ => .active

theorem ofIndex_index (s : AlarmStatus) : ofIndex s.index = s := by cases s <;> rfl

theorem index_ofIndex : ∀ i, index (ofIndex i) = i := by decide

end AlarmStatus

inductive AlarmType where
  | communication
  | equipment
  | processing
  | environmental
  | qualityOfService
  deriving DecidableEq, Repr

namespace AlarmType

def names : List String :=
  ["CommunicationAlarm", "EquipmentAlarm", "ProcessingFailure", "EnvironmentalAlarm",
    "QualityOfServiceAlarm"]

def index : AlarmType → Fin names.length
  | .communication => ⟨0, by decide⟩
  | .equipment => ⟨1, by decide⟩
  | .processing => ⟨2, by decide⟩
  | .environmental => ⟨3, by decide⟩
  | .qualityOfService => ⟨4, by decide⟩

def ofIndex (i : Fin names.length) : AlarmType :=
  match i.val with
  | 0 => .communication
  | 1 => .equipment
  | 2 => .processing
  | 3 => .environmental
  | _ => .qualityOfService

theorem ofIndex_index (s : AlarmType) : ofIndex s.index = s := by cases s <;> rfl

theorem index_ofIndex : ∀ i, index (ofIndex i) = i := by decide

end AlarmType

structure Alarm where
  neUid : String := ""
  alarmSeq : UInt64 := 0
  alarmId : String := ""
  alarmCode : Int64 := 0
  alarmTitle : String := ""
  alarmType : AlarmType := .communication
  severity : Severity := .warning
  alarmStatus : AlarmStatus := .active
  specificProblem : String := ""
  specificProblemId : String := ""
  addInfo : String := ""
  locationInfo : String := ""
  alarmTime : Int64 := 0
  deriving DecidableEq, Repr

namespace Alarm

def fields : Fields :=
  [⟨"neUid", .scalar .text⟩, ⟨"alarmSeq", .scalar .unsigned⟩, ⟨"alarmId", .scalar .text⟩,
    ⟨"alarmCode", .scalar .signed⟩, ⟨"alarmTitle", .scalar .text⟩,
    ⟨"alarmType", .choice AlarmType.names⟩, ⟨"severity", .choice Severity.names⟩,
    ⟨"alarmStatus", .choice AlarmStatus.names⟩, ⟨"specificProblem", .scalar .text⟩,
    ⟨"specificProblemId", .scalar .text⟩, ⟨"addInfo", .scalar .text⟩,
    ⟨"locationInfo", .scalar .text⟩, ⟨"alarmTime", .scalar .signed⟩]

def toRow (a : Alarm) : fields.Row :=
  (a.neUid, a.alarmSeq, a.alarmId, a.alarmCode, a.alarmTitle, a.alarmType.index, a.severity.index,
    a.alarmStatus.index, a.specificProblem, a.specificProblemId, a.addInfo, a.locationInfo,
    a.alarmTime, ())

def ofRow : fields.Row → Alarm
  | (neUid, seq, id, code, title, type, severity, status, problem, problemId, info, location, time,
      ()) =>
    ⟨neUid, seq, id, code, title, .ofIndex type, .ofIndex severity, .ofIndex status, problem,
      problemId, info, location, time⟩

instance : Record Alarm where
  kind := .alarm
  name := "Alarm"
  fields := fields
  toRow := toRow
  ofRow := ofRow
  ofRow_toRow a := by
    simp [toRow, ofRow, AlarmType.ofIndex_index, Severity.ofIndex_index, AlarmStatus.ofIndex_index]
  toRow_ofRow r := by
    obtain ⟨_, _, _, _, _, _, _, _, _, _, _, _, _, _⟩ := r
    simp only [toRow, ofRow, AlarmType.index_ofIndex, Severity.index_ofIndex,
      AlarmStatus.index_ofIndex]
    rfl
  neUid := Alarm.neUid
  withNeUid uid a := { a with neUid := uid }
  stamped now a := { a with alarmTime := now }
  numbered n a := { a with alarmSeq := n }

/-- A fresh alarm: active, with nothing known but what is given. -/
def raise (id : String) (code : Int64) (title : String) (severity : Severity) : Alarm :=
  { alarmId := id, alarmCode := code, alarmTitle := title, severity := severity }

/-- The notice that an alarm is over. -/
def cleared (a : Alarm) : Alarm := { a with alarmStatus := .clear, severity := .event }

end Alarm

end Uplink
