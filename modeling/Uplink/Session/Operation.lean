import Uplink.Session.Chance
import Uplink.Session.Course
/-!
The operations of a session and their answers.
-/
namespace Uplink

inductive Assembly where
  | context
  | contextOnSystemClock
  | parts
  | partsOnSystemClock
  | partsWithSettings
  | partsStarted
  deriving DecidableEq, Repr

namespace Assembly

/-- Whether records are stamped by the clock of the session. -/
def stamps : Assembly → Bool
  | .contextOnSystemClock | .partsOnSystemClock => false
  | _ => true

/-- The clock of the system, if it is the one that stamps records. -/
def system (a : Assembly) (c : SystemClock) : Option SystemClock :=
  if a.stamps then none else some c

/-- Whether the settings of the dispatcher are used. -/
def configures : Assembly → Bool
  | .parts | .partsOnSystemClock => false
  | _ => true

/-- Whether the workers are started at once. -/
def starts : Assembly → Bool
  | .context | .contextOnSystemClock | .partsStarted => true
  | _ => false

end Assembly

inductive Operation where
  | call (c : Call)
  | background (c : Call)
  | join (id : Nat)
  | settle
  | advance (millis : Nat)
  | startWorkers (workers capacity : Nat)
  | started
  | totals
  | history (k : Kind) (n : Int)
  | adjustHistory (k : Kind) (n : Int)
  | historySize (k : Kind)
  | setCounter (key : String) (x : Double)
  | addCounter (key : String) (x : Double)
  | increment (key : String)
  | decrement (key : String)
  | deleteCounter (key : String)
  | counter (key : String)
  | counters
  | kpiHistory (n : Int)
  | adjustKpiHistory (n : Int)
  | startFlushing (url : String)
  | stopFlushing
  | flushing
  | granularity
  | identify (i : Option Identity)
  | setClock (now : Int64)
  | advanceClock (millis : Int64)
  | posts
  | hooks
  | logs
  | generate (rounds : Nat)
  | startGenerator (period : Duration)
  | stopGenerator
  | describeDispatcher
  | describeKpi
  | describeService (k : Kind)

/-- `pending` stands for a call whose result is not there, or no longer. -/
inductive Answer where
  | none
  | pending
  | result (r : CallResult)
  | number (n : Nat)
  | time (t : Int64)
  | flag (b : Bool)
  | text (s : String)
  | totals (t : Totals)
  | records (encoded : List Octets)
  | size (count capacity : Nat)
  | value (x : Double)
  | values (d : Dictionary Double)
  | flushing (current : Bool) (failures : UInt32)
  | identity (i : Identity)
  | posts (entries : List PostEntry)
  | hooks (entries : List HookEntry)
  | logs (entries : List LogEntry)
  | crashed

namespace Session

def create (a : Assembly) (settings : Settings) (identity : Identity) (clock : Clock)
    (receiver : Receiver) (demo : AgentConfig) (chance : Chance := {}) : Session :=
  let s : Session :=
    { receiver, identity, clock
      system := a.system chance.clock
      dispatcher := .create (if a.configures then settings.dispatch else {})
      services := .create settings.historyCapacity
      kpi := .create settings.kpi
      persists := chance.flusher
      generator := { config := demo, persists := chance.generator } }
  if a.starts then
    { s with
      toPipeline := s.startWorkers settings.dispatch.workers settings.dispatch.queueCapacity }
  else s

/-- Consecutive failures of the current flusher. -/
def failures (s : Session) : UInt32 :=
  match s.current.bind fun id => s.flushers[id]? with
  | some f => f.failures
  | none => 0

/-- Changes a counter and answers its value afterwards. -/
def changeCounter (s : Session) (c : Change) : Session × Answer :=
  let p := s.count c
  ({ s with toPipeline := p }, .value (p.kpi.counters.value c.key))

def size (s : Session) (k : Kind) : Answer :=
  ((s.services.view? (fun v => Answer.size v.history.count v.history.capacity) k)).getD .none

def moveClock (s : Session) (clock : Clock) : Session × Answer :=
  ({ s with toPipeline := { s.toPipeline with clock }.note (.clockMoved clock.now) },
    .time clock.now)

/-- A call is made in the background; it begins when its task has a turn. -/
def startCaller (s : Session) (c : Call) : Session × Answer :=
  let id := s.callers.length
  ({ s with
     toPipeline := s.wake (.caller id)
     callers := s.callers ++ [Caller.fresh c] }, .number id)

/-- The result of a call made in the background, given out once. -/
def join (s : Session) (id : Nat) : Session × Answer :=
  match s.callers[id]? with
  | some (.under (.ended r)) => ({ s with callers := s.callers.set id .answered }, .result r)
  | _ => (s, .pending)

def startGenerator (s : Session) (period : Duration) : Session :=
  match s.generator.stage with
  | .idle =>
    { s with toPipeline := s.wake .generator }.setGenerator { s.generator with period } .fresh
  | _ => s

/-- A generator that waits for its next round ends at once, and any other after its round. -/
def stopGenerator (s : Session) : Session :=
  let s := s.setGenerator { s.generator with cancelled := true } s.generator.stage
  match s.generator.stage with
  | .waiting _ => { s with toPipeline := s.wake .generator }
  | _ => s

/-- Whoever awaits a flush of its own may drop it before its end. -/
def drop (s : Session) : Task → Session
  | .operator =>
    match s.operator with
    | .calling stage =>
      if stage.flushes then { s with toPipeline := s.withdraw .operator, operator := .free } else s
    | _ => s
  | .caller id =>
    match s.callers[id]? with
    | some (.under stage) =>
      if stage.flushes then
        { s with toPipeline := s.withdraw (.caller id), callers := s.callers.set id .answered }
      else s
    | _ => s
  | _ => s

def enter (s : Session) (c : Call) : Session :=
  let (p, stage) := s.begin .operator c
  { s with toPipeline := p, operator := .calling stage }

/-- The operator begins rounds of synthetic records, unless the generator runs by itself. -/
def enterRounds (s : Session) (rounds : Nat) : Session :=
  match s.generator.stage with
  | .idle => s.afterOwnRound rounds 0 (.ended 0)
  | _ => s

/-- The operator takes the result of what it waited for, if it is there. -/
def collect (s : Session) : Session × Answer :=
  match s.operator with
  | .free => (s, .none)
  | .calling (.ended r) => ({ s with operator := .free }, .result r)
  | .generated (some failures) => ({ s with operator := .free }, .number failures)
  | .generated none => ({ s with operator := .free }, .crashed)
  | _ => (s, .pending)

/-- Begins an operation.  Most are done with that. -/
def start (s : Session) : Operation → Session × Answer
  | .call c => (s.enter c, .none)
  | .background c => s.startCaller c
  | .join id => s.join id
  | .settle => (s, .none)
  | .advance _ => (s, .none)
  | .startWorkers workers capacity =>
    ({ s with toPipeline := s.startWorkers workers capacity }, .flag !s.dispatcher.isStarted)
  | .started => (s, .flag s.dispatcher.isStarted)
  | .totals => (s, .totals s.dispatcher.totals)
  | .history k n => (s, .records ((s.services.view? (·.recent n) k).getD []))
  | .adjustHistory k n =>
    let services := s.services.update (·.adjust n) k
    let s := { s with toPipeline := { s.toPipeline with services }.note (.adjusted k n) }
    (s, s.size k)
  | .historySize k => (s, s.size k)
  | .setCounter key x => s.changeCounter (.setTo key x)
  | .addCounter key x => s.changeCounter (.addOf key x)
  | .increment key => s.changeCounter (.increment key)
  | .decrement key => s.changeCounter (.decrement key)
  | .deleteCounter key => s.changeCounter (.delete key)
  | .counter key => (s, .value (s.kpi.counters.value key))
  | .counters => (s, .values (Counters.values s.kpi.counters.cells))
  | .kpiHistory n => (s, .records ((s.kpi.history.recent n).map Record.encode))
  | .adjustKpiHistory n =>
    let history := s.kpi.history.adjust n
    ({ s with kpi := { s.kpi with history } }, .number history.count)
  | .startFlushing url => (s.startFlushing url, .flag true)
  | .stopFlushing => (s.stopFlushing, .flag false)
  | .flushing => (s, .flushing s.current.isSome s.failures)
  | .granularity => (s, .text s.kpi.granularity.text)
  | .identify i =>
    let identity := i.getD s.identity
    ({ s with toPipeline := { s.toPipeline with identity }.note (.identified identity) },
      .identity identity)
  | .setClock now => s.moveClock (s.clock.set now)
  | .advanceClock millis => s.moveClock (s.clock.advance millis)
  | .posts => ({ s with journal := s.journal.showPosts }, .posts s.journal.sortedPosts)
  | .hooks => ({ s with journal := s.journal.showHooks }, .hooks s.journal.sortedHooks)
  | .logs => ({ s with journal := s.journal.showLogs }, .logs s.journal.sortedLogs)
  | .generate rounds => (s.enterRounds rounds, .none)
  | .startGenerator period => (s.startGenerator period, .none)
  | .stopGenerator => (s.stopGenerator, .none)
  | .describeDispatcher => (s, .text s.dispatcher.text)
  | .describeKpi => (s, .text (s.kpi.text s.current.isSome))
  | .describeService k => (s, .text ((s.services.view? (·.text) k).getD ""))

def conclude (s : Session) (a : Answer) : Operation → Session × Answer
  | .call _ | .generate _ => s.finish.collect
  | .settle | .startGenerator _ | .stopGenerator => (s.settle, a)
  | .advance millis => (s.advance millis, a)
  | _ => (s, a)

/-- Performs an operation.  The operator performs one at a time. -/
def perform (s : Session) (op : Operation) : Session × Answer :=
  if s.operator.isFree then
    let (s, a) := s.start op
    s.conclude a op
  else (s, .pending)

/-- Performs an operation `n` times and answers as the last time. -/
def performTimes (s : Session) (op : Operation) : Nat → Session × Answer
  | 0 => (s, .none)
  | 1 => s.perform op
  | n + 2 => (s.perform op).1.performTimes op (n + 1)

/-- The time and the answer after each operation of a run. -/
def run : Session → List (Operation × Nat) → List (Nat × Answer)
  | _, [] => []
  | s, (op, n) :: rest =>
    let (s, a) := s.performTimes op n
    (s.now, a) :: run s rest

end Session

end Uplink
