import Uplink.Session.Rounds
import Uplink.Time.Backoff
/-!
Turns of the tasks: what each does, when it can go on, until it has to wait again.
-/
namespace Uplink

namespace Session

/-! ### Calls in the background -/

def callerTurn (s : Session) (id : Nat) : Session :=
  let keep (r : Pipeline × Stage) : Session :=
    { s with toPipeline := r.1, callers := s.callers.set id (.under r.2) }
  match s.callers[id]? with
  | some (.fresh c) => keep (s.begin (.caller id) c)
  | some (.under stage) => keep (s.proceed (.caller id) stage)
  | _ => s

/-! ### Periodic flushes -/

def setFlusher (s : Session) (id : Nat) (f : Flusher) : Session :=
  { s with flushers := s.flushers.set id f }

/-- A flusher waits for its next flush, unless the wait would be no duration. -/
def sleep (s : Session) (id : Nat) (f : Flusher) : Session :=
  match backoff? s.kpi.granularity f.failures with
  | none => s.setFlusher id { f with stage := .ended }
  | some d =>
    let due := s.now + d.millis
    { s with toPipeline := s.setTimer due (.flusher id) }.setFlusher id
      { f with stage := .asleep due }

/-- A flusher goes on after its flush, or waits for it. -/
def afterFlush (s : Session) (id : Nat) (f : Flusher) (r : Pipeline × Stage) : Session :=
  let s := { s with toPipeline := r.1 }
  match r.2 with
  | .ended (.flushed o) =>
    let failures := if o = .failed then f.failures + 1 else 0
    s.sleep id { f.note s.now (.ends o) with failures }
  | .queueing url => s.setFlusher id { f with stage := .queueing url }
  | .flushing q => s.setFlusher id { f with stage := .flushing q }
  | _ => s.setFlusher id { f with stage := .ended }

/-- A flusher goes on if what it waits for has come. -/
def pursue (s : Session) (id : Nat) (f : Flusher) : Session :=
  let task := Task.flusher id
  match f.stage with
  | .fresh => s.sleep id (f.note s.now .begins)
  | .asleep due =>
    if due ≤ s.now then s.afterFlush id (f.note s.now .wakes) (s.flush task f.url) else s
  | .queueing url => s.afterFlush id f (s.proceed task (.queueing url))
  | .flushing q => s.afterFlush id f (s.proceed task (.flushing q))
  | .ended => s

def quitFlusher (s : Session) (id : Nat) : Session :=
  { s with
    toPipeline := s.withdraw (.flusher id)
    flushers := s.flushers.modify id fun f => { f with stage := .ended } }

/-- The turn of a flusher.  It is the last one of a flusher that was cancelled, which may go on in
it before it ends, but no further than to where it has to wait again. -/
def flusherTurn (s : Session) (id : Nat) : Session :=
  match s.flushers[id]? with
  | none => s
  | some f =>
    if f.cancelled then (if s.persists id then s.pursue id f else s).quitFlusher id
    else s.pursue id f

/-- Cancels the current flusher, wherever it waits. -/
def cancelFlusher (s : Session) : Session :=
  match s.current with
  | none => s
  | some id =>
    { s with
      toPipeline := s.wake (.flusher id)
      flushers := s.flushers.modify id fun f => { f with cancelled := true }
      current := none }

def stopFlushing (s : Session) : Session :=
  let s := s.cancelFlusher
  { s with steering := .stopped :: s.steering }

/-- A new flusher takes the place of the current one. -/
def startFlushing (s : Session) (url : String) : Session :=
  let s := s.cancelFlusher
  let id := s.flushers.length
  { s with
    toPipeline := s.wake (.flusher id)
    flushers := s.flushers ++ [({ url } : Flusher)]
    current := some id
    steering := .started id :: s.steering }

/-! ### Synthetic records -/

def setGenerator (s : Session) (g : Generator) (stage : GeneratorStage) : Session :=
  { s with generator := { g with stage } }

/-- A generator waits for its next round, unless it is late for it already or has to stop. -/
def awaitRound (s : Session) (g : Generator) (due : Nat) : Session :=
  if due ≤ s.now then
    { s with toPipeline := s.resumeFirst .generator }.setGenerator g (.waiting due)
  else if g.cancelled then s.setGenerator g .ended
  else { s with toPipeline := s.setTimer due .generator }.setGenerator g (.waiting due)

/-- A generator goes on after a round, or after the part of it that did not wait. -/
def afterRound (s : Session) (g : Generator) (next : Nat) : Pipeline.RoundStage → Session
  | .ended _ => s.awaitRound g next
  | .crashed => s.setGenerator g .ended
  | .under r => s.setGenerator g (.pushing r next)

/-- The time of the round after one that was due: a period later, or, for a round that began more
than five milliseconds late, a period after its beginning. -/
def nextRound (now due period : Nat) : Nat := if now ≤ due + 5 then due + period else now + period

/-- The turn of a generator that is due. -/
def runRound (s : Session) (g : Generator) (due : Nat) : Session :=
  let (p, g, r) := s.beginRound .generator g
  { s with toPipeline := p }.afterRound g (nextRound s.now due g.period.millis) r

def generatorTurn (s : Session) : Session :=
  let g := s.generator
  match g.stage with
  | .fresh =>
    if !g.goesOn || g.period.nanos = 0 then s.setGenerator g .ended else s.runRound g s.now
  | .waiting due =>
    if due ≤ s.now && g.goesOn then s.runRound g due
    else if g.cancelled then
      { s with toPipeline := s.dropTimers .generator }.setGenerator g .ended
    else s
  | .pushing round next =>
    let (p, r) := s.proceedRound .generator g.config round
    { s with toPipeline := p }.afterRound g next r
  | .idle | .ended => s

/-! ### The operator -/

/-- The operator goes on after a round of its own, with so many more to come. -/
def afterOwnRound (s : Session) (left failures : Nat) (r : Pipeline.RoundStage) : Session :=
  match r with
  | .crashed => { s with operator := .generated none }
  | .under r => { s with operator := .generating r left failures }
  | .ended more =>
    match left with
    | 0 => { s with operator := .generated (some (failures + more)) }
    | left + 1 =>
      let (p, generator, r) := s.beginRound .operator s.generator
      { s with toPipeline := p, generator }.afterOwnRound left (failures + more) r
termination_by structural left

def operatorTurn (s : Session) : Session :=
  match s.operator with
  | .calling stage =>
    let (p, stage) := s.proceed .operator stage
    { s with toPipeline := p, operator := .calling stage }
  | .generating r left failures =>
    let (p, r) := s.proceedRound .operator s.generator.config r
    { s with toPipeline := p }.afterOwnRound left failures r
  | _ => s

/-! ### All tasks -/

def turn (s : Session) : Task → Session
  | .operator => s.operatorTurn
  | .caller id => s.callerTurn id
  | .worker w => { s with toPipeline := s.workerTurn w }
  | .flusher id => s.flusherTurn id
  | .generator => s.generatorTurn

end Session

end Uplink
