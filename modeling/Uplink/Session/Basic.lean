import Uplink.Agent.Config
import Uplink.Session.Pipeline
/-!
A session: the pipeline and the tasks that work on it, with how far each of them has come.
-/
namespace Uplink

inductive Caller where
  | fresh (c : Call)
  | under (s : Stage)
  | answered

/-- A flusher sleeps until a time, waits for its turn to flush, or waits for its POST. -/
inductive FlusherStage where
  | fresh
  | asleep (due : Nat)
  | queueing (url : String)
  | flushing (q : Posting)
  | ended

/-- What a flusher does: it begins to run, wakes for an attempt, and ends the attempt. -/
inductive Pulse where
  | begins
  | wakes
  | ends (o : FlushOutcome)
  deriving DecidableEq, Repr

/-- A periodic flush with the number of its last flushes that failed in a row, and with what it did
so far and when, the last first. -/
structure Flusher where
  url : String
  failures : UInt32 := 0
  cancelled : Bool := false
  stage : FlusherStage := .fresh
  log : List (Nat × Pulse) := []

namespace Flusher

def note (f : Flusher) (now : Nat) (p : Pulse) : Flusher := { f with log := (now, p) :: f.log }

end Flusher

/-- A round of synthetic records under way: the push that waits, its kind, the records after it,
and the failures before it. -/
structure Round where
  stage : Stage
  kind : Kind
  rest : List Report
  failures : Nat

inductive GeneratorStage where
  | idle
  | fresh
  | waiting (due : Nat)
  | pushing (round : Round) (next : Nat)
  | ended

/-- What the operator waits for: a call of its own, or a round of synthetic records with so many
more to come and so many failures in those before it. -/
inductive Operator where
  | free
  | calling (s : Stage)
  | generating (r : Round) (left failures : Nat)
  | generated (failures : Option Nat)

namespace Operator

def isFree : Operator → Bool
  | .free => true
  | _ => false

def isWaiting : Operator → Bool
  | .calling (.ended _) => false
  | .calling _ => true
  | .generating _ _ _ => true
  | _ => false

end Operator

/-- The source of synthetic records: the rounds begun, and its own run if there is one. -/
structure Generator where
  config : AgentConfig
  persists : UInt64 → Bool := fun _ => false
  rounds : UInt64 := 0
  period : Duration := .zero
  cancelled : Bool := false
  stage : GeneratorStage := .idle

/-- Whether a round that is due is run. -/
def Generator.goesOn (g : Generator) : Bool := !g.cancelled || g.persists g.rounds

/-- Flushing is started with a new flusher, or stopped, whether or not it was started before. -/
inductive Steering where
  | started (id : Nat)
  | stopped

/-- `steering` holds what was done about flushing so far, the last first, and `persists` says which
flushers go on with what has come when they are told to stop. -/
structure Session extends Pipeline where
  operator : Operator := .free
  flushers : List Flusher := []
  persists : Nat → Bool := fun _ => false
  current : Option Nat := none
  steering : List Steering := []
  callers : List Caller := []
  generator : Generator

end Uplink
