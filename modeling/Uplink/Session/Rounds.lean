import Uplink.Agent.Demo
import Uplink.Session.Basic
import Uplink.Session.Progress
/-!
Rounds of synthetic records: one push after the other, and an account of them in the counters.
-/
namespace Uplink

namespace Pipeline

/-- Takes account of a push of a round; `none` if it crashed. -/
def notePush (p : Pipeline) (kind : Kind) (r : CallResult) (failures : Nat) :
    Pipeline × Option Nat :=
  match r with
  | .crashed => (p, none)
  | .pushed (.error e) =>
    (p.warn ("Demo " ++ Demo.title kind ++ " push failed: " ++ e.message), some (failures + 1))
  | _ => (p, some failures)

/-- Counts a round whose pushes are done. -/
def countRound (p : Pipeline) (failures : Nat) : Pipeline :=
  let p := (p.count (.increment "DEMO.Rounds")).count (.addOf "DEMO.Records" (.ofNat 5))
  if failures = 0 then p else p.count (.addOf "DEMO.PushFailures" (.ofNat failures))

/-- Where a round stands: over with a number of failures, crashed, or waiting. -/
inductive RoundStage where
  | ended (failures : Nat)
  | crashed
  | under (r : Round)

def pushRecords (p : Pipeline) (t : Task) (c : AgentConfig) :
    List Report → Nat → Pipeline × RoundStage
  | [], failures => (p.countRound failures, .ended failures)
  | r :: rest, failures =>
    let (p, stage) := p.begin t (.push (c.endpoint r.kind.path) (.ok r) c.pushTimeout)
    match stage with
    | .ended result =>
      match p.notePush r.kind result failures with
      | (p, some failures) => p.pushRecords t c rest failures
      | (p, none) => (p, .crashed)
    | stage => (p, .under ⟨stage, r.kind, rest, failures⟩)

def proceedRound (p : Pipeline) (t : Task) (c : AgentConfig) (r : Round) : Pipeline × RoundStage :=
  let (p, stage) := p.proceed t r.stage
  match stage with
  | .ended result =>
    match p.notePush r.kind result r.failures with
    | (p, some failures) => p.pushRecords t c r.rest failures
    | (p, none) => (p, .crashed)
  | stage => (p, .under { r with stage })

def beginRound (p : Pipeline) (t : Task) (g : Generator) : Pipeline × Generator × RoundStage :=
  let g := { g with rounds := g.rounds + 1 }
  let (p, r) := p.pushRecords t g.config (Demo.records g.rounds) 0
  (p, g, r)

end Pipeline

end Uplink
