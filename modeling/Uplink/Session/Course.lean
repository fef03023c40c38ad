import Uplink.Session.Turn
/-!
The course of a session: turns of the tasks that can go on, and the passage of time from one due
timer to the next.
-/
namespace Uplink

namespace Session

/-- How many rounds from one that is due can begin before time moves. -/
def roundsFrom (s : Session) (due : Nat) : Nat :=
  if due + 5 < s.now then 1 else s.now + 1 - due

/-- How many rounds the generator can still begin or end before time moves. -/
def roundsDue (s : Session) : Nat :=
  match s.generator.stage with
  | .fresh => 1
  | .waiting due => s.roundsFrom due
  | .pushing _ next => s.roundsFrom next + 1
  | _ => 0

/-- What a turn of a task weighs: more than whatever the turn can leave to be done. -/
def weight (s : Session) : Task → Nat
  | .operator =>
    match s.operator with
    | .generating _ left _ => 16 * (left + 1)
    | _ => 8
  | .worker _ => 1
  | .caller _ | .flusher _ => 8
  | .generator => 16 * (s.roundsDue + 1)

/-- A bound on the number of turns before time moves: each of them leaves less work than it
finds. -/
def work (s : Session) : Nat :=
  s.ready.foldl (fun n t => n + s.weight t) 0 + 7 * s.line.length
    + 2 * s.dispatcher.queued.length

/-- The turns of at most `n` tasks. -/
def turns : Nat → Session → Session
  | 0, s => s
  | n + 1, s =>
    match s.ready with
    | [] => s
    | t :: ready => turns n ({ s with ready }.turn t)

/-- All tasks go on until each has to wait. -/
def settle (s : Session) : Session := s.turns s.work

def earliest : List (Nat × Task) → Option Nat
  | [] => none
  | (due, _) :: rest => some ((earliest rest).elim due (min due))

/-- The time of the next timer. -/
def nextDue? (s : Session) : Option Nat := earliest s.timers

/-- Time moves on to `now`, and the tasks whose timers are due can go on. -/
def moveTo (s : Session) (now : Nat) : Session := { s with toPipeline := s.toPipeline.moveTo now }

/-- Stops at most `n` times on the way to a time, each time something is due. -/
def stops : Nat → Nat → Session → Session
  | 0, _, s => s
  | n + 1, target, s =>
    match s.nextDue? with
    | none => s
    | some due => if due ≤ target then stops n target (s.moveTo due).settle else s

/-- Time moves on, and everything due on the way and at the end is done. -/
def advance (s : Session) (millis : Nat) : Session :=
  let target := s.now + millis
  ((s.settle.stops (millis + 1) target).moveTo target).settle

/-- Time moves, through at most `n` stops, until the operator has what it waits for and everything
due by then is done. -/
def await : Nat → Session → Session
  | 0, s => s
  | n + 1, s =>
    let s := s.settle
    if s.operator.isWaiting then
      match s.nextDue? with
      | none => s
      | some due => await n (s.moveTo due)
    else s

/-- The time until the last timer. -/
def horizon (s : Session) : Nat :=
  s.timers.foldl (fun latest timer => max latest timer.1) s.now - s.now

/-- How many stops of time the operator may have to wait for: a call for its own POST, or for the
flushes ahead of its own and then for its own; rounds of synthetic records for five POSTs each. -/
def patience (s : Session) : Nat :=
  match s.operator with
  | .calling _ => s.horizon + (s.line.length + 1) * s.kpi.flushTimeout.millis + 1
  | .generating _ left _ =>
    5 * (left + 1) * (s.generator.config.pushTimeout.orDefault Default.pushTimeout).millis + 1
  | _ => 0

/-- The operator waits until it has what it waits for, if it waits. -/
def finish (s : Session) : Session := if s.operator.isWaiting then s.await s.patience else s

end Session

end Uplink
