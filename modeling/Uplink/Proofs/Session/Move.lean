import Uplink.Session.Operation
/-!
Moves of a session: all that can happen next, in whatever order.  The operations of a session are
runs of moves, so what holds after every run of moves holds at every point of every session.
-/
namespace Uplink

namespace Session

/-- The operator begins an operation or takes a result, a task that can go on has its turn, or time
moves on.  Besides, a flush may be dropped by the task that awaits it, and the aggregator by the
operator, whatever it is doing: with that flushing is stopped. -/
inductive Move where
  | start (op : Operation)
  | collect
  | turn (t : Task)
  | elapse (now : Nat)
  | drop (t : Task)
  | discard

def Move.task? : Move → Option Task
  | .start _ | .discard => some .operator
  | .turn t | .drop t => some t
  | .collect | .elapse _ => none

/-- Nothing comes of a move that is not possible. -/
def move (s : Session) : Move → Session
  | .start op => if s.operator.isFree then (s.start op).1 else s
  | .collect => s.collect.1
  | .turn t => if t ∈ s.ready then { s with ready := s.ready.erase t }.turn t else s
  | .elapse now => s.moveTo now
  | .drop t => s.drop t
  | .discard => s.stopFlushing

/-- What a move comes to: nothing if it is not possible, and else the operation begins, the operator
takes the result, the task has its turn, time moves on, the flush of the operator or of a caller is
given up, or flushing is stopped. -/
inductive Moves (s : Session) : Move → Session → Prop
  | stays (m : Move) : Moves s m s
  | start (op : Operation) (free : s.operator.isFree) : Moves s (.start op) (s.start op).1
  | collect : Moves s .collect s.collect.1
  | turn (t : Task) (ready : t ∈ s.ready) :
    Moves s (.turn t) (({ s with ready := s.ready.erase t } : Session).turn t)
  | elapse (now : Nat) : Moves s (.elapse now) (s.moveTo now)
  | dropOwn {stage : Stage} (calling : s.operator = .calling stage) (flushes : stage.flushes) :
    Moves s (.drop .operator) { s with toPipeline := s.withdraw .operator, operator := .free }
  | drop {id : Nat} {stage : Stage} (calling : s.callers[id]? = some (.under stage))
    (flushes : stage.flushes) :
    Moves s (.drop (.caller id))
      { s with toPipeline := s.withdraw (.caller id), callers := s.callers.set id .answered }
  | discard : Moves s .discard s.stopFlushing

theorem moves_move (s : Session) (m : Move) : s.Moves m (s.move m) := by
  cases m with
  | start op =>
    simp only [move]
    split
    next free => exact .start op free
    next => exact .stays _
  | collect => exact .collect
  | turn t =>
    simp only [move]
    split
    next ready => exact .turn t ready
    next => exact .stays _
  | elapse now => exact .elapse now
  | drop t =>
    simp only [move]
    unfold Session.drop
    split
    next =>
      split
      next calling =>
        split
        next flushes => exact .dropOwn calling flushes
        next => exact .stays _
      next => exact .stays _
    next =>
      split
      next calling =>
        split
        next flushes => exact .drop calling flushes
        next => exact .stays _
      next => exact .stays _
    next => exact .stays _
  | discard => exact .discard

def follow (s : Session) (moves : List Move) : Session := moves.foldl move s

def ComesTo (s s' : Session) : Prop := ∃ moves, s.follow moves = s'

/-- A state of some session, whatever it is made with and in whatever order things happen. -/
def Reachable (s : Session) : Prop :=
  ∃ a settings identity clock receiver demo chance,
    (create a settings identity clock receiver demo chance).ComesTo s

theorem ComesTo.refl (s : Session) : s.ComesTo s := ⟨[], rfl⟩

theorem ComesTo.trans {s s' s'' : Session} (h : s.ComesTo s') (h' : s'.ComesTo s'') :
    s.ComesTo s'' := by
  obtain ⟨moves, rfl⟩ := h
  obtain ⟨moves', rfl⟩ := h'
  exact ⟨moves ++ moves', List.foldl_append⟩

theorem comesTo_move (s : Session) (m : Move) : s.ComesTo (s.move m) := ⟨[m], rfl⟩

theorem Reachable.comesTo {s s' : Session} (h : s.Reachable) (h' : s.ComesTo s') :
    s'.Reachable := by
  obtain ⟨a, settings, identity, clock, receiver, demo, chance, hs⟩ := h
  exact ⟨a, settings, identity, clock, receiver, demo, chance, hs.trans h'⟩

theorem reachable_create (a : Assembly) (settings : Settings) (identity : Identity) (clock : Clock)
    (receiver : Receiver) (demo : AgentConfig) (chance : Chance) :
    (create a settings identity clock receiver demo chance).Reachable :=
  ⟨a, settings, identity, clock, receiver, demo, chance, .refl _⟩

/-- What every move keeps, every run of moves keeps. -/
theorem ComesTo.preserves {P : Session → Prop} (hP : ∀ s m, P s → P (s.move m)) {s s' : Session}
    (h : s.ComesTo s') (hs : P s) : P s' := by
  obtain ⟨moves, rfl⟩ := h
  induction moves generalizing s with
  | nil => exact hs
  | cons m moves ih => exact ih (hP s m hs)

/-- What new sessions have, and moves keep at any point of any session, holds at all of them.  What
is known to hold at all of them already can be used for the move. -/
theorem Reachable.by_moves {P : Session → Prop} {s : Session} (h : s.Reachable)
    (first : ∀ a settings identity clock receiver demo chance,
      P (create a settings identity clock receiver demo chance))
    (move : ∀ s m, s.Reachable → P s → P (s.move m)) : P s := by
  obtain ⟨a, settings, identity, clock, receiver, demo, chance, hs⟩ := h
  refine (hs.preserves (P := fun s => s.Reachable ∧ P s) (fun s m hs => ?_)
    ⟨reachable_create a settings identity clock receiver demo chance, first _ _ _ _ _ _ _⟩).2
  exact ⟨hs.1.comesTo (comesTo_move s m), move s m hs.1 hs.2⟩

/-! ### Operations are runs of moves -/

theorem comesTo_turns (n : Nat) (s : Session) : s.ComesTo (s.turns n) := by
  induction n generalizing s with
  | zero => exact .refl s
  | succ n ih =>
    unfold turns
    split
    next => exact .refl s
    next t ready hr =>
      have hm : s.move (.turn t) = { s with ready }.turn t := by simp [move, hr]
      exact (comesTo_move s (.turn t)).trans (hm ▸ ih _)

theorem comesTo_settle (s : Session) : s.ComesTo s.settle := comesTo_turns _ s

theorem comesTo_moveTo (s : Session) (now : Nat) : s.ComesTo (s.moveTo now) :=
  comesTo_move s (.elapse now)

theorem comesTo_stops (n target : Nat) (s : Session) : s.ComesTo (s.stops n target) := by
  induction n generalizing s with
  | zero => exact .refl s
  | succ n ih =>
    unfold stops
    split
    next => exact .refl s
    next due _ =>
      split
      · exact ((comesTo_moveTo s due).trans (comesTo_settle _)).trans (ih _)
      · exact .refl s

theorem comesTo_advance (s : Session) (millis : Nat) : s.ComesTo (s.advance millis) :=
  (((comesTo_settle s).trans (comesTo_stops _ _ _)).trans (comesTo_moveTo _ _)).trans
    (comesTo_settle _)

theorem comesTo_await (n : Nat) (s : Session) : s.ComesTo (s.await n) := by
  induction n generalizing s with
  | zero => exact .refl s
  | succ n ih =>
    have hs := comesTo_settle s
    unfold await
    dsimp only
    split
    · split
      next => exact hs
      next due _ => exact (hs.trans (comesTo_moveTo _ due)).trans (ih _)
    · exact hs

theorem comesTo_finish (s : Session) : s.ComesTo s.finish := by
  unfold finish
  split
  · exact comesTo_await _ s
  · exact .refl s

theorem comesTo_conclude (s : Session) (a : Answer) (op : Operation) :
    s.ComesTo (s.conclude a op).1 := by
  have hcollect : s.ComesTo s.finish.collect.1 :=
    (comesTo_finish s).trans (comesTo_move _ .collect)
  unfold conclude
  split
  · exact hcollect
  · exact hcollect
  · exact comesTo_settle s
  · exact comesTo_settle s
  · exact comesTo_settle s
  · dsimp only
    exact comesTo_advance s _
  · exact .refl s

/-- Every operation is a run of moves. -/
theorem comesTo_perform (s : Session) (op : Operation) : s.ComesTo (s.perform op).1 := by
  unfold perform
  split
  next free =>
    have hstart : s.move (.start op) = (s.start op).1 := if_pos free
    exact (hstart ▸ comesTo_move s (.start op)).trans (comesTo_conclude _ _ op)
  next => exact .refl s

end Session

end Uplink
