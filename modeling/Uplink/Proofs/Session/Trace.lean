import Uplink.Proofs.Session.Noted
/-!
The trace of a session: what can be seen of its moves.  What a move notes and what it tells is read
off the session before and after.
-/
namespace Uplink

/-- An operation begins, a task drops its flush, something is noted in the journal, or the call of a
task comes to a result. -/
inductive Occurrence where
  | asked (op : Operation)
  | dropped (t : Task)
  | noted (e : Event)
  | told (t : Task) (r : CallResult)

namespace Stage

def result? : Stage → Option CallResult
  | .ended r => some r
  | _ => none

end Stage

def Operator.results : Operator → List CallResult
  | .calling stage => stage.result?.toList
  | _ => []

/-- The result of a call in the background, until it is given out. -/
def Caller.results : Caller → List CallResult
  | .under stage => stage.result?.toList
  | _ => []

def Flusher.results (f : Flusher) : List CallResult :=
  f.log.filterMap fun (_, p) =>
    match p with
    | .ends o => some (.flushed o)
    | _ => none

namespace Session

def results (s : Session) : Task → List CallResult
  | .operator => s.operator.results
  | .caller id => (s.callers[id]?.map Caller.results).getD []
  | .flusher id => (s.flushers[id]?.map Flusher.results).getD []
  | .worker _ | .generator => []

/-- What a move asks: an operation begins if the operator is free for it.  To discard the aggregator
is to stop flushing. -/
def asked (s : Session) : Move → List Operation
  | .start op => if s.operator.isFree then [op] else []
  | .discard => [.stopFlushing]
  | _ => []

def dropped (s : Session) : Move → List Task
  | .drop .operator => if (s.hand .operator).flushes then [.operator] else []
  | .drop (.caller id) => if (s.hand (.caller id)).flushes then [.caller id] else []
  | _ => []

def noted (s : Session) (m : Move) : List Event :=
  Journal.fresh (s.move m).journal.events s.journal.events.length

/-- What a move adds to the results of its task. -/
def told (s : Session) (m : Move) : List (Task × CallResult) :=
  match m.task? with
  | some t => (Journal.fresh ((s.move m).results t) (s.results t).length).map (t, ·)
  | none => []

def occurrences (s : Session) (m : Move) : List Occurrence :=
  (s.asked m).map .asked ++ (s.dropped m).map .dropped ++ (s.noted m).map .noted
    ++ (s.told m).map fun (t, r) => .told t r

/-- What is seen of a move, apart from whose flush it drops. -/
theorem filterMap_occurrences {β : Type} {f : Occurrence → Option β}
    (hf : ∀ t, f (.dropped t) = none) (s : Session) (m : Move) :
    (s.occurrences m).filterMap f
      = (s.asked m).filterMap (fun op => f (.asked op))
        ++ (s.noted m).filterMap (fun e => f (.noted e))
        ++ (s.told m).filterMap fun (t, r) => f (.told t r) := by
  have hdropped : ((s.dropped m).map Occurrence.dropped).filterMap f = [] := by
    rw [List.filterMap_map]
    exact List.filterMap_eq_nil_iff.mpr fun t _ => hf t
  unfold occurrences
  rw [List.filterMap_append, List.filterMap_append, List.filterMap_append, hdropped,
    List.append_nil, List.filterMap_map, List.filterMap_map, List.filterMap_map]
  rfl

/-- All that is seen of a run of moves, in its order. -/
def trace : Session → List Move → List Occurrence
  | _, [] => []
  | s, m :: moves => s.occurrences m ++ trace (s.move m) moves

end Session

namespace Journal

variable {α : Type}

theorem fresh_append (new old : List α) : fresh (new ++ old) old.length = new.reverse := by
  simp [fresh]

theorem fresh_self (l : List α) : fresh l l.length = [] := fresh_append [] l

theorem fresh_zero (l : List α) : fresh l 0 = l.reverse := by
  simp [fresh]

end Journal

namespace Session

/-- A move adds to the journal what it notes. -/
theorem events_move (s : Session) (m : Move) :
    (s.move m).journal.events = (s.noted m).reverse ++ s.journal.events := by
  obtain ⟨es, hes⟩ : ∃ es, (s.move m).journal.events = es ++ s.journal.events := by
    rcases move_steps s m with ⟨_, t, ready, -, hsteps⟩ | ⟨hj, -, -⟩
    · obtain ⟨es, hes, -⟩ := hsteps.notes
      exact ⟨es, hes⟩
    · exact ⟨[], by rw [hj]; rfl⟩
  unfold noted
  rw [hes, Journal.fresh_append, List.reverse_reverse]

/-- What a move notes is read off the journal after it. -/
theorem noted_eq {s : Session} {m : Move} {es : List Event}
    (hes : (s.move m).journal.events = es ++ s.journal.events) : s.noted m = es.reverse := by
  unfold noted
  rw [hes, Journal.fresh_append]

theorem noted_eq_nil {s : Session} {m : Move}
    (hes : (s.move m).journal.events = s.journal.events) : s.noted m = [] := by
  unfold noted
  rw [hes, Journal.fresh_self]

end Session

end Uplink
