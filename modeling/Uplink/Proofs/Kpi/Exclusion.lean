import Uplink.Proofs.Kpi.Apart
import Uplink.Proofs.Kpi.Suspended
/-!
Flushes exclude each other, and a flusher that was stopped or replaced comes to nothing.  It has one
more turn, before time moves, and gives up its place in line with it.  If it was suspended when it
was stopped, it does nothing else; only one whose time had come may still do in its last turn what
it was about to do.
-/
namespace Uplink

namespace Session

open Pipeline

variable {s s' : Session} {id : Nat}

/-! ### Flushers that are over -/

theorem Over.not_mem_line (ho : s.Over id) (lined : s.toPipeline.Lined s.hand) :
    .flusher id ∉ s.line := by
  obtain ⟨f, hf, -, ended⟩ := ho
  exact lined.not_mem_line (by simp [hand, hf, ended, FlusherStage.hand])

/-- The moves of other tasks say nothing of a flusher. -/
theorem move_notes (m : Move) (hm : m.task? ≠ some (.flusher id)) :
    ∃ es, (s.move m).journal.events = es ++ s.journal.events
      ∧ ∀ e ∈ es, e.task? ≠ some (.flusher id) := by
  rcases move_steps s m with ⟨_, t, ready, ht, hsteps⟩ | ⟨hj, -, -⟩
  · obtain ⟨es, hes, hown⟩ := hsteps.notes
    refine ⟨es, hes, fun e he htask => ?_⟩
    rcases hown e he with hnone | hsome
    · simp [hnone] at htask
    · exact hm (ht.trans (hsome.symm.trans htask))
  · exact ⟨[], by rw [hj]; rfl, by simp⟩

/-- What a flusher notes that was cancelled while it was suspended: that it gives up its turn. -/
theorem Stilled.move_notes (hs : s.Stilled id) (m : Move) :
    ∃ es, (s.move m).journal.events = es ++ s.journal.events
      ∧ ∀ e ∈ es, e.task? = some (.flusher id) →
        s.line.head? = some (.flusher id) ∧ e = .withdrawn (.flusher id) := by
  by_cases hm : m.task? = some (.flusher id)
  · cases m with
    | turn t =>
      obtain rfl := Option.some_inj.mp hm
      obtain ⟨⟨es, hes, hown⟩, -⟩ := hs.turn
      exact ⟨es, hes, fun e he _ => hown e he⟩
    | drop t =>
      obtain rfl := Option.some_inj.mp hm
      exact ⟨[], rfl, by simp⟩
    | _ => simp [Move.task?] at hm
  · obtain ⟨es, hes, hown⟩ := Session.move_notes (s := s) m hm
    exact ⟨es, hes, fun e he htask => absurd htask (hown e he)⟩

/-- A flusher that is over notes nothing any more. -/
theorem Over.silent (h : s.Reachable) (ho : s.Over id) (hs : s.ComesTo s') :
    s'.Over id ∧ ∃ es, s'.journal.events = es ++ s.journal.events
      ∧ ∀ e ∈ es, e.task? ≠ some (.flusher id) := by
  refine (hs.preserves (P := fun s' => s'.Reachable ∧ s'.Over id ∧ ∃ es,
    s'.journal.events = es ++ s.journal.events ∧ ∀ e ∈ es, e.task? ≠ some (.flusher id))
    (fun s₁ m hs₁ => ?_) ⟨h, ho, [], rfl, by simp⟩).2
  obtain ⟨h₁, ho₁, es, hes, hown⟩ := hs₁
  obtain ⟨es', hes', hown'⟩ := ho₁.stilled.move_notes m
  refine ⟨h₁.comesTo (comesTo_move s₁ m), ho₁.move m, es' ++ es, ?_, fun e he htask => ?_⟩
  · rw [hes', hes, List.append_assoc]
  · rcases List.mem_append.mp he with he | he
    · exact ho₁.not_mem_line h₁.lined (List.mem_of_mem_head? (hown' e he htask).1)
    · exact hown e he htask

/-- Meanwhile a flusher has done nothing but give up its turn to flush, and its next turn would
leave the counters and the history as they are. -/
structure Silent (id : Nat) (s s' : Session) : Prop where
  notes : ∃ es, s'.journal.events = es ++ s.journal.events
    ∧ ∀ e ∈ es, e.task? = some (.flusher id) → e = .withdrawn (.flusher id)
  counters : (s'.move (.turn (.flusher id))).kpi.counters = s'.kpi.counters
  history : (s'.move (.turn (.flusher id))).kpi.history = s'.kpi.history

theorem Stilled.silent (h : s.Reachable) (hs : s.Stilled id) (hr : s.RunsOn s') :
    Silent id s s' := by
  have hrun := hr.preserves (P := fun s' => s'.Reachable ∧ s'.Stilled id ∧ ∃ es,
    s'.journal.events = es ++ s.journal.events
      ∧ ∀ e ∈ es, e.task? = some (.flusher id) → e = .withdrawn (.flusher id))
    (fun s₁ m hm hdrop hs₁ => ?_) ⟨h, hs, [], rfl, by simp⟩
  · obtain ⟨-, hs', hnotes⟩ := hrun
    obtain ⟨-, hcounters, hhistory⟩ := hs'.turn
    exact ⟨hnotes, hcounters, hhistory⟩
  · obtain ⟨h₁, hs₁, es, hes, hown⟩ := hs₁
    obtain ⟨es', hes', hown'⟩ := hs₁.move_notes m
    refine ⟨h₁.comesTo (comesTo_move s₁ m), hs₁.move h₁.tended hm hdrop, es' ++ es, ?_,
      fun e he htask => ?_⟩
    · rw [hes', hes, List.append_assoc]
    · exact (List.mem_append.mp he).elim (fun he => (hown' e he htask).2) fun he => hown e he htask

/-! ### Flushers that are stopped -/

/-- A cancelled flusher has one more turn at most. -/
theorem Cancelled.lastTurn (h : s.Reachable) (hc : s.Cancelled id) :
    s.Over id ∨ (.flusher id ∈ s.ready ∧ (s.move (.turn (.flusher id))).Over id) := by
  have ⟨f, hf, cancelled⟩ := hc
  exact (h.tended.leaving id f hf cancelled).imp (fun ended => ⟨f, hf, cancelled, ended⟩)
    fun ready => ⟨ready, hc.isOver ready⟩

/-- A cancelled flusher that is in line can go on, and is not in line after its turn. -/
theorem Cancelled.released (h : s.Reachable) (hc : s.Cancelled id) (hmem : .flusher id ∈ s.line) :
    .flusher id ∈ s.ready ∧ .flusher id ∉ (s.move (.turn (.flusher id))).line := by
  obtain ⟨ready, hover⟩ := (hc.lastTurn h).resolve_left fun ho => ho.not_mem_line h.lined hmem
  exact ⟨ready, hover.not_mem_line (move_keeps invariant_lined _ h.lined)⟩

/-- Only the operator stops flushers, by an operation or when it drops the aggregator. -/
theorem cancelled_move {m : Move} (hstart : ∀ op, m ≠ .start op) (hdiscard : m ≠ .discard)
    {f' : Flusher} (hf' : (s.move m).flushers[id]? = some f') :
    ∃ f, s.flushers[id]? = some f ∧ f'.cancelled = f.cancelled := by
  have hkeep {s' : Session} (h : s'.flushing = s.flushing) (hf' : s'.flushers[id]? = some f') :
      ∃ f, s.flushers[id]? = some f ∧ f'.cancelled = f.cancelled :=
    ⟨f', (getElem?_of_flushing h).symm.trans hf', rfl⟩
  have hm := s.moves_move m
  generalize s.move m = s' at hm hf' ⊢
  cases hm with
  | stays => exact ⟨f', hf', rfl⟩
  | start op => exact absurd rfl (hstart op)
  | collect => exact hkeep (flushing_collect s) hf'
  | turn t _ =>
    rcases turn_flushing { s with ready := s.ready.erase t } t with
      ⟨heq, -⟩ | ⟨i, f, f₁, -, hf, heq, hcancelled, -⟩
    · exact hkeep heq hf'
    · have hset : (Session.turn { s with ready := s.ready.erase t } t).flushers
          = s.flushers.set i f₁ := congrArg Prod.fst heq
      rw [hset] at hf'
      by_cases hi : i = id
      · subst hi
        rw [List.getElem?_set_self (List.getElem?_eq_some_iff.mp hf).1] at hf'
        exact ⟨f, hf, (Option.some_inj.mp hf') ▸ hcancelled⟩
      · rw [List.getElem?_set_ne hi] at hf'
        exact ⟨f', hf', rfl⟩
  | elapse now => exact ⟨f', hf', rfl⟩
  | dropOwn => exact ⟨f', hf', rfl⟩
  | drop => exact ⟨f', hf', rfl⟩
  | discard => exact absurd rfl hdiscard

/-- The current flusher is suspended when it is stopped, if it was before. -/
theorem Calm.stilled (h : s.Reachable) (hs : s.Calm) (hid : s.current = some id) {m : Move}
    (hc : (s.move m).Cancelled id) : (s.move m).Stilled id := by
  obtain ⟨f', hf', hcancelled⟩ := hc
  have hlt := h.tended.exist id hid
  obtain ⟨f, hf⟩ : ∃ f, s.flushers[id]? = some f := ⟨_, List.getElem?_eq_getElem hlt⟩
  have hactive : f.cancelled = false := (h.tended.active id f hf).mpr hid
  have hstops : (∃ op, m = .start op) ∨ m = .discard := by
    by_contra hother
    simp only [not_or, not_exists] at hother
    obtain ⟨f₀, hf₀, heq⟩ := cancelled_move hother.1 hother.2 hf'
    obtain rfl := Option.some_inj.mp (hf.symm.trans hf₀)
    rw [hcancelled, hactive] at heq
    cases heq
  obtain ⟨f₁, hf₁, left⟩ := flusher_move hf m
  obtain rfl := Option.some_inj.mp (hf₁.symm.trans hf')
  refine ⟨f₁, hf₁, hcancelled, ?_⟩
  rcases hstops with ⟨op, rfl⟩ | rfl
  · exact left.stage (by simp [Move.task?]) ▸ (hs id f hid hf).move (by simp) (by simp)
  · exact left.stage (by simp [Move.task?]) ▸ (hs id f hid hf).move (by simp) (by simp)

/-! ### All of it -/

/-- A flusher whose time has come is stopped, and may go on or not. -/
def stoppedWhenDue (goesOn : Bool) : Session :=
  (create .parts { kpi := { granularity := .ofMillis 10 } } {} {} [] {}
    { flusher := fun _ => goesOn }).follow
    [.start (.increment "calls"), .start (.startFlushing "kpi"), .turn (.flusher 0), .elapse 10,
      .start .stopFlushing, .turn (.flusher 0)]

example : (stoppedWhenDue true).journal.posts.length = 1
    ∧ (stoppedWhenDue false).journal.posts.length = 0 := by decide +kernel

end Session

end Uplink
