import Uplink.Proofs.Session.Invariant
/-!
Invariants that rely on what workers are: they hold nothing in hand, before a step and after it.
What every step keeps under this condition, and the passage of time, holds at every point of every
session.
-/
namespace Uplink

namespace Pipeline

structure WorkInvariant (I : Pipeline → (Task → Hand) → Prop) : Prop where
  step : ∀ {quits t p p' h' hands}, Step quits t p (hands t) p' h' →
    (∀ w, hands (.worker w) = .free) →
    (∀ w, t = .worker w → h' = .free) → I p hands → I p' (Function.update hands t h')
  erase : ∀ {p hands} (t : Task), I p hands → I { p with ready := p.ready.erase t } hands
  elapse : ∀ {p hands} (now : Nat), I p hands → I (p.moveTo now) hands

variable {quits : Prop} {I : Pipeline → (Task → Hand) → Prop} {p p' : Pipeline} {t : Task}
  {h : Hand}
  {hands : Task → Hand}

theorem WorkInvariant.of_timeless
    (step : ∀ {quits t p p' h' hands}, Step quits t p (hands t) p' h' →
      (∀ w, hands (.worker w) = .free) →
      (∀ w, t = .worker w → h' = .free) → I p hands → I p' (Function.update hands t h'))
    (hI : Timeless I) : WorkInvariant I where
  step := step
  erase _ hp := hI _ _ _ _ _ hp
  elapse now hp := hI.elapse now hp

theorem WorkInvariant.steps (hI : WorkInvariant I) (hs : Steps quits t p (hands t) p' h)
    (hnot : ∀ w, t ≠ .worker w) (hworkers : ∀ w, hands (.worker w) = .free) (hp : I p hands) :
    I p' (Function.update hands t h) := by
  generalize hh : hands t = h₀ at hs
  induction hs with
  | refl => rwa [← hh, Function.update_eq_self]
  | @tail p₁ h₁ p₂ h₂ _ hl ih =>
    have hfree (w : Nat) : Function.update hands t h₁ (.worker w) = .free := by
      rw [Function.update_of_ne (hnot w).symm, hworkers]
    have hnext := hI.step (t := t) (by rwa [Function.update_self]) hfree
      (fun w hw => absurd hw (hnot w)) ih
    rwa [Function.update_idem] at hnext

/-- A worker takes its steps with nothing in hand in between. -/
theorem WorkInvariant.idleSteps (hI : WorkInvariant I) (hs : IdleSteps quits t p p')
    (hfree : hands t = .free) (hworkers : ∀ w, hands (.worker w) = .free) (hp : I p hands) :
    I p' hands := by
  induction hs with
  | refl => exact hp
  | @tail p₁ p₂ _ hl ih =>
    have hstep : Step quits t p₁ (hands t) p₂ .free := by rwa [hfree]
    have hnext := hI.step hstep hworkers (fun _ _ => rfl) ih
    rwa [← hfree, Function.update_eq_self] at hnext

/-- Before any task has something in hand, workers may be started. -/
theorem WorkInvariant.startWorkers (hI : WorkInvariant I) (workers capacity : Nat)
    (hp : I p fun _ => .free) : I (p.startWorkers workers capacity) fun _ => .free := by
  have hstart := hI.step (t := .operator) (@Step.start False _ _ _ workers capacity)
    (fun _ => rfl) (by simp) hp
  rwa [Function.update_eq_self_iff.mpr rfl] at hstart

end Pipeline

namespace Session

open Pipeline

variable {quits : Prop} {I : Pipeline → (Task → Hand) → Prop} {s s' : Session}

theorem Leads.keepsWork {t : Task} (hI : WorkInvariant I) (hl : Leads quits t (s.hand t) s s')
    (hnot : ∀ w, t ≠ .worker w) (h : I s.toPipeline s.hand) : I s'.toPipeline s'.hand := by
  rw [hl.hand_eq]
  exact hI.steps hl.steps hnot (fun _ => rfl) h

theorem move_keepsWork (hI : WorkInvariant I) (m : Move) (h : I s.toPipeline s.hand) :
    I (s.move m).toPipeline (s.move m).hand := by
  have hm := s.moves_move m
  generalize s.move m = s' at hm ⊢
  cases hm with
  | stays => exact h
  | start op free =>
    have hfree := hand_operator_of_isFree free
    exact (hfree ▸ leads_start s op free).keepsWork hI (by simp) h
  | collect => rwa [toPipeline_collect, hand_collect]
  | turn t _ =>
    have hready := hI.erase t h
    cases t with
    | worker w =>
      have hidle := @workerTurn_idleSteps False
        { s.toPipeline with ready := s.ready.erase (.worker w) } w
      exact hI.idleSteps hidle rfl (fun _ => rfl) hready
    | _ => exact (leads_turn { s with ready := s.ready.erase _ } _).keepsWork hI (by simp) hready
  | elapse now => exact hI.elapse now h
  | dropOwn calling flushes => exact (leads_dropOwn calling flushes).keepsWork hI (by simp) h
  | drop calling flushes => exact (leads_drop calling flushes).keepsWork hI (by simp) h
  | discard => exact (leads_stopFlushing s).keepsWork hI (by simp) h

/-- An invariant that holds before anything happens holds at every point of every session. -/
theorem Reachable.keepsWork (hI : WorkInvariant I)
    (hfresh : ∀ p, p.Fresh → I p fun _ => .free) (h : s.Reachable) : I s.toPipeline s.hand := by
  refine h.by_moves (P := fun s => I s.toPipeline s.hand) ?_ fun _ m _ => move_keepsWork hI m
  intro a settings identity clock receiver demo chance
  rw [hand_create]
  exact create_of_startWorkers (P := fun p => I p fun _ => .free)
    (hfresh _ (fresh_ofSettings a settings identity clock receiver chance))
    fun _ workers capacity => hI.startWorkers workers capacity

end Session

end Uplink
