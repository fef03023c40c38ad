import Uplink.Proofs.Kpi.Changes
import Uplink.Proofs.Session.Waits
/-!
Timers.  Steps take no time; they leave the timers of other tasks, and set new ones for later, so
no timer is ever behind.
-/
namespace Uplink

namespace Pipeline

variable {quits : Prop} {t u : Task} {p p' : Pipeline} {h h' : Hand}

/-- Steps take no time. -/
theorem Step.now_eq (hs : Step quits t p h p' h') : p'.now = p.now := by
  have hleave (p₀ : Pipeline) (e : Event) : (p₀.leave t e).now = p₀.now := by
    unfold leave
    dsimp only
    split <;> rfl
  cases hs with
  | start workers capacity => exact startWorkers_now p workers capacity
  | queue hs hd => exact hs.noted.2.2.2.1
  | divert hs hd hq =>
    cases hq
    exact hs.noted.2.2.2.1
  | deliver due => rw [deliver_eq]; rfl
  | direct url body deadline hq => cases hq; rfl
  | take idle hd hq => cases hq; rfl
  | skip turn hf => exact hleave p _
  | depart turn hf hq => cases hq; rfl
  | land due hf accepted => exact hleave _ _
  | fail due hf => exact hleave p _
  | withdraw hh => exact hleave _ _
  | _ => rfl

/-- Steps leave the granularity as it is. -/
theorem Step.granularity_eq (hs : Step quits t p h p' h') :
    p'.kpi.granularity = p.kpi.granularity := by
  obtain ⟨es, -, hchange⟩ := hs.kpiChange
  generalize p'.kpi = a at hchange
  cases hchange <;> rfl

theorem Steps.now_eq (hs : Steps quits t p h p' h') : p'.now = p.now :=
  hs.preserves (I := fun p' _ => p'.now = p.now) (fun hl ih => hl.now_eq.trans ih) rfl

theorem Steps.granularity_eq (hs : Steps quits t p h p' h') :
    p'.kpi.granularity = p.kpi.granularity :=
  hs.preserves (I := fun p' _ => p'.kpi.granularity = p.kpi.granularity)
    (fun hl ih => hl.granularity_eq.trans ih) rfl

/-- A step on behalf of a task leaves the timers of the others. -/
theorem Step.mem_timers (hs : Step quits t p h p' h') (hu : u ≠ t) {due : Nat}
    (hdue : (due, u) ∈ p.timers) : (due, u) ∈ p'.timers := by
  have hpost {timers : List (Nat × Task)} {q : Posting} {now : Nat} (hmem : (due, u) ∈ timers) :
      (due, u) ∈ if q.due ≤ now then timers else timers ++ [(q.due, t)] := by
    split
    · exact hmem
    · exact List.mem_append_left _ hmem
  have hleave {p₀ : Pipeline} {e : Event} (hmem : (due, u) ∈ p₀.timers) :
      (due, u) ∈ (p₀.leave t e).timers := by
    unfold leave
    dsimp only
    split <;> exact hmem
  have hdrop {timers : List (Nat × Task)} (hmem : (due, u) ∈ timers) :
      (due, u) ∈ timers.filter (·.2 ≠ t) := List.mem_filter.mpr ⟨hmem, by simpa using hu⟩
  cases hs with
  | start workers capacity => exact (waits_startWorkers p workers capacity).2.1 ▸ hdue
  | queue hs hd => exact (hs.waits.2.1 ▸ hdue :)
  | divert hs hd hq =>
    cases hq
    exact hpost (hs.waits.2.1 ▸ hdue :)
  | deliver due =>
    rw [deliver_eq]
    exact hdue
  | direct url body deadline hq =>
    cases hq
    exact hpost hdue
  | take idle hd hq =>
    cases hq
    exact hpost hdue
  | skip turn hf => exact hleave hdue
  | depart turn hf hq =>
    cases hq
    exact hpost hdue
  | land due hf accepted => exact hleave hdue
  | fail due hf => exact hleave hdue
  | withdraw hh => exact hleave (hdrop hdue)
  | setTimer due later => exact List.mem_append_left _ hdue
  | dropTimers => exact hdrop hdue
  | _ => exact hdue

theorem Steps.mem_timers (hs : Steps quits t p h p' h') (hu : u ≠ t) {due : Nat}
    (hdue : (due, u) ∈ p.timers) : (due, u) ∈ p'.timers :=
  hs.preserves (I := fun p _ => (due, u) ∈ p.timers) (fun hs hp => hs.mem_timers hu hp) hdue

/-- A timer that a step sets is for later. -/
theorem Step.timers_later (hs : Step quits t p h p' h') (hg : 0 < p.kpi.granularity.nanos)
    {timer : Nat × Task} (hmem : timer ∈ p'.timers) : timer ∈ p.timers ∨ p.now < timer.1 := by
  have hpost {timers : List (Nat × Task)} {q : Posting} {now : Nat}
      (hmem : timer ∈ if q.due ≤ now then timers else timers ++ [(q.due, t)]) :
      timer ∈ timers ∨ now < timer.1 := by
    split at hmem
    next => exact .inl hmem
    next hdue =>
      refine (List.mem_append.mp hmem).imp_right fun hmem => ?_
      rw [List.mem_singleton.mp hmem]
      exact Nat.lt_of_not_le hdue
  have hleave {p₀ : Pipeline} {e : Event} (hmem : timer ∈ (p₀.leave t e).timers) :
      timer ∈ p₀.timers := by
    unfold leave at hmem
    dsimp only at hmem
    split at hmem <;> exact hmem
  cases hs with
  | start workers capacity => exact .inl ((waits_startWorkers p workers capacity).2.1 ▸ hmem)
  | queue hs hd => exact .inl (hs.waits.2.1 ▸ hmem :)
  | divert hs hd hq =>
    cases hq
    rcases hpost hmem with hmem | hlater
    · exact .inl (hs.waits.2.1 ▸ hmem :)
    · exact .inr (hs.noted.2.2.2.1 ▸ hlater :)
  | deliver due =>
    rw [deliver_eq] at hmem
    exact .inl hmem
  | direct url body deadline hq =>
    cases hq
    exact hpost hmem
  | take idle hd hq =>
    cases hq
    exact hpost hmem
  | skip turn hf => exact .inl (hleave hmem)
  | depart turn hf hq =>
    cases hq
    exact hpost hmem
  | land due hf accepted =>
    have hmem := hleave hmem
    exact .inl hmem
  | fail due hf => exact .inl (hleave hmem)
  | withdraw hh =>
    have hmem := hleave hmem
    exact .inl (List.mem_filter.mp hmem).1
  | setTimer due later =>
    refine (List.mem_append.mp hmem).imp_right fun hmem => ?_
    rw [List.mem_singleton.mp hmem]
    exact later hg
  | dropTimers => exact .inl (List.mem_filter.mp hmem).1
  | _ => exact .inl hmem

structure Ahead (p : Pipeline) : Prop where
  granularity : 0 < p.kpi.granularity.nanos
  timers : ∀ timer ∈ p.timers, p.now < timer.1

theorem Ahead.step (hs : Step quits t p h p' h') (hp : p.Ahead) : p'.Ahead := by
  refine ⟨hs.granularity_eq ▸ hp.granularity, fun timer hmem => ?_⟩
  rw [hs.now_eq]
  exact (hs.timers_later hp.granularity hmem).elim (hp.timers timer) id

theorem ahead_of_fresh (hp : p.Fresh) : p.Ahead := by
  obtain ⟨settings, hkpi⟩ := hp.kpi
  refine ⟨?_, by simp [hp.timers]⟩
  rw [hkpi]
  show 0 < (settings.granularity.orDefault Default.granularity).nanos
  unfold Duration.orDefault
  split
  · decide
  next hne => exact Nat.pos_of_ne_zero hne

theorem invariant_ahead : Invariant fun p _ => p.Ahead where
  step hs hp := hp.step hs
  erase _ hp := ⟨hp.granularity, hp.timers⟩
  elapse {p _} now hp := by
    refine ⟨p.kpi_moveTo now ▸ hp.granularity, fun timer hmem => ?_⟩
    rw [timers_moveTo] at hmem
    obtain ⟨hmem, hlater⟩ := List.mem_filter.mp hmem
    rw [now_moveTo]
    exact Nat.max_lt.mpr ⟨hp.timers timer hmem, by simpa using hlater⟩

end Pipeline

end Uplink
