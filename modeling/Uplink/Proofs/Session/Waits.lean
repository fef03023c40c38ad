import Uplink.Proofs.Session.Noted
/-!
What steps leave of the tasks that can go on: all of them, and those they wake.
-/
namespace Uplink

namespace Pipeline

variable {quits : Prop} {t u : Task} {p p' p₁ : Pipeline} {h h' : Hand}

theorem mem_ready_wakeFirst (p : Pipeline) (line : List Task) (u : Task) :
    u ∈ (p.wakeFirst line).ready ↔ u ∈ p.ready ∨ line.head? = some u := by
  unfold wakeFirst
  cases hl : line.head? with
  | none => simp
  | some t =>
    show u ∈ (p.wake t).ready ↔ _
    rw [mem_ready_wake, Option.some_inj]
    exact or_congr_right eq_comm

/-- Who leaves with the turn hands it on. -/
theorem mem_ready_leave (p : Pipeline) (t u : Task) (e : Event) :
    u ∈ (p.leave t e).ready
      ↔ u ∈ p.ready ∨ (p.line.head? = some t ∧ (p.line.erase t).head? = some u) := by
  unfold leave
  dsimp only
  split
  next turn =>
    rw [mem_ready_wakeFirst]
    exact or_congr_right (and_iff_right turn).symm
  next turn => simp [turn]

/-- Starting workers leaves everything else that waits to its own. -/
theorem waits_startWorkers (p : Pipeline) (workers capacity : Nat) :
    (p.startWorkers workers capacity).line = p.line
      ∧ (p.startWorkers workers capacity).timers = p.timers
      ∧ ∀ u ∈ p.ready, u ∈ (p.startWorkers workers capacity).ready := by
  unfold startWorkers
  split
  · exact ⟨rfl, rfl, fun _ hu => hu⟩
  · exact ⟨rfl, rfl, fun _ hu => List.mem_append_left _ hu⟩

theorem Submits.waits {c : Call} {j : Job} {deadline : Duration}
    (hs : Submits t p c j deadline p₁) :
    p₁.line = p.line ∧ p₁.timers = p.timers ∧ ∀ u ∈ p.ready, u ∈ p₁.ready := by
  cases hs with
  | submit url body deadline => exact waits_startWorkers _ 0 0
  | push url r timeout hr => exact waits_startWorkers _ 0 0

/-- A step takes from no task that it can go on. -/
theorem Step.ready_subset (hs : Step quits t p h p' h') {u : Task} (hu : u ∈ p.ready) :
    u ∈ p'.ready := by
  have hwake {p₀ : Pipeline} {line : List Task} (hr : u ∈ p₀.ready) :
      u ∈ (p₀.wakeFirst line).ready := (mem_ready_wakeFirst _ _ _).mpr (.inl hr)
  have hleave {p₀ : Pipeline} {e : Event} (hr : u ∈ p₀.ready) : u ∈ (p₀.leave t e).ready :=
    (mem_ready_leave _ _ _ e).mpr (.inl hr)
  cases hs with
  | log l => exact hu
  | start workers capacity => exact (waits_startWorkers p workers capacity).2.2 u hu
  | count c => exact hu
  | call c hc => exact hu
  | queue hs hd => exact hwake (hs.waits.2.2 u hu)
  | divert hs hd hq =>
    cases hq
    exact hs.waits.2.2 u hu
  | deliver due =>
    rw [deliver_eq]
    exact hu
  | direct url body deadline hq =>
    cases hq
    exact hu
  | answered due => exact hu
  | seek idle hd => exact hu
  | take idle hd hq =>
    cases hq
    exact hwake hu
  | finish busy due => exact hu
  | join url => exact hu
  | skip turn hf => exact hleave hu
  | depart turn hf hq =>
    cases hq
    exact hu
  | land due hf accepted => exact hleave hu
  | fail due hf => exact hleave hu
  | withdraw hh => exact hleave hu
  | setTimer due later => exact hu
  | dropTimers => exact hu
  | resume => exact List.mem_cons_of_mem _ hu
  | wake v => exact (mem_ready_wake _ _ _).mpr (.inl hu)
  | shown j hj => exact hu
  | moveClock clock => exact hu
  | identify identity => exact hu
  | adjust k n => exact hu
  | adjustReports n => exact hu

theorem Steps.ready_subset (hs : Steps quits t p h p' h') {u : Task} (hu : u ∈ p.ready) :
    u ∈ p'.ready :=
  hs.preserves (I := fun p _ => u ∈ p.ready) (fun hs hr => hs.ready_subset hr) hu

end Pipeline

end Uplink
