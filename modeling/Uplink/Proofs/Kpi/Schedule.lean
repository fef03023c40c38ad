import Uplink.Proofs.Kpi.Tended
/-!
The schedule of a flusher, told from what it did and when: its first attempt comes one granularity
after it begins to run, and each other one, two or four granularities after the attempt before it
ended, by the number of its last attempts that failed in a row.
-/
namespace Uplink

namespace Flusher

/-- How many attempts at the end of a log failed in a row, the last thing done first. -/
def streak : List (Nat × Pulse) → Nat
  | (_, .ends .failed) :: log => streak log + 1
  | (_, .wakes) :: log => streak log
  | _ => 0

/-- How many granularities pass before the next attempt. -/
def factor (failures : Nat) : Nat := if failures = 0 then 1 else if failures = 1 then 2 else 4

/-- A time is the first millisecond at which so many nanoseconds have passed since another. -/
def After (t now nanos : Nat) : Prop :=
  t * 1000000 + nanos ≤ now * 1000000 ∧ now * 1000000 < t * 1000000 + nanos + 1000000

/-- A log is on schedule if the flusher began once, and then woke for an attempt when it was time
and ended the attempt, again and again.  Once the failures in a row no longer fit a
word any time will do. -/
def OnSchedule (g : Duration) : List (Nat × Pulse) → Prop
  | [] => True
  | (_, .begins) :: log => log = []
  | (now, .wakes) :: log =>
    OnSchedule g log ∧ ∃ t p log', log = (t, p) :: log' ∧ p ≠ .wakes
      ∧ (streak log < UInt32.size → After t now (factor (streak log) * g.nanos))
  | (now, .ends _) :: log => OnSchedule g log ∧ ∃ t log', log = (t, .wakes) :: log' ∧ t ≤ now

variable {g : Duration} {now : Nat} {f f' : Flusher}

theorem after_millis (t : Nat) (d : Duration) : After t (t + d.millis) d.nanos := by
  unfold After Duration.millis
  omega

/-- A word that holds the failures in a row gives the factor. -/
theorem backoffFactor_ofNat {n : Nat} (h : n < UInt32.size) :
    backoffFactor (.ofNat n) = factor n := by
  have hzero : UInt32.ofNat n = 0 ↔ n = 0 := by
    rw [← UInt32.toNat_inj, UInt32.toNat_ofNat_of_lt' h]
    rfl
  have hone : UInt32.ofNat n = 1 ↔ n = 1 := by
    rw [← UInt32.toNat_inj, UInt32.toNat_ofNat_of_lt' h]
    rfl
  simp only [backoffFactor, factor, hzero, hone]

/-- If four times the granularity is a duration, every wait is one. -/
theorem backoff_isSome (hg : (g.times? 4).isSome) (failures : UInt32) :
    ∃ d, backoff? g failures = some d ∧ d.nanos = backoffFactor failures * g.nanos := by
  have hfits : g.nanos * 4 < UInt64.size * 1000000000 := by
    by_contra hcontra
    simp [Duration.times?, Duration.ofNanos?, hcontra] at hg
  have hle : backoffFactor failures ≤ 4 := by
    unfold backoffFactor
    split
    · decide
    · split <;> decide
  have hlt : g.nanos * backoffFactor failures < UInt64.size * 1000000000 :=
    Nat.lt_of_le_of_lt (Nat.mul_le_mul_left _ hle) hfits
  exact ⟨⟨_, hlt⟩, by simp [backoff?, Duration.times?, Duration.ofNanos?, hlt], Nat.mul_comm _ _⟩

/-- Where a flusher stands that is not over, by what it did last: asleep until the next attempt is
due, or in an attempt. -/
inductive Stands (g : Duration) (now : Nat) (f : Flusher) : Prop
  | fresh (hs : f.stage = .fresh) (hlog : f.log = [])
  | asleep {due t p log} (hs : f.stage = .asleep due) (hlog : f.log = (t, p) :: log)
    (hp : p ≠ .wakes) (hdue : After t due (backoffFactor f.failures * g.nanos)) (early : now ≤ due)
  | attempting {t log} (hs : f.stage.hand.flushes) (hlog : f.log = (t, .wakes) :: log)
    (past : t ≤ now)

structure Kept (g : Duration) (now : Nat) (f : Flusher) : Prop where
  onSchedule : OnSchedule g f.log
  failures : f.failures = .ofNat (streak f.log)
  stands : ¬f.Over → Stands g now f

theorem Kept.cancel (h : Kept g now f) (stopped : Bool) :
    Kept g now { f with cancelled := f.cancelled || stopped } := by
  refine ⟨h.onSchedule, h.failures, fun going => ?_⟩
  cases h.stands fun finished => going ⟨by simp [finished.1], finished.2⟩ with
  | fresh hs hlog => exact .fresh hs hlog
  | asleep hs hlog hp hdue early => exact .asleep hs hlog hp hdue early
  | attempting hs hlog past => exact .attempting hs hlog past

/-- Time may move on to when the next attempt is due, but not beyond. -/
theorem Kept.elapse (h : Kept g now f) {later : Nat} (hle : now ≤ later)
    (early : ¬f.Over → ∀ due, f.stage = .asleep due → later ≤ due) :
    Kept g later f := by
  refine ⟨h.onSchedule, h.failures, fun going => ?_⟩
  cases h.stands going with
  | fresh hs hlog => exact .fresh hs hlog
  | asleep hs hlog hp hdue _ => exact .asleep hs hlog hp hdue (early going _ hs)
  | attempting hs hlog past => exact .attempting hs hlog (Nat.le_trans past hle)

@[simp] theorem log_rest : (f.rest g now).log = f.log := by
  unfold rest
  split <;> rfl

@[simp] theorem failures_rest : (f.rest g now).failures = f.failures := by
  unfold rest
  split <;> rfl

theorem stands_rest (hg : (g.times? 4).isSome) {p : Pulse} {log : List (Nat × Pulse)}
    (hlog : f.log = (now, p) :: log) (hp : p ≠ .wakes) : Stands g now (f.rest g now) := by
  obtain ⟨d, hd, hnanos⟩ := backoff_isSome hg f.failures
  unfold rest
  rw [hd]
  exact .asleep rfl hlog hp (hnanos ▸ after_millis now d) (Nat.le_add_right _ _)

theorem Stands.log_of_fresh (h : Stands g now f) (hs : f.stage = .fresh) : f.log = [] := by
  cases h with
  | fresh _ hlog => exact hlog
  | asleep hs' => exact FlusherStage.noConfusion (hs.symm.trans hs')
  | attempting hs' => simp [hs, FlusherStage.hand, Hand.flushes, Hand.isFlushing] at hs'

theorem Stands.stage_of_log (h : Stands g now f) (hlog : f.log = []) : f.stage = .fresh := by
  cases h with
  | fresh hs _ => exact hs
  | asleep _ hlog' => simp [hlog] at hlog'
  | attempting _ hlog' => simp [hlog] at hlog'

theorem Stands.log_of_flushes (h : Stands g now f) (hs : f.stage.hand.flushes) :
    ∃ t log, f.log = (t, .wakes) :: log ∧ t ≤ now := by
  cases h with
  | fresh hs' => simp [hs', FlusherStage.hand, Hand.flushes, Hand.isFlushing] at hs
  | asleep hs' => simp [hs', FlusherStage.hand, Hand.flushes, Hand.isFlushing] at hs
  | attempting _ hlog past => exact ⟨_, _, hlog, past⟩

theorem Stands.early (h : Stands g now f) {due : Nat} (hs : f.stage = .asleep due) : now ≤ due := by
  cases h with
  | fresh hs' => exact FlusherStage.noConfusion (hs.symm.trans hs')
  | asleep hs' _ _ _ early =>
    cases hs.symm.trans hs'
    exact early
  | attempting hs' => simp [hs, FlusherStage.hand, Hand.flushes, Hand.isFlushing] at hs'

theorem Kept.wake (h : Kept g now f) (going : ¬f.Over) {due : Nat}
    (hs : f.stage = .asleep due) (hdue : due ≤ now) :
    Kept g now { f.note now .wakes with stage := .queueing f.url } := by
  refine ⟨?_, h.failures, fun _ => .attempting rfl rfl (Nat.le_refl now)⟩
  cases h.stands going with
  | @asleep due' t p log hs' hlog hp hafter early =>
    cases hs.symm.trans hs'
    refine ⟨h.onSchedule, t, p, log, hlog, hp, fun hn => ?_⟩
    have hnow : now = due := Nat.le_antisymm early hdue
    rw [hnow, ← backoffFactor_ofNat hn, ← h.failures]
    exact hafter
  | fresh hs' => exact FlusherStage.noConfusion (hs.symm.trans hs')
  | attempting hs' => simp [hs, FlusherStage.hand, Hand.flushes, Hand.isFlushing] at hs'

theorem Kept.finish (hg : (g.times? 4).isSome) (h : Kept g now f) (going : ¬f.Over)
    (hs : f.stage.hand.flushes) (o : FlushOutcome) : Kept g now (f.finish g now o) := by
  obtain ⟨t, log, hlog, past⟩ := (h.stands going).log_of_flushes hs
  refine ⟨?_, ?_, fun _ => stands_rest hg (p := .ends o) rfl Pulse.noConfusion⟩
  · rw [Flusher.finish, log_rest]
    exact ⟨h.onSchedule, t, log, hlog, past⟩
  · rw [Flusher.finish, log_rest, failures_rest]
    show (if o = .failed then f.failures + 1 else 0) = .ofNat (streak ((now, .ends o) :: f.log))
    cases o with
    | failed => rw [if_pos rfl, h.failures, streak, UInt32.ofNat_add]; rfl
    | _ => rfl

/-- A flusher that is over does nothing. -/
theorem Step.going {crashes : Prop} (h : Step g now crashes f f') : ¬f.Over := by
  rintro ⟨-, ended⟩
  cases h <;> simp_all [FlusherStage.hand, Hand.flushes, Hand.isFlushing]

/-- What a flusher does keeps it on schedule. -/
theorem Kept.step (hg : (g.times? 4).isSome) (h : Kept g now f)
    (hstep : Step g now False f f') : Kept g now f' := by
  have going := hstep.going
  cases hstep with
  | begin hs =>
    have hlog := (h.stands going).log_of_fresh hs
    refine ⟨?_, ?_, fun _ => stands_rest hg (p := .begins) rfl Pulse.noConfusion⟩
    · rw [log_rest]
      exact hlog
    · rw [failures_rest, log_rest]
      show f.failures = .ofNat 0
      rw [h.failures, hlog]
      rfl
  | wake hs hdue => exact h.wake going hs hdue
  | wait stage hs hs' =>
    obtain ⟨t, log, hlog, past⟩ := (h.stands going).log_of_flushes hs
    exact ⟨h.onSchedule, h.failures, fun _ => .attempting hs' hlog past⟩
  | finish o hs => exact h.finish hg going hs o
  | crash hs hc => exact hc.elim

theorem Kept.steps (hg : (g.times? 4).isSome) (h : Kept g now f)
    (hsteps : Steps g now False f f') : Kept g now f' := by
  induction hsteps with
  | refl => exact h
  | tail _ hstep ih => exact ih.step hg hstep

end Flusher

end Uplink
