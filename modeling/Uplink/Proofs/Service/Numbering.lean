import Mathlib.Data.List.Forall2
import Uplink.Proofs.Service.History
/-!
The numbers of records.  A record that is pushed goes to the dispatcher under the number that it has
among those of its kind, whatever else is pushed in between.
-/
namespace Uplink

namespace Call

def push? : Call → Option (String × Report)
  | push url (.ok r) _ => some (url, r)
  | _ => none

/-- Whether a call submits a text that is no record's. -/
def submitsBody : Call → Bool
  | submit _ (some _) _ => true
  | _ => false

end Call

namespace Event

def push? : Event → Option (String × Report)
  | called _ c => c.push?
  | _ => none

def submitsBody : Event → Bool
  | called _ c => c.submitsBody
  | _ => false

end Event

/-- A job carries a record to a URL: stamped, under a number if it has one, and with a network
element. -/
def Job.Carries (j : Job) (x : Nat × String × Report) : Prop :=
  ∃ now neUid, j = ⟨x.2.1, (((x.2.2.stamped now).numbered (.ofNat x.1)).withNeUid neUid).encode⟩

/-- How many of the records that are pushed are of a kind. -/
def pushedOf (k : Kind) (pushes : List (String × Report)) : Nat :=
  pushes.countP fun x => x.2.kind = k

/-- Pushes, the newest of them first, each with its number among those of its kind. -/
def numbered : List (String × Report) → List (Nat × String × Report)
  | [] => []
  | x :: older => (pushedOf x.2.kind older + 1, x) :: numbered older

theorem pushedOf_cons (k : Kind) (x : String × Report) (older : List (String × Report)) :
    pushedOf k (x :: older) = pushedOf k older + if x.2.kind = k then 1 else 0 := by
  unfold pushedOf
  rw [List.countP_cons]
  simp only [decide_eq_true_eq]

theorem pushedOf_append (k : Kind) (newer older : List (String × Report)) :
    pushedOf k (newer ++ older) = pushedOf k newer + pushedOf k older := List.countP_append

namespace Chronicle

variable {c : Chronicle} {k : Kind}

/-- A record that is pushed is submitted under the next number of its kind.  KPI reports have no
numbers, so any will do. -/
theorem jobs_push (c : Chronicle) (t : Task) (url : String) {r : Report} {n : Nat}
    (hn : r.kind ≠ .kpi → n = c.pushed r.kind + 1) :
    ∃ j : Job, j.Carries (n, url, r) ∧ (c.push t url r).jobs = c.jobs ++ [(t, j)] := by
  cases r with
  | kpi a => exact ⟨_, ⟨a.recordTime, a.neUid, rfl⟩, rfl⟩
  | alarm a =>
    cases hn (by simp [Report.kind])
    exact ⟨_, ⟨_, c.owner a.neUid, rfl⟩, rfl⟩
  | callDetail a => exact ⟨_, ⟨_, c.owner a.neUid, rfl⟩, rfl⟩
  | generalEvent a => exact ⟨_, ⟨_, c.owner a.neUid, rfl⟩, rfl⟩
  | stationState a => exact ⟨_, ⟨_, c.owner a.neUid, rfl⟩, rfl⟩
  | terminalAccess a => exact ⟨_, ⟨_, c.owner a.neUid, rfl⟩, rfl⟩

/-- Whatever pushes and submits nothing adds neither records nor jobs. -/
theorem enter_of_not_push {e : Event} (hpush : e.push? = none) (hbody : e.submitsBody = false)
    (c : Chronicle) : (enter e c).pushed = c.pushed ∧ (enter e c).jobs = c.jobs := by
  unfold enter
  split
  next => cases hpush
  next => cases hbody
  next => exact ⟨rfl, rfl⟩
  next => exact ⟨rfl, rfl⟩
  next k n => exact ⟨c.pushed_adjust n k, (c.adjust_keeps n k).2.2.2⟩
  next => exact ⟨rfl, rfl⟩

/-- So many records were pushed, and each was submitted under its number.  The pushes are given
newest first, the jobs are not. -/
structure Numbers (c : Chronicle) (pushes : List (String × Report)) : Prop where
  pushed : ∀ k ≠ .kpi, c.pushed k = pushedOf k pushes
  jobs : List.Forall₂ Job.Carries (c.jobs.map Prod.snd).reverse (numbered pushes)

variable {pushes : List (String × Report)}

theorem Numbers.push (h : c.Numbers pushes) (t : Task) (url : String) (r : Report) :
    (c.push t url r).Numbers ((url, r) :: pushes) := by
  obtain ⟨j, hj, hjobs⟩ := c.jobs_push (n := pushedOf r.kind pushes + 1) t url fun hk =>
    congrArg (· + 1) (h.pushed r.kind hk).symm
  constructor
  · intro k hk
    rw [pushed_push c t url r hk, h.pushed k hk, pushedOf_cons]
  · rw [hjobs, List.map_append, List.reverse_append]
    exact .cons hj h.jobs

/-- The chronicle numbers the records, unless other texts are submitted. -/
theorem numbers_enterAll {es : List Event} (hbody : ∀ e ∈ es, e.submitsBody = false)
    (h : c.Numbers []) : (enterAll es c).Numbers (es.filterMap Event.push?) := by
  induction es with
  | nil => exact h
  | cons e es ih =>
    obtain ⟨he, hes⟩ := List.forall_mem_cons.mp hbody
    cases hpush : e.push? with
    | none =>
      obtain ⟨hpushed, hjobs⟩ := enter_of_not_push hpush he (enterAll es c)
      rw [List.filterMap_cons_none hpush]
      exact ⟨fun k hk => hpushed ▸ (ih hes).pushed k hk, hjobs.symm ▸ (ih hes).jobs⟩
    | some x =>
      rw [List.filterMap_cons_some hpush]
      unfold Event.push? Call.push? at hpush
      split at hpush
      next t _ =>
        split at hpush <;> cases hpush
        exact (ih hes).push t _ _
      next => cases hpush

theorem numbers_create (times : Option (Kind → Nat → Int64)) (identity : Identity) (clock : Clock)
    (capacity : Nat) : (create times identity clock capacity).Numbers [] :=
  ⟨fun k _ => by cases k <;> rfl, .nil⟩

end Chronicle

namespace Services

/-- The services number with the chronicle. -/
theorem Follow.sequence {v : Services} {c : Chronicle} (h : v.Follow c) {k : Kind} (hk : k ≠ .kpi) :
    v.view? (fun v => v.sequence) k = some (.ofNat (c.pushed k)) := by
  cases k with
  | alarm => exact congrArg some h.alarm.sequence
  | callDetail => exact congrArg some h.callDetail.sequence
  | generalEvent => exact congrArg some h.generalEvent.sequence
  | stationState => exact congrArg some h.stationState.sequence
  | terminalAccess => exact congrArg some h.terminalAccess.sequence
  | kpi => exact absurd rfl hk

end Services

end Uplink
