import Uplink.Dispatch.Dispatcher
/-!
What the changes of the dispatcher do to its queue, its workers and its totals.
-/
namespace Uplink

namespace Worker

def isBusy : Worker → Bool
  | .busy _ => true
  | _ => false

end Worker

namespace Pool

variable {p : Pool} {w : Nat}

def busy (p : Pool) : Nat := p.workers.countP Worker.isBusy

@[simp] theorem workers_join (p : Pool) (w : Nat) : (p.join w).workers = p.workers := by
  unfold join
  split <;> rfl

@[simp] theorem jobs_join (p : Pool) (w : Nat) : (p.join w).jobs = p.jobs := by
  unfold join
  split <;> rfl

theorem workers_seek (p : Pool) (w : Nat) : (p.seek w).1.workers = p.workers := by
  unfold seek
  dsimp only
  split
  · split <;> exact workers_join p w
  · exact workers_join p w

/-- A worker that takes a job takes the oldest one. -/
theorem jobs_seek (p : Pool) (w : Nat) : p.jobs = (p.seek w).2.toList ++ (p.seek w).1.jobs := by
  have hjobs := jobs_join p w
  unfold seek
  dsimp only
  split
  next first line job jobs hline hj =>
    rw [hj] at hjobs
    split
    · exact hjobs.symm
    · simp [← hjobs]
  · exact hjobs.symm

theorem busy_assign {old : Worker} (h : p.workers[w]? = some old) (new : Worker) :
    (p.assign w new).busy + old.isBusy.toNat = p.busy + new.isBusy.toNat := by
  obtain ⟨hw, hold⟩ := List.getElem?_eq_some_iff.mp h
  have hcount : old.isBusy → 0 < p.workers.countP Worker.isBusy := fun hb =>
    List.countP_pos_iff.mpr ⟨old, hold ▸ List.getElem_mem hw, hb⟩
  unfold busy
  rw [assign, List.countP_set hw, hold]
  cases hb : old.isBusy with
  | false => cases new.isBusy <;> rfl
  | true =>
    have := hcount hb
    cases new.isBusy <;> simp <;> omega

@[simp] theorem assign_assign (p : Pool) (w : Nat) (a b : Worker) :
    (p.assign w a).assign w b = p.assign w b := by
  simp [assign]

/-- Jobs are gone exactly when no worker is left. -/
theorem jobs_lose (p : Pool) (w : Nat) :
    (p.lose w).jobs = if (p.lose w).isClosed then [] else p.jobs := by
  unfold lose
  dsimp only
  split
  next hclosed =>
    have : isClosed { p.assign w .lost with jobs := [] } = true := hclosed
    simp [this]
  next hopen => simp [assign]

theorem workers_lose (p : Pool) (w : Nat) : (p.lose w).workers = p.workers.set w .lost := by
  unfold lose
  dsimp only
  split <;> rfl

theorem isClosed_eq_false_of_mem {worker : Worker} (h : p.workers[w]? = some worker)
    (alive : worker.isLost = false) : p.isClosed = false := by
  have hmem := List.mem_of_getElem? h
  unfold isClosed
  rw [List.all_eq_false]
  exact ⟨worker, hmem, by simp [alive]⟩

end Pool

namespace Totals

/-- What the end of a POST counts. -/
def after (t : Totals) : Outcome → Totals
  | .accepted => { t with delivered := t.delivered + 1 }
  | .failed _ => { t with failed := t.failed + 1 }
  | .crashed => t

end Totals

namespace Dispatcher

variable {d d' : Dispatcher} {w : Nat} {j : Job} {q : Posting} {o : Outcome}

def busy (d : Dispatcher) : Nat := (d.pool.map Pool.busy).getD 0

theorem isClosed_eq_false_of_worker? {worker : Worker} (h : d.worker? w = some worker)
    (alive : worker.isLost = false) : d.isClosed = false := by
  unfold worker? at h
  unfold isClosed
  cases hp : d.pool with
  | none => rfl
  | some p => exact Pool.isClosed_eq_false_of_mem (by simpa [hp] using h) alive

/-! ### The start -/

theorem start_eq (d : Dispatcher) (workers capacity : Nat) :
    ∃ pool, d.start workers capacity = { d with pool }
      ∧ (pool = d.pool
        ∨ d.pool = none ∧ ∃ n > 0, ∃ capacity, pool = some (.create n capacity)) := by
  unfold start
  split
  next p hp => exact ⟨d.pool, rfl, .inl rfl⟩
  next hp =>
    refine ⟨_, rfl, .inr ⟨hp, _, ?_, _, rfl⟩⟩
    split
    · decide
    · omega

@[simp] theorem queued_start (d : Dispatcher) (workers capacity : Nat) :
    (d.start workers capacity).queued = d.queued := by
  obtain ⟨pool, heq, rfl | ⟨hp, n, -, c, rfl⟩⟩ := d.start_eq workers capacity
  · rw [heq]
  · simp [heq, queued, hp, Pool.create]

@[simp] theorem isClosed_start (d : Dispatcher) (workers capacity : Nat) :
    (d.start workers capacity).isClosed = d.isClosed := by
  obtain ⟨pool, heq, rfl | ⟨hp, n, hn, c, rfl⟩⟩ := d.start_eq workers capacity
  · rw [heq]
  · simp [heq, isClosed, hp, Pool.create, Pool.isClosed, Worker.isLost, Nat.pos_iff_ne_zero.mp hn]

@[simp] theorem busy_start (d : Dispatcher) (workers capacity : Nat) :
    (d.start workers capacity).busy = d.busy := by
  obtain ⟨pool, heq, rfl | ⟨hp, n, hn, c, rfl⟩⟩ := d.start_eq workers capacity
  · rw [heq]
  · simp [heq, busy, hp, Pool.create, Pool.busy, Worker.isBusy, List.countP_replicate]

@[simp] theorem totals_start (d : Dispatcher) (workers capacity : Nat) :
    (d.start workers capacity).totals = d.totals := by
  obtain ⟨pool, heq, -⟩ := d.start_eq workers capacity
  rw [heq]

/-! ### Jobs offered to the queue -/

/-- A job that is queued goes to the end of the queue, is counted, and leaves the workers alone. -/
theorem offer_eq (h : d.offer j = .ok d') :
    ∃ p, d.pool = some p ∧ p.isClosed = false ∧ p.jobs.length < p.capacity
      ∧ d' = { d with
        pool := some { p with jobs := p.jobs ++ [j] }
        totals := { d.totals with queued := d.totals.queued + 1 } } := by
  unfold offer at h
  cases hp : d.pool with
  | none => simp [hp] at h
  | some p =>
    rw [hp] at h
    unfold Pool.offer at h
    by_cases hclosed : p.isClosed
    · simp [hclosed, Except.map] at h
    by_cases hfull : p.capacity ≤ p.jobs.length
    · simp [hclosed, hfull, Except.map] at h
    simp only [hclosed, hfull, Except.map, if_false, Bool.false_eq_true] at h
    cases h
    exact ⟨p, rfl, by simpa using hclosed, Nat.lt_of_not_le hfull, rfl⟩

theorem queued_offer (h : d.offer j = .ok d') : d'.queued = d.queued ++ [j] := by
  obtain ⟨p, hp, -, -, rfl⟩ := offer_eq h
  simp [queued, hp]

theorem isClosed_of_offer (h : d.offer j = .ok d') : d.isClosed = false := by
  obtain ⟨p, hp, hopen, -, -⟩ := offer_eq h
  simp [isClosed, hp, hopen]

theorem isClosed_offer (h : d.offer j = .ok d') : d'.isClosed = false := by
  obtain ⟨p, hp, hopen, -, rfl⟩ := offer_eq h
  simpa [isClosed, Pool.isClosed] using hopen

theorem busy_offer (h : d.offer j = .ok d') : d'.busy = d.busy := by
  obtain ⟨p, hp, -, -, rfl⟩ := offer_eq h
  simp [busy, hp, Pool.busy]

theorem totals_offer (h : d.offer j = .ok d') :
    d'.totals = { d.totals with queued := d.totals.queued + 1 } := by
  obtain ⟨p, hp, -, -, rfl⟩ := offer_eq h
  rfl

/-! ### Jobs taken from the queue -/

/-- A worker that seeks a job takes the oldest one or none, and nothing else changes. -/
theorem seek_eq (d : Dispatcher) (w : Nat) :
    d.queued = (d.seek w).2.toList ++ (d.seek w).1.queued
      ∧ (d.seek w).1.totals = d.totals ∧ (d.seek w).1.hook = d.hook
      ∧ ∀ v, (d.seek w).1.worker? v = d.worker? v := by
  unfold seek
  split
  next hp => simp
  next p hp => simp [queued, worker?, hp, Pool.workers_seek, ← p.jobs_seek w]

theorem told_seek (d : Dispatcher) (w : Nat) : (d.seek w).1.told = d.told := by
  unfold seek
  split <;> rfl

theorem isClosed_seek (d : Dispatcher) (w : Nat) : (d.seek w).1.isClosed = d.isClosed := by
  unfold seek
  split
  next hp => rfl
  next p hp => simp [isClosed, Pool.isClosed, hp, Pool.workers_seek]

theorem busy_seek (d : Dispatcher) (w : Nat) : (d.seek w).1.busy = d.busy := by
  unfold seek
  split
  next hp => rfl
  next p hp => simp [busy, Pool.busy, hp, Pool.workers_seek]

/-! ### POSTs of workers -/

@[simp] theorem totals_engage (d : Dispatcher) (w : Nat) (q : Posting) :
    (d.engage w q).totals = d.totals := rfl

@[simp] theorem queued_engage (d : Dispatcher) (w : Nat) (q : Posting) :
    (d.engage w q).queued = d.queued := by
  cases hp : d.pool <;> simp [queued, engage, updatePool, Pool.assign, hp]

/-- A worker that posts is busy. -/
theorem worker?_engage (h : (d.worker? w).isSome) (q : Posting) :
    (d.engage w q).worker? w = some (.busy q) := by
  unfold worker? engage updatePool at *
  cases hp : d.pool with
  | none => simp [hp] at h
  | some p =>
    have hw : w < p.workers.length := by simpa [hp] using h
    simp [Pool.assign, hw]

theorem busy_engage (h : d.worker? w = some .idle) (q : Posting) :
    (d.engage w q).busy = d.busy + 1 := by
  unfold worker? at h
  cases hp : d.pool with
  | none => simp [hp] at h
  | some p =>
    have hassign := Pool.busy_assign (p := p) (by simpa [hp] using h) (.busy q)
    simpa [busy, engage, updatePool, hp, Worker.isBusy] using hassign

theorem countOutcome_eq (d : Dispatcher) (o : Outcome) :
    d.countOutcome o = { d with totals := d.totals.after o } := by
  cases o <;> rfl

/-- The end of a POST counts its outcome, has the hook be told of a failure, and leaves its worker
idle or loses it. -/
theorem release_eq (d : Dispatcher) (w : Nat) (q : Posting) :
    d.release w q = { d with
      totals := d.totals.after q.outcome
      told := (d.failure? q).toList ++ d.told
      pool := d.pool.map fun p => if d.losesWorker q then p.lose w else p.assign w .idle } := by
  unfold release
  dsimp only
  rw [countOutcome_eq]
  split <;> simp [updatePool, *]

/-- The end of a POST is the same whether or not its worker was seen to be busy with it. -/
theorem release_engage (d : Dispatcher) (w : Nat) (q : Posting) :
    (d.engage w q).release w q = d.release w q := by
  have hlose (p : Pool) : (p.assign w (.busy q)).lose w = p.lose w := by
    simp only [Pool.lose, Pool.assign_assign]
  have hloses : (d.engage w q).losesWorker q = d.losesWorker q := rfl
  have hfailure : (d.engage w q).failure? q = d.failure? q := rfl
  rw [release_eq, release_eq, hloses, hfailure]
  simp [engage, updatePool, Function.comp_def, hlose]

theorem busy_release (h : d.worker? w = some (.busy q)) : (d.release w q).busy + 1 = d.busy := by
  unfold worker? at h
  rw [release_eq]
  cases hp : d.pool with
  | none => simp [hp] at h
  | some p =>
    have hw : p.workers[w]? = some (.busy q) := by simpa [hp] using h
    have hidle := Pool.busy_assign hw .idle
    have hlost : (p.lose w).busy = (p.assign w .lost).busy := by
      simp [Pool.busy, Pool.workers_lose, Pool.assign]
    have hlost' := Pool.busy_assign hw .lost
    simp only [busy, hp, Option.map_some, Option.getD_some]
    split
    · simpa [hlost, Worker.isBusy] using hlost'
    · simpa [Worker.isBusy] using hidle

/-- The end of a POST drops the jobs in the queue exactly when it takes the last worker. -/
theorem queued_release (h : d.worker? w = some (.busy q)) :
    (d.release w q).queued = if (d.release w q).isClosed then [] else d.queued := by
  rw [release_eq]
  unfold worker? at h
  cases hp : d.pool with
  | none => simp [hp] at h
  | some p =>
    have hw : w < p.workers.length := by
      have hw : p.workers[w]? = some (.busy q) := by simpa [hp] using h
      exact (List.getElem?_eq_some_iff.mp hw).1
    have hworker : (p.assign w .idle).workers[w]? = some .idle := by simp [Pool.assign, hw]
    have hidle := Pool.isClosed_eq_false_of_mem hworker rfl
    simp only [queued, isClosed, hp, Option.map_some, Option.getD_some, Option.any_some]
    split
    · exact p.jobs_lose w
    · rw [hidle]
      rfl

end Dispatcher

end Uplink
