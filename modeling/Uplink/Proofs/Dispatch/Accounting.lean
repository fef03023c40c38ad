import Mathlib.Data.Set.Card
import Uplink.Proofs.Dispatch.Order
/-!
The accounts of the dispatcher: every job it took on was delivered, failed or lost, or is in the
queue or on its way.
-/
namespace Uplink

namespace Event

def crashesPost : Event → Bool
  | finished _ q => q.outcome = .crashed
  | _ => false

/-- The POST of a job crashes, or the hook does when it is called. -/
def crashes : Event → Bool
  | hooked _ crashed => crashed
  | e => e.crashesPost

end Event

namespace Hand

variable {hands : Task → Hand} {t : Task} {h : Hand}

def delivering (hands : Task → Hand) : Set Task := {t | (hands t).delivers}

theorem delivering_update_of_eq (hh : h.delivers = (hands t).delivers) :
    delivering (Function.update hands t h) = delivering hands := by
  ext u
  by_cases hu : u = t
  · subst hu
    simp [delivering, hh]
  · simp [delivering, hu]

theorem delivering_update_of_true (hh : h.delivers = true) :
    delivering (Function.update hands t h) = insert t (delivering hands) := by
  ext u
  by_cases hu : u = t
  · subst hu
    simp [delivering, hh]
  · simp [delivering, hu]

theorem delivering_update_of_false (hh : h.delivers = false) :
    delivering (Function.update hands t h) = delivering hands \ {t} := by
  ext u
  by_cases hu : u = t
  · subst hu
    simp [delivering, hh]
  · simp [delivering, hu]

end Hand

namespace Dispatcher

/-- How many jobs were taken on. -/
def begun (d : Dispatcher) : Nat := d.totals.queued + d.totals.fallback

/-- How many jobs are done, or still with the queue and the workers. -/
def kept (d : Dispatcher) : Nat := d.totals.delivered + d.totals.failed + d.queued.length + d.busy

variable {quits : Prop} {d d' : Dispatcher} {w : Nat} {j : Job} {q : Posting}

@[simp] theorem begun_start (d : Dispatcher) (workers capacity : Nat) :
    (d.start workers capacity).begun = d.begun := by
  simp [begun]

@[simp] theorem kept_start (d : Dispatcher) (workers capacity : Nat) :
    (d.start workers capacity).kept = d.kept := by
  simp [kept]

/-- A queued job is taken on and kept. -/
theorem begun_kept_offer (h : d.offer j = .ok d') :
    d'.begun = d.begun + 1 ∧ d'.kept = d.kept + 1 := by
  have htotals := totals_offer h
  have hqueued := queued_offer h
  have hbusy := busy_offer h
  simp only [begun, kept, htotals, hqueued, hbusy, List.length_append, List.length_singleton]
  omega

/-- A job that is diverted is taken on, and it is up to its submitter. -/
theorem begun_kept_countFallback (d : Dispatcher) :
    d.countFallback.begun = d.begun + 1 ∧ d.countFallback.kept = d.kept := ⟨rfl, rfl⟩

/-- The end of a POST counts, unless it crashed. -/
theorem begun_kept_countOutcome (d : Dispatcher) (o : Outcome) :
    (d.countOutcome o).begun = d.begun
      ∧ (d.countOutcome o).kept + (if o = .crashed then 1 else 0) = d.kept + 1 := by
  cases o with
  | accepted =>
    refine ⟨rfl, ?_⟩
    show d.totals.delivered + 1 + d.totals.failed + d.queued.length + d.busy = _
    unfold kept
    omega
  | failed e =>
    refine ⟨rfl, ?_⟩
    show d.totals.delivered + (d.totals.failed + 1) + d.queued.length + d.busy = _
    unfold kept
    omega
  | crashed => exact ⟨rfl, rfl⟩

theorem begun_kept_seek (h : d.seek w = (d', none)) : d'.begun = d.begun ∧ d'.kept = d.kept := by
  obtain ⟨hqueued, htotals, -, -⟩ := d.seek_eq w
  have hbusy := d.busy_seek w
  rw [h] at hqueued htotals hbusy
  dsimp only at hqueued htotals hbusy
  simp [begun, kept, hqueued, htotals, hbusy]

/-- A job that is taken goes from the queue to a worker. -/
theorem begun_kept_take (idle : d.worker? w = some .idle) (h : d.seek w = (d', some j))
    (q : Posting) : (d'.engage w q).begun = d.begun ∧ (d'.engage w q).kept = d.kept := by
  obtain ⟨hqueued, htotals, -, hworker⟩ := d.seek_eq w
  have hbusy := d.busy_seek w
  rw [h] at hqueued htotals hbusy hworker
  dsimp only at hqueued htotals hbusy hworker
  have hengage := busy_engage (d := d') (w := w) (by rw [hworker, idle]) q
  have hlength : d.queued.length = d'.queued.length + 1 := by simp [hqueued]
  simp only [begun, kept, totals_engage, queued_engage, hengage, htotals, hbusy, true_and]
  omega

/-- The POST of a worker is over: its job counts unless the POST crashed, and those in the queue
are gone if the queue is closed with it. -/
theorem begun_kept_release (busy : d.worker? w = some (.busy q)) :
    (d.release w q).begun = d.begun
      ∧ (d.release w q).kept + (if q.outcome = .crashed then 1 else 0)
          + (if (d.release w q).isClosed then d.queued.length else 0) = d.kept := by
  have hqueued := queued_release busy
  have hbusy := busy_release busy
  have htotals : (d.release w q).totals = d.totals.after q.outcome := by rw [release_eq]
  have hlength : (d.release w q).queued.length
      + (if (d.release w q).isClosed then d.queued.length else 0) = d.queued.length := by
    rw [hqueued]
    split <;> simp
  unfold begun kept
  rw [htotals]
  cases q.outcome <;> simp only [Totals.after, reduceCtorEq, if_true, if_false, true_and] <;> omega

end Dispatcher

namespace Ledger

/-- What is lost with the POST of a worker: its job if the POST crashed, and those in the queue if
the queue is closed with it. -/
theorem lost_finish {reports : List Event} (hreports : ∀ e ∈ reports, e.ofJobs = false) (w : Nat)
    (q : Posting) (l : Ledger) (closed : Bool) (jobs : List Job) :
    (enterAll ((if closed then [.dropped jobs] else []) ++ reports ++ [.finished (.worker w) q])
        l).lost
      = l.lost + (if q.outcome = .crashed then 1 else 0) + (if closed then jobs.length else 0) := by
  rw [List.append_assoc, enterAll_append, enterAll_finish hreports]
  cases closed with
  | true =>
    show l.crashed + _ + (l.dropped ++ jobs).length = _
    rw [List.length_append, if_pos rfl, lost]
    omega
  | false =>
    show l.crashed + _ + l.dropped.length = _
    simp only [lost, Bool.false_eq_true, if_false]
    omega

end Ledger

namespace Pipeline

/-- The jobs taken on are those done, those with the queue and the workers, those that their
submitters post, and those lost. -/
structure Balances (p : Pipeline) (hands : Task → Hand) : Prop where
  finite : (Hand.delivering hands).Finite
  balance : p.dispatcher.begun
    = p.dispatcher.kept + (Hand.delivering hands).ncard + p.journal.ledger.lost

theorem Balances.step {t : Task} {p p' : Pipeline} {h' : Hand} {hands : Task → Hand}
    (hs : Step quits t p (hands t) p' h') (hp : p.Balances hands) :
    p'.Balances (Function.update hands t h') := by
  obtain ⟨es, hes, hchange⟩ := hs.jobChange
  have hbalance := hp.balance
  have hledger := ledger_of_events hes
  generalize hl : p.journal.ledger = l at *
  suffices hsuff : (Hand.delivering (Function.update hands t h')).Finite
      ∧ p'.dispatcher.begun = p'.dispatcher.kept
        + (Hand.delivering (Function.update hands t h')).ncard + (Ledger.enterAll es l).lost from
    ⟨hsuff.1, by rw [hledger]; exact hsuff.2⟩
  generalize p'.dispatcher = d at hchange
  generalize hh : hands t = h at hchange
  cases hchange with
  | none _ hquiet hsame =>
    have hdelivers : h'.delivers = h.delivers := by
      rcases hsame with rfl | ⟨hbefore, hafter⟩
      · rfl
      · rw [hbefore, hafter]
    rw [Hand.delivering_update_of_eq (by rw [hh, hdelivers]),
      Ledger.enterAll_of_not_ofJobs hquiet]
    exact ⟨hp.finite, hbalance⟩
  | start workers capacity =>
    rw [Hand.delivering_update_of_eq (by rw [hh])]
    simpa using ⟨hp.finite, hbalance⟩
  | @queue c j d hc asks hd =>
    obtain ⟨hbegun, hkept⟩ := Dispatcher.begun_kept_offer hd
    rw [Hand.delivering_update_of_eq (by rw [hh]), hbegun, hkept, Ledger.enterAll_queue hc]
    refine ⟨hp.finite, ?_⟩
    show _ = _ + _ + l.lost
    simp only [Dispatcher.begun_start, Dispatcher.kept_start]
    omega
  | @divert c j refusal line q deadline within hc asks hd =>
    have hnew : t ∉ Hand.delivering hands := by simp [Hand.delivering, hh, Hand.delivers]
    rw [Hand.delivering_update_of_true rfl, Ledger.enterAll_divert hc,
      Set.ncard_insert_of_notMem hnew hp.finite]
    refine ⟨hp.finite.insert t, ?_⟩
    obtain ⟨hbegun, hkept⟩ := (p.dispatcher.start 0 0).begun_kept_countFallback
    rw [hbegun, hkept, Dispatcher.begun_start, Dispatcher.kept_start]
    show _ = _ + _ + l.lost
    omega
  | @deliver q =>
    have hold : t ∈ Hand.delivering hands := by simp [Hand.delivering, hh, Hand.delivers]
    have hcard := Set.ncard_sdiff_singleton_add_one hold hp.finite
    obtain ⟨hbegun, hkept⟩ := p.dispatcher.begun_kept_countOutcome q.outcome
    rw [Hand.delivering_update_of_false rfl]
    refine ⟨hp.finite.sdiff, ?_⟩
    show _ = _ + _ + (l.crashed + (if q.outcome = .crashed then 1 else 0) + l.dropped.length)
    unfold Ledger.lost at hbalance
    omega
  | @seek w d idle hd =>
    obtain ⟨hbegun, hkept⟩ := Dispatcher.begun_kept_seek hd
    rw [Hand.delivering_update_of_eq (by rw [hh]), hbegun, hkept]
    exact ⟨hp.finite, hbalance⟩
  | @take w d j q within idle hd =>
    obtain ⟨hbegun, hkept⟩ := Dispatcher.begun_kept_take idle hd q
    rw [Hand.delivering_update_of_eq (by rw [hh]), hbegun, hkept]
    exact ⟨hp.finite, hbalance⟩
  | @finish w q reports busy hreports hooked =>
    obtain ⟨hbegun, hkept⟩ := Dispatcher.begun_kept_release busy
    have hlost := Ledger.lost_finish hreports w q l
      (p.dispatcher.release w q).isClosed p.dispatcher.queued
    rw [Hand.delivering_update_of_eq (by rw [hh])]
    refine ⟨hp.finite, ?_⟩
    omega

theorem balances_of_fresh {p : Pipeline} (hp : p.Fresh) : p.Balances fun _ => .free := by
  obtain ⟨settings, hd⟩ := hp.dispatcher
  have hnone : Hand.delivering (fun _ => .free) = ∅ := by simp [Hand.delivering, Hand.delivers]
  refine ⟨hnone ▸ Set.finite_empty, ?_⟩
  rw [hnone, hp.ledger_eq, hd, Set.ncard_empty]
  rfl

theorem invariant_balances : Invariant Balances :=
  .of_timeless (fun hs hp => hp.step hs) fun _ _ _ _ _ hp => ⟨hp.finite, hp.balance⟩

/-- Every job that was submitted was taken on, either way. -/
def CountsPushes (p : Pipeline) : Prop :=
  p.dispatcher.begun = p.journal.ledger.pushes.length

theorem CountsPushes.step {t : Task} {p p' : Pipeline} {h h' : Hand} (hs : Step quits t p h p' h')
    (hp : p.CountsPushes) : p'.CountsPushes := by
  obtain ⟨es, hes, hchange⟩ := hs.jobChange
  unfold CountsPushes at hp ⊢
  rw [ledger_of_events hes]
  generalize p.journal.ledger = l at *
  generalize p'.dispatcher = d at hchange
  cases hchange with
  | none _ hquiet _ => rwa [Ledger.enterAll_of_not_ofJobs hquiet]
  | start workers capacity => rwa [Dispatcher.begun_start]
  | queue hc asks hd =>
    rw [(Dispatcher.begun_kept_offer hd).1, Dispatcher.begun_start, hp, Ledger.enterAll_queue hc]
    simp only [List.length_append, List.length_singleton]
  | divert q deadline within hc asks hd =>
    rw [(Dispatcher.begun_kept_countFallback _).1, Dispatcher.begun_start, hp,
      Ledger.enterAll_divert hc]
    simp only [List.length_append, List.length_singleton]
  | @deliver q => exact (p.dispatcher.begun_kept_countOutcome q.outcome).1.trans hp
  | seek idle hd => exact (Dispatcher.begun_kept_seek hd).1.trans hp
  | take q within idle hd => exact (Dispatcher.begun_kept_take idle hd q).1.trans hp
  | @finish w q reports busy hreports hooked =>
    rw [(Dispatcher.begun_kept_release busy).1, hp, List.append_assoc,
      Ledger.enterAll_append, Ledger.enterAll_finish hreports]
    split <;> rfl

theorem countsPushes_of_fresh {p : Pipeline} (hp : p.Fresh) : p.CountsPushes := by
  obtain ⟨settings, hd⟩ := hp.dispatcher
  unfold CountsPushes
  rw [hd, hp.ledger_eq]
  rfl

theorem invariant_countsPushes : Invariant fun p _ => p.CountsPushes :=
  .of_timeless (fun hs hp => hp.step hs) fun _ _ _ _ _ hp => hp

end Pipeline

/-! ### Runs in which nothing crashes -/

namespace Dispatcher

/-- All workers that were started are there. -/
def Whole (d : Dispatcher) : Prop :=
  ∀ p, d.pool = some p → p.workers ≠ [] ∧ ∀ w ∈ p.workers, w.isLost = false

variable {quits : Prop} {d d' : Dispatcher}

theorem Whole.isClosed (h : d.Whole) : d.isClosed = false := by
  unfold Dispatcher.isClosed
  cases hp : d.pool with
  | none => rfl
  | some p =>
    obtain ⟨hne, halive⟩ := h p hp
    obtain ⟨w, hw⟩ := List.exists_mem_of_ne_nil _ hne
    show p.workers.all Worker.isLost = false
    exact List.all_eq_false.mpr ⟨w, hw, by simp [halive w hw]⟩

/-- Only the workers matter. -/
theorem Whole.of_workers (h : d.Whole)
    (hd : ∀ p', d'.pool = some p' → ∃ p, d.pool = some p ∧ p'.workers = p.workers) : d'.Whole := by
  intro p' hp'
  obtain ⟨p, hp, hw⟩ := hd p' hp'
  exact hw ▸ h p hp

theorem Whole.start (h : d.Whole) (workers capacity : Nat) : (d.start workers capacity).Whole := by
  obtain ⟨pool, heq, rfl | ⟨-, n, hn, c, rfl⟩⟩ := d.start_eq workers capacity
  · rw [heq]
    exact h
  · intro p hp
    rw [heq] at hp
    cases hp
    refine ⟨fun hnil => ?_, fun w hw => ?_⟩
    · exact Nat.ne_of_gt hn (List.replicate_eq_nil_iff _ |>.mp hnil)
    · exact (List.mem_replicate.mp hw).2 ▸ rfl

theorem Whole.offer {j : Job} (h : d.Whole) (hd : d.offer j = .ok d') : d'.Whole := by
  obtain ⟨p, hp, -, -, rfl⟩ := offer_eq hd
  exact h.of_workers fun p' hp' => ⟨p, hp, by cases hp'; rfl⟩

theorem Whole.seek (h : d.Whole) (w : Nat) : (d.seek w).1.Whole := by
  refine h.of_workers fun p' hp' => ?_
  unfold Dispatcher.seek at hp'
  split at hp'
  next hp => exact ⟨p', hp', rfl⟩
  next p hp => exact ⟨p, hp, by cases hp'; exact p.workers_seek w⟩

/-- A worker that is there may begin or end a POST. -/
theorem Whole.assign (h : d.Whole) (w : Nat) {worker : Worker} (hw : worker.isLost = false) :
    (d.updatePool (·.assign w worker)).Whole := by
  intro p' hp'
  obtain ⟨p, hp, rfl⟩ := Option.map_eq_some_iff.mp hp'
  obtain ⟨hne, halive⟩ := h p hp
  refine ⟨by simpa [Pool.assign] using hne, fun v hv => ?_⟩
  rcases List.mem_or_eq_of_mem_set hv with hv | rfl
  · exact halive v hv
  · exact hw

theorem Whole.release (h : d.Whole) (w : Nat) {q : Posting} (hq : d.losesWorker q = false) :
    (d.release w q).Whole := by
  rw [release_eq, hq]
  exact h.assign w rfl

end Dispatcher

namespace Pipeline

/-- No worker is lost unless something crashes. -/
def Unharmed (p : Pipeline) : Prop :=
  (∀ e ∈ p.journal.events, e.crashes = false) → p.dispatcher.Whole

theorem Unharmed.step {t : Task} {p p' : Pipeline} {h h' : Hand} (hs : Step quits t p h p' h')
    (hp : p.Unharmed) : p'.Unharmed := by
  obtain ⟨es, hes, hchange⟩ := hs.jobChange
  intro calm
  rw [hes] at calm
  have hwhole := hp fun e he => calm e (List.mem_append_right _ he)
  have hstart := hwhole.start 0 0
  generalize p'.dispatcher = d at hchange
  cases hchange with
  | none _ _ _ => exact hwhole
  | start workers capacity => exact hwhole.start workers capacity
  | queue _ _ hd => exact hstart.offer hd
  | divert _ _ _ _ _ _ => exact hstart
  | deliver =>
    rw [Dispatcher.countOutcome_eq]
    exact hwhole
  | @seek w d idle hd =>
    have hseek := hwhole.seek w
    rwa [hd] at hseek
  | @take w d j q within idle hd =>
    have hseek := hwhole.seek w
    rw [hd] at hseek
    exact hseek.assign w rfl
  | @finish w q reports busy hreports hooked =>
    refine hwhole.release w ?_
    have hpost : q.outcome ≠ .crashed := by
      simpa [Event.crashes, Event.crashesPost] using calm (.finished (.worker w) q) (by simp)
    have hhook : (p.dispatcher.failure? q).any p.dispatcher.hookCrashes = false := by
      cases hf : p.dispatcher.failure? q with
      | none => rfl
      | some f =>
        obtain ⟨k, hk⟩ := hooked f hf
        exact calm (.hooked k (p.dispatcher.hookCrashes f)) (by simp [hk])
    simp [Dispatcher.losesWorker, hpost, hhook]

theorem unharmed_of_fresh {p : Pipeline} (hp : p.Fresh) : p.Unharmed := by
  obtain ⟨settings, hd⟩ := hp.dispatcher
  intro _ pool hpool
  rw [hd] at hpool
  exact absurd hpool (by simp [Dispatcher.create])

theorem invariant_unharmed : Invariant fun p _ => p.Unharmed :=
  .of_timeless (fun hs hp => hp.step hs) fun _ _ _ _ _ hp => hp

end Pipeline

namespace Ledger

theorem crashed_enter {e : Event} (h : e.crashesPost = false) (l : Ledger) :
    (enter e l).crashed = l.crashed := by
  unfold enter
  split
  all_goals first | rfl | (split <;> rfl) | simp_all [Event.crashesPost]

theorem crashed_enterAll {es : List Event} (h : ∀ e ∈ es, e.crashesPost = false) (l : Ledger) :
    (enterAll es l).crashed = l.crashed :=
  List.foldrRecOn (motive := fun l' => l'.crashed = l.crashed) es enter rfl fun l' hl e he =>
    (crashed_enter (h e he) l').trans hl

end Ledger

namespace Session

/-- At every point of every session the jobs taken on are those delivered, those failed, those in
the queue, those that workers or submitters post, and those lost.  None is lost in a run in which
neither a POST nor the hook crashes, so that all are delivered or failed when none is on its way;
and while a worker is left, a crash of the hook loses none. -/
theorem jobs_balance {s : Session} (h : s.Reachable) :
    ((Hand.delivering s.hand).Finite
      ∧ s.dispatcher.totals.queued + s.dispatcher.totals.fallback
        = s.dispatcher.totals.delivered + s.dispatcher.totals.failed
          + s.dispatcher.queued.length + s.dispatcher.busy + (Hand.delivering s.hand).ncard
          + s.journal.ledger.lost)
    ∧ ((∀ e ∈ s.journal.events, e.crashes = false) →
      s.journal.ledger.lost = 0
      ∧ (s.dispatcher.queued = [] → s.dispatcher.busy = 0 → Hand.delivering s.hand = ∅ →
        s.dispatcher.totals.queued + s.dispatcher.totals.fallback
          = s.dispatcher.totals.delivered + s.dispatcher.totals.failed))
    ∧ ((∀ e ∈ s.journal.events, e.crashesPost = false) → s.dispatcher.isClosed = false →
      s.journal.ledger.lost = 0) := by
  have hbalances := h.keeps Pipeline.invariant_balances fun _ hp => Pipeline.balances_of_fresh hp
  have horderly := h.keeps Pipeline.invariant_orderly fun _ hp => Pipeline.orderly_of_fresh hp
  have hbalance := hbalances.balance
  unfold Dispatcher.begun Dispatcher.kept at hbalance
  have hlost (posts : ∀ e ∈ s.journal.events, e.crashesPost = false)
      (alive : s.dispatcher.isClosed = false) : s.journal.ledger.lost = 0 := by
    have hcrashed : s.journal.ledger.crashed = 0 := Ledger.crashed_enterAll posts {}
    simp [Ledger.lost, hcrashed, horderly.alive alive]
  refine ⟨⟨hbalances.finite, hbalance⟩, fun calm => ?_, hlost⟩
  have hwhole := h.keeps Pipeline.invariant_unharmed
    (fun _ hp => Pipeline.unharmed_of_fresh hp) calm
  have hposts : ∀ e ∈ s.journal.events, e.crashesPost = false := fun e he => by
    have hcalm := calm e he
    cases e <;> first | exact hcalm | rfl
  have hnone := hlost hposts hwhole.isClosed
  refine ⟨hnone, fun hqueued hbusy hdelivering => ?_⟩
  rw [hqueued, hbusy, hdelivering, Set.ncard_empty, hnone] at hbalance
  exact hbalance

/-- One worker and a queue for one job, of three: the POST of the first fails after five
milliseconds, the second one waits for it, and the third is posted by its submitter. -/
def drained : Session :=
  (create .partsStarted { dispatch := { workers := 1, queueCapacity := 1, hook := some .notes } }
    {} {} [⟨"one", [.status ⟨500⟩ 5]⟩] {}).follow
    [.turn (.worker 0),
      .start (.background (.submit "one" (some [1]) .zero)), .turn (.caller 0), .turn (.worker 0),
      .start (.background (.submit "two" (some [2]) .zero)), .turn (.caller 1),
      .start (.background (.submit "three" (some [3]) .zero)), .turn (.caller 2),
      .elapse 5, .turn (.worker 0), .turn (.worker 0)]

theorem jobs_balance_drained :
    drained.dispatcher.totals = { queued := 2, fallback := 1, delivered := 2, failed := 1 }
      ∧ drained.journal.ledger.lost = 0 := by
  have h := jobs_balance (s := drained) ⟨_, _, _, _, _, _, _, _, rfl⟩
  exact ⟨by decide +kernel, (h.2.1 (by decide +kernel)).1⟩

end Session

end Uplink
