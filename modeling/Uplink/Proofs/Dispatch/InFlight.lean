import Mathlib.Data.List.Nodup
import Mathlib.Data.List.Perm.Subperm
import Uplink.Proofs.Dispatch.Attendance
import Uplink.Proofs.Dispatch.Ledger
import Uplink.Proofs.Session.Course
import Uplink.Proofs.Session.Labor
/-!
POSTs of jobs under way.  The journal tells which were begun and are not over; each of them is the
POST that a worker is busy with or that the submitter of its job waits for.  None of them outlasts
its deadline, and while there are jobs in the queue no worker is left that does not post.
-/
namespace Uplink

namespace Event

/-- Enters the POST of a job with its task, or takes out the one that is over. -/
def track : Event → List (Task × Aim × PostEntry) → List (Task × Aim × PostEntry)
  | .posted t .delivery e, l => l ++ [(t, .delivery, e)]
  | .posted t .fallback e, l => l ++ [(t, .fallback, e)]
  | .finished t _, l => l.eraseP (·.1 = t)
  | _, l => l

theorem track_of_not_ofJobs {e : Event} (h : e.ofJobs = false)
    (l : List (Task × Aim × PostEntry)) : e.track l = l := by
  unfold ofJobs at h
  split at h <;> first | contradiction | (unfold track; split <;> simp_all)

end Event

namespace Journal

/-- The POSTs of jobs that were begun and are not over, with their tasks, in the order in which
they were begun. -/
def inFlight (j : Journal) : List (Task × Aim × PostEntry) := j.events.foldr Event.track []

end Journal

namespace Dispatcher

def alive (d : Dispatcher) : Nat := (d.pool.map fun p => p.workers.countP (!·.isLost)).getD 0

def isAlive (d : Dispatcher) (w : Nat) : Bool := (d.worker? w).any (!·.isLost)

variable {d : Dispatcher} {w : Nat} {q : Posting}

/-- Workers that are started do not post yet. -/
theorem worker?_start_eq_busy (workers capacity : Nat) :
    (d.start workers capacity).worker? w = some (.busy q) ↔ d.worker? w = some (.busy q) := by
  obtain ⟨pool, heq, rfl | ⟨hp, n, -, c, rfl⟩⟩ := d.start_eq workers capacity
  · rw [heq]
  · simp [heq, worker?, hp, Pool.create, List.getElem?_replicate]

theorem workerTimeout_start (d : Dispatcher) (workers capacity : Nat) :
    (d.start workers capacity).workerTimeout = d.workerTimeout := by
  obtain ⟨pool, heq, -⟩ := d.start_eq workers capacity
  rw [heq]

theorem workerTimeout_seek (d : Dispatcher) (w : Nat) :
    (d.seek w).1.workerTimeout = d.workerTimeout := by
  unfold seek
  split <;> rfl

/-- Different workers that are not lost are no more than the workers that are left. -/
theorem length_le_alive {tasks : List Task} (hnodup : tasks.Nodup)
    (hmem : ∀ t ∈ tasks, ∃ w, t = .worker w ∧ d.isAlive w) : tasks.length ≤ d.alive := by
  cases hp : d.pool with
  | none =>
    have hnil : tasks = [] := List.eq_nil_iff_forall_not_mem.mpr fun t ht => by
      obtain ⟨w, -, hw⟩ := hmem t ht
      simp [isAlive, worker?, hp] at hw
    simp [hnil]
  | some p =>
    let alive := p.workers.zipIdx.filter fun worker => !worker.1.isLost
    have hsubset : tasks ⊆ alive.map fun worker => .worker worker.2 := fun t ht => by
      obtain ⟨w, rfl, hw⟩ := hmem t ht
      obtain ⟨worker, hworker, hlost⟩ := (Option.any_eq_true _ _).mp hw
      refine List.mem_map.mpr ⟨(worker, w), List.mem_filter.mpr ⟨?_, hlost⟩, rfl⟩
      rw [List.mem_zipIdx_iff_getElem?]
      simpa [worker?, hp] using hworker
    have hlength : alive.length = d.alive := by
      have hworkers : (p.workers.zipIdx.map Prod.fst) = p.workers := List.zipIdx_map_fst 0 p.workers
      unfold Dispatcher.alive
      rw [hp, Option.map_some, Option.getD_some, ← hworkers, List.countP_map,
        List.countP_eq_length_filter]
      simp [alive, Function.comp_def]
    have hle := (hnodup.subperm hsubset).length_le
    rwa [List.length_map, hlength] at hle

end Dispatcher

namespace Pipeline

variable {t : Task} {w : Nat} {p p' : Pipeline} {h h' : Hand} {hands : Task → Hand}

/-! ### What the journal tracks -/

/-- A task posts a job: a worker one it took, within the deadline, or a submitter its own. -/
inductive Posts (d : Dispatcher) (hands : Task → Hand) : Task → Aim → PostEntry → Prop
  | worker {w q e} (busy : d.worker? w = some (.busy q))
    (within : q.due ≤ e.time + e.deadline.millis) : Posts d hands (.worker w) .delivery e
  | submitter {t q e} (waits : hands t = .waiting (.delivering q))
    (within : q.due ≤ e.time + e.deadline.millis) : Posts d hands t .fallback e

/-- The POSTs of jobs that the journal has under way are those that tasks wait for. -/
structure Tracked (l : List (Task × Aim × PostEntry)) (d : Dispatcher) (hands : Task → Hand) :
    Prop where
  nodup : (l.map Prod.fst).Nodup
  posts : ∀ t aim e, (t, aim, e) ∈ l → Posts d hands t aim e
  working : ∀ w q, d.worker? w = some (.busy q) → ∃ e, (.worker w, .delivery, e) ∈ l

variable {quits : Prop} {l : List (Task × Aim × PostEntry)} {d d' : Dispatcher}

/-- Only the POSTs that are waited for matter. -/
theorem Tracked.congr {hands' : Task → Hand} (hl : Tracked l d hands)
    (hbusy : ∀ w q, d'.worker? w = some (.busy q) ↔ d.worker? w = some (.busy q))
    (hwaits : ∀ t q, hands t = .waiting (.delivering q) → hands' t = .waiting (.delivering q)) :
    Tracked l d' hands' where
  nodup := hl.nodup
  posts t aim e hmem := by
    cases hl.posts t aim e hmem with
    | worker busy within => exact .worker ((hbusy _ _).mpr busy) within
    | submitter waits within => exact .submitter (hwaits _ _ waits) within
  working w q hq := hl.working w q ((hbusy w q).mp hq)

/-- A POST is begun by a task that has none under way. -/
theorem Tracked.begin {hands' : Task → Hand} {aim : Aim} {e : PostEntry}
    (hl : Tracked l d hands) (hnew : t ∉ l.map Prod.fst) (hposts : Posts d' hands' t aim e)
    (hbusy : ∀ w q, .worker w ≠ t →
      (d'.worker? w = some (.busy q) ↔ d.worker? w = some (.busy q)))
    (hworking : ∀ w q, t = .worker w → d'.worker? w = some (.busy q) → aim = .delivery)
    (hwaits : ∀ u, u ≠ t → hands' u = hands u) :
    Tracked (l ++ [(t, aim, e)]) d' hands' where
  nodup := by
    rw [List.map_append, List.nodup_append]
    refine ⟨hl.nodup, List.nodup_singleton _, fun u hu v hv => ?_⟩
    rintro rfl
    exact hnew ((List.mem_singleton.mp hv : u = t) ▸ hu)
  posts u aim' e' hmem := by
    rcases List.mem_append.mp hmem with hmem | hmem
    · have hu : u ≠ t := fun hut => hnew (hut ▸ List.mem_map_of_mem hmem)
      cases hl.posts u aim' e' hmem with
      | worker busy within => exact .worker ((hbusy _ _ hu).mpr busy) within
      | submitter waits within => exact .submitter ((hwaits u hu).trans waits) within
    · cases List.mem_singleton.mp hmem
      exact hposts
  working w q hq := by
    by_cases hw : .worker w = t
    · exact ⟨e, List.mem_append_right _ (by rw [hw, hworking w q hw.symm hq]; simp)⟩
    · obtain ⟨e', he'⟩ := hl.working w q ((hbusy w q hw).mp hq)
      exact ⟨e', List.mem_append_left _ he'⟩

theorem mem_eraseP_fst {β : Type} {l : List (Task × β)} (hnodup : (l.map Prod.fst).Nodup)
    {t : Task} {x : Task × β} : x ∈ l.eraseP (·.1 = t) ↔ x ∈ l ∧ x.1 ≠ t := by
  induction l with
  | nil => simp
  | cons y l ih =>
    obtain ⟨hy, hrest⟩ := List.nodup_cons.mp hnodup
    by_cases hyt : y.1 = t
    · rw [List.eraseP_cons_of_pos (by simpa using hyt), List.mem_cons]
      refine ⟨fun hx => ⟨.inr hx, fun hxt => hy ?_⟩, fun hx => hx.1.resolve_left ?_⟩
      · exact (hxt.trans hyt.symm) ▸ List.mem_map_of_mem hx
      · rintro rfl
        exact hx.2 hyt
    · rw [List.eraseP_cons_of_neg (by simpa using hyt), List.mem_cons, List.mem_cons, ih hrest]
      refine ⟨fun hx => ?_, fun hx => hx.1.imp_right fun hmem => ⟨hmem, hx.2⟩⟩
      rcases hx with rfl | hx
      · exact ⟨.inl rfl, hyt⟩
      · exact ⟨.inr hx.1, hx.2⟩

/-- The POST of a task is over. -/
theorem Tracked.finish {hands' : Task → Hand} (hl : Tracked l d hands)
    (hbusy : ∀ w q, .worker w ≠ t →
      (d'.worker? w = some (.busy q) ↔ d.worker? w = some (.busy q)))
    (hidle : ∀ w q, t = .worker w → d'.worker? w ≠ some (.busy q))
    (hwaits : ∀ u, u ≠ t → hands' u = hands u) :
    Tracked (l.eraseP (·.1 = t)) d' hands' where
  nodup := hl.nodup.sublist (List.eraseP_sublist.map _)
  posts u aim e hmem := by
    obtain ⟨hmem, hu⟩ := (mem_eraseP_fst hl.nodup).mp hmem
    cases hl.posts u aim e hmem with
    | worker busy within => exact .worker ((hbusy _ _ hu).mpr busy) within
    | submitter waits within => exact .submitter ((hwaits u hu).trans waits) within
  working w q hq := by
    have hw : .worker w ≠ t := fun hwt => hidle w q hwt.symm hq
    obtain ⟨e, he⟩ := hl.working w q ((hbusy w q hw).mp hq)
    exact ⟨e, (mem_eraseP_fst hl.nodup).mpr ⟨he, hw⟩⟩

theorem Tracked.start (hl : Tracked l d hands) (workers capacity : Nat) :
    Tracked l (d.start workers capacity) hands :=
  hl.congr (fun _ _ => d.worker?_start_eq_busy workers capacity) fun _ _ => id

/-- A task with nothing in hand that is not a busy worker has no POST under way. -/
theorem Tracked.not_mem (hl : Tracked l d hands) (hfree : hands t = .free)
    (hidle : ∀ w q, t = .worker w → d.worker? w ≠ some (.busy q)) : t ∉ l.map Prod.fst := by
  intro ht
  obtain ⟨⟨u, aim, e⟩, hmem, rfl⟩ := List.mem_map.mp ht
  cases hl.posts u aim e hmem with
  | worker busy _ => exact hidle _ _ rfl busy
  | submitter waits _ => exact absurd (hfree.symm.trans waits) (by simp)

theorem foldr_track {es : List Event} (h : ∀ e ∈ es, e.ofJobs = false) :
    es.foldr Event.track l = l :=
  List.foldrRecOn (motive := (· = l)) es Event.track rfl fun l' hl e he =>
    (Event.track_of_not_ofJobs (h e he) l').trans hl

/-- What a step enters is what its task posts, as long as workers hold nothing in hand. -/
theorem JobChange.tracked {es : List Event} (hc : JobChange t p h d es h')
    (hh : hands t = h) (hworkers : ∀ w, hands (.worker w) = .free)
    (hworker : ∀ w, t = .worker w → h' = .free) (hl : Tracked l p.dispatcher hands) :
    Tracked (es.foldr Event.track l) d (Function.update hands t h') := by
  have hothers (u : Task) (hu : u ≠ t) : Function.update hands t h' u = hands u :=
    Function.update_of_ne hu _ _
  have hsame (hh' : h' = h) : Function.update hands t h' = hands := by
    rw [hh', ← hh, Function.update_eq_self]
  cases hc with
  | none _ hquiet hkeep =>
    rw [foldr_track hquiet]
    refine hl.congr (fun _ _ => Iff.rfl) fun u q hu => ?_
    by_cases hut : u = t
    · subst hut
      rw [Function.update_self]
      rcases hkeep with rfl | ⟨hbefore, -⟩
      · exact hh ▸ hu
      · rw [← hh, hu] at hbefore
        exact absurd hbefore (by simp [Hand.delivers])
    · exact (hothers u hut).trans hu
  | start workers capacity =>
    rw [hsame rfl]
    exact hl.start workers capacity
  | queue hc asks hd =>
    rw [hsame rfl]
    refine (hl.start 0 0).congr (fun w q => ?_) fun _ _ => id
    rw [Dispatcher.worker?_offer hd]
  | @divert c j refusal line q deadline within hc asks hd =>
    have hnot (w : Nat) : t ≠ .worker w := fun hw => by simpa using hworker w hw
    refine (hl.start 0 0).begin ((hl.start 0 0).not_mem hh fun w q hw => absurd hw (hnot w))
      (.submitter (Function.update_self _ _ _) within) (fun _ _ _ => Iff.rfl)
      (fun w q hw => absurd hw (hnot w)) hothers
  | @deliver q =>
    have hnot (w : Nat) : t ≠ .worker w := fun hw => by
      rw [hw, hworkers] at hh
      simp at hh
    refine hl.finish (fun w q' _ => ?_) (fun w q' hw => absurd hw (hnot w)) hothers
    rw [Dispatcher.countOutcome_eq]
    rfl
  | @seek w _ idle hd =>
    rw [hsame rfl]
    refine hl.congr (fun v q => ?_) fun _ _ => id
    have hkeep := (p.dispatcher.seek_eq w).2.2.2 v
    rw [hd] at hkeep
    rw [hkeep]
  | @take w d j q within idle hd =>
    have hkeep (v : Nat) : d.worker? v = p.dispatcher.worker? v := by
      have hkeep := (p.dispatcher.seek_eq w).2.2.2 v
      rwa [hd] at hkeep
    rw [hsame rfl]
    refine hl.begin (hl.not_mem (hworkers w) fun v q' hv => ?_)
      (.worker (Dispatcher.worker?_engage (by simp [hkeep, idle]) q) within)
      (fun v q' hv => ?_) (fun _ _ _ _ => rfl) fun _ _ => rfl
    · cases hv
      simp [idle]
    · rw [Dispatcher.worker?_engage_of_ne (fun hvw => hv (by rw [hvw])), hkeep]
  | @finish w q reports busy hreports hooked =>
    have hdropped (l : List (Task × Aim × PostEntry)) :
        (if (p.dispatcher.release w q).isClosed
          then [Event.dropped p.dispatcher.queued] else []).foldr Event.track l = l := by
      split <;> rfl
    rw [hsame rfl, List.foldr_append, List.foldr_append, hdropped, foldr_track hreports]
    refine hl.finish (fun v q' hv => ?_) (fun v q' hv => ?_) fun _ _ => rfl
    · rw [Dispatcher.worker?_release_of_ne fun hvw => hv (by rw [hvw])]
    · cases hv
      exact Dispatcher.worker?_release _ q'

theorem workInvariant_tracked :
    WorkInvariant fun p hands => Tracked p.journal.inFlight p.dispatcher hands :=
  by
  refine .of_timeless (fun {_ t p p' h' hands} hs hworkers hworker hp => ?_) fun _ _ _ _ _ hp => hp
  obtain ⟨es, hes, hchange⟩ := hs.jobChange
  have hevents : p'.journal.inFlight = es.foldr Event.track p.journal.inFlight := by
    unfold Journal.inFlight
    rw [hes, List.foldr_append]
  rw [hevents]
  exact hchange.tracked rfl hworkers hworker hp

theorem tracked_of_fresh (hp : p.Fresh) :
    Tracked p.journal.inFlight p.dispatcher fun _ => .free := by
  obtain ⟨settings, hd⟩ := hp.dispatcher
  have hnone : p.journal.inFlight = [] := by
    unfold Journal.inFlight
    rw [hp.events]
    rfl
  rw [hnone, hd]
  exact {
    nodup := List.nodup_nil
    posts := fun t aim e hmem => absurd hmem List.not_mem_nil
    working := fun w q hq => nomatch hq }

/-! ### Deadlines of workers -/

theorem JobChange.workerTimeout_eq {es : List Event} (hc : JobChange t p h d es h') :
    d.workerTimeout = p.dispatcher.workerTimeout := by
  cases hc with
  | none _ _ _ => rfl
  | start workers capacity => exact p.dispatcher.workerTimeout_start workers capacity
  | queue _ _ hd =>
    obtain ⟨_, -, -, -, rfl⟩ := Dispatcher.offer_eq hd
    exact p.dispatcher.workerTimeout_start 0 0
  | divert _ _ _ _ _ _ => exact p.dispatcher.workerTimeout_start 0 0
  | deliver => rw [Dispatcher.countOutcome_eq]
  | @seek w _ idle hd =>
    exact (congrArg (·.1.workerTimeout) hd).symm.trans (p.dispatcher.workerTimeout_seek w)
  | @take w d j q within idle hd =>
    exact (congrArg (·.1.workerTimeout) hd).symm.trans (p.dispatcher.workerTimeout_seek w)
  | finish _ _ _ => rw [Dispatcher.release_eq]

/-- All POSTs of workers have the deadline of the dispatcher. -/
def Timely (timeout : Duration) (p : Pipeline) : Prop :=
  p.dispatcher.workerTimeout = timeout ∧ ∀ t e, .posted t .delivery e ∈ p.journal.events →
    (∃ w, t = .worker w) ∧ e.deadline = timeout

theorem Timely.step {timeout : Duration} (hs : Step quits t p h p' h') (hp : p.Timely timeout) :
    p'.Timely timeout := by
  obtain ⟨htimeout, hposted⟩ := hp
  obtain ⟨es, hes, hchange⟩ := hs.jobChange
  refine ⟨hchange.workerTimeout_eq.trans htimeout, fun u e hmem => ?_⟩
  rw [hes] at hmem
  rcases List.mem_append.mp hmem with hmem | hmem
  · obtain ⟨w, j, d, q, -, hd, -, rfl⟩ := hchange.exists_take hmem rfl
    have hseek := p.dispatcher.workerTimeout_seek w
    rw [hd] at hseek
    rcases List.mem_pair.mp hmem with heq | heq
    · cases heq
      exact ⟨⟨w, rfl⟩, hseek.trans htimeout⟩
    · cases heq
  · exact hposted u e hmem

theorem invariant_timely (timeout : Duration) : Invariant fun p _ => p.Timely timeout :=
  .of_timeless (fun hs hp => hp.step hs) fun _ _ _ _ _ hp => hp

end Pipeline

namespace Session

open Pipeline

variable {s : Session}

def Tracked (s : Session) : Prop := Pipeline.Tracked s.journal.inFlight s.dispatcher s.hand

/-- At every point of every session the journal tracks the POSTs of jobs. -/
theorem Reachable.tracked (h : s.Reachable) : s.Tracked :=
  h.keepsWork workInvariant_tracked fun _ => tracked_of_fresh

/-- A POST that was begun less than its deadline ago, in milliseconds counted up, was. -/
theorem lt_of_lt_due {now due begun : Nat} {deadline : Duration} (hnow : now < due)
    (hdue : due ≤ begun + deadline.millis) :
    now * 1000000 < begun * 1000000 + deadline.nanos := by
  unfold Duration.millis at hdue
  omega

/-- The workers that post at any time are no more than those that are left, and they post with the
deadline of the dispatcher, whatever deadlines their jobs were submitted with.  Where no task can go
on, and tasks always come there before time moves, every worker that is left posts if there are jobs
in the queue, and every POST of a job that is under way was begun less than its deadline ago. -/
theorem workers_diligent {a : Assembly} {settings : Settings} {identity : Identity} {clock : Clock}
    {receiver : Receiver} {demo : AgentConfig} {chance : Chance}
    (h : (create a settings identity clock receiver demo chance).ComesTo s) :
    (s.journal.inFlight.countP (·.2.1 = .delivery) ≤ s.dispatcher.alive
      ∧ ∀ t e, .posted t .delivery e ∈ s.journal.events → (∃ w, t = .worker w)
        ∧ e.deadline = (if a.configures then settings.dispatch.workerTimeout
          else .ofSecs 3).orDefault (.ofSecs 3))
    ∧ (s.settle.ready = [] ∧ s.settle.now = s.now)
    ∧ (s.ready = [] →
      (s.dispatcher.queued ≠ [] → ∀ w, s.dispatcher.isAlive w →
        ∃ e, (.worker w, .delivery, e) ∈ s.journal.inFlight)
      ∧ ∀ t aim e, (t, aim, e) ∈ s.journal.inFlight →
        s.now * 1000000 < e.time * 1000000 + e.deadline.nanos) := by
  have hreachable : s.Reachable := ⟨a, settings, identity, clock, receiver, demo, chance, h⟩
  have htracked := hreachable.tracked
  have hposted : s.toPipeline.Timely ((if a.configures then settings.dispatch.workerTimeout
      else .ofSecs 3).orDefault (.ofSecs 3)) := by
    refine keeps_of_create (invariant_timely _) ⟨?_, fun t e he => absurd he List.not_mem_nil⟩ h
    show (Dispatcher.create (if a.configures then settings.dispatch else {})).workerTimeout = _
    cases a.configures <;> rfl
  refine ⟨⟨?_, hposted.2⟩, ⟨hreachable.ready_settle, now_settle s⟩, fun settled => ⟨?_, ?_⟩⟩
  · rw [List.countP_eq_length_filter, ← List.length_map (f := Prod.fst)]
    refine Dispatcher.length_le_alive (htracked.nodup.sublist (List.filter_sublist.map _))
      fun t ht => ?_
    obtain ⟨⟨t, aim, e⟩, hmem, rfl⟩ := List.mem_map.mp ht
    obtain ⟨hmem, haim⟩ := List.mem_filter.mp hmem
    cases htracked.posts t aim e hmem with
    | worker busy _ => exact ⟨_, rfl, by simp [Dispatcher.isAlive, busy, Worker.isLost]⟩
    | submitter _ _ => simp at haim
  · intro hqueued w hw
    obtain ⟨worker, hworker, alive⟩ := (Option.any_eq_true _ _).mp hw
    obtain ⟨q, rfl⟩ := hreachable.exists_busy settled hqueued hworker (by simpa using alive)
    exact htracked.working w q hworker
  · intro t aim e hmem
    have later {t : Task} {q : Posting} (ha : s.toPipeline.Awaits t q) : s.now < q.due := by
      rcases ha with hlt | hdue
      · exact hlt.1
      · simp [settled] at hdue
    cases htracked.posts t aim e hmem with
    | worker busy within =>
      exact lt_of_lt_due (later (hreachable.attends.busy _ _ (by simp) busy)) within
    | submitter waits within =>
      exact lt_of_lt_due (later (hreachable.awaits t _ (by rw [waits]; rfl))) within

/-- One worker, a queue for one job, no deadline of its own for the worker, and a receiver that
never answers: the worker posts the first job, the second one is in the queue, and the submitter of
the third one posts it for a while longer. -/
def stalled : Session :=
  (create .partsStarted
    { dispatch := { workers := 1, queueCapacity := 1, workerTimeout := .zero } } {} {}
    [⟨"", [.hang]⟩] {}).follow
    [.turn (.worker 0),
      .start (.background (.submit "one" (some [1]) (.ofSecs 60))), .turn (.caller 0),
      .turn (.worker 0),
      .start (.background (.submit "two" (some [2]) (.ofSecs 60))), .turn (.caller 1),
      .start (.background (.submit "three" (some [3]) (.ofSecs 5))), .turn (.caller 2),
      .elapse 2999]

theorem workers_diligent_stalled :
    (stalled.dispatcher.queued = [⟨"two", [2]⟩]
      ∧ stalled.journal.inFlight = [(.worker 0, .delivery, ⟨0, "one", [1], .ofSecs 3⟩),
        (.caller 2, .fallback, ⟨0, "three", [3], .ofSecs 5⟩)])
    ∧ (∃ e, (.worker 0, .delivery, e) ∈ stalled.journal.inFlight)
    ∧ ∀ t aim e, (t, aim, e) ∈ stalled.journal.inFlight →
      stalled.now * 1000000 < e.time * 1000000 + e.deadline.nanos := by
  have h := (workers_diligent (s := stalled) ⟨_, rfl⟩).2.2 (by decide +kernel)
  exact ⟨by decide +kernel, h.1 (by decide +kernel) 0 (by decide +kernel), h.2⟩

end Session

end Uplink
