import Uplink.Proofs.Dispatch.Endings
import Uplink.Proofs.Dispatch.Order
import Uplink.Proofs.Session.Delivering
/-!
POSTs of jobs that fail.  The failure hook is called for those of workers, once for each and in the
order in which they end; of the others their submitters are told.  Both are counted, and nothing
else is.
-/
namespace Uplink

def Task.isWorker : Task → Bool
  | .worker _ => true
  | _ => false

structure Failure where
  task : Task
  url : String
  error : PostError

namespace Failure

def told (f : Failure) : DeliveryFailure := ⟨f.url, f.error⟩

end Failure

def Posting.error? (q : Posting) : Option PostError :=
  match q.outcome with
  | .failed e => some e
  | _ => none

/-- How a POST with a deadline fails: with an answer that is none of success, with a broken
connection, or with no end within the deadline. -/
def Reply.error? (deadline : Duration) : Reply → Option PostError
  | .status s delay =>
    if delay ≤ deadline.millis then if s.isSuccess then none else some (.status s)
    else some (.timeout deadline)
  | .broken reason delay =>
    some (if delay ≤ deadline.millis then .transport reason else .timeout deadline)
  | .hang => some (.timeout deadline)
  | .crash delay => if delay ≤ deadline.millis then none else some (.timeout deadline)

theorem Posting.error?_ofReply (url : String) (now : Nat) (deadline : Duration) (reply : Reply) :
    (ofReply url now deadline reply).error? = reply.error? deadline := by
  cases reply with
  | status s delay =>
    by_cases within : delay ≤ deadline.millis <;> cases h : s.isSuccess <;>
      simp [ofReply, Reply.ending?, Option.filter, error?, Reply.error?, Outcome.ofStatus,
        within, h]
  | broken reason delay | crash delay =>
    by_cases within : delay ≤ deadline.millis <;>
      simp [ofReply, Reply.ending?, Option.filter, error?, Reply.error?, within]
  | hang => rfl

/-- The failure that a call comes to when its task posted the job itself. -/
def Stage.failure? (t : Task) : Stage → Option Failure
  | .ended (.pushed (.error (.fallbackFailed url e))) => some ⟨t, url, e⟩
  | _ => none

def Ending.failure? (x : Ending) : Option Failure :=
  x.posting.error?.map fun e => ⟨x.task, x.entry.url, e⟩

namespace Event

def failure? : Event → Option Failure
  | finished t q => q.error?.map fun e => ⟨t, q.url, e⟩
  | _ => none

/-- Events that tell of ends of POSTs of jobs or of calls of the failure hook. -/
def ofFailures : Event → Bool
  | finished _ _ | hooked _ _ => true
  | _ => false

variable {e : Event}

theorem failure?_of_not_ofFailures (h : e.ofFailures = false) : e.failure? = none := by
  cases e with
  | finished t q => simp [ofFailures] at h
  | _ => rfl

theorem hook?_of_not_ofFailures (h : e.ofFailures = false) : e.hook? = none := by
  cases e with
  | hooked k crashed => simp [ofFailures] at h
  | _ => rfl

theorem ofFailures_of_isQuiet (h : e.isQuiet) : e.ofFailures = false := by
  cases e with
  | finished t q => simp [isQuiet, ofPosts] at h
  | hooked k crashed => simp [isQuiet, hook?] at h
  | _ => rfl

end Event

namespace Journal

variable {j j' : Journal} {es : List Event}

def failures (j : Journal) : List Failure := j.events.filterMap Event.failure?

theorem failures_of_events (h : j'.events = es ++ j.events) :
    j'.failures = es.filterMap Event.failure? ++ j.failures := by
  unfold failures
  rw [h, List.filterMap_append]

theorem hooks_of_events (h : j'.events = es ++ j.events) :
    j'.hooks = es.filterMap Event.hook? ++ j.hooks := by
  unfold hooks
  rw [h, List.filterMap_append]

/-- Events that tell of no failure leave the failures and the calls of the hook as they are. -/
theorem failures_hooks_of_not_ofFailures (h : j'.events = es ++ j.events)
    (silent : ∀ e ∈ es, e.ofFailures = false) :
    j'.failures = j.failures ∧ j'.hooks = j.hooks := by
  have hfailures : es.filterMap Event.failure? = [] :=
    List.filterMap_eq_nil_iff.mpr fun e he => Event.failure?_of_not_ofFailures (silent e he)
  have hhooks : es.filterMap Event.hook? = [] :=
    List.filterMap_eq_nil_iff.mpr fun e he => Event.hook?_of_not_ofFailures (silent e he)
  rw [failures_of_events h, hooks_of_events h, hfailures, hhooks]
  exact ⟨rfl, rfl⟩

end Journal

/-- The failures are those of the POSTs that ended. -/
theorem Paired.failures_eq {es : List Event} {pending : Task → Option Posting}
    (h : Paired es pending) :
    es.filterMap Event.failure? = (Event.endings es).filterMap Ending.failure? := by
  let failed (x : Task × Posting) : Option Failure := x.2.error?.map fun e => ⟨x.1, x.2.url, e⟩
  have hevent (e : Event) : e.failure? = e.finish?.bind failed := by cases e <;> rfl
  calc es.filterMap Event.failure?
      = (es.filterMap Event.finish?).filterMap failed := by
        rw [List.filterMap_filterMap]
        exact List.filterMap_congr fun e _ => hevent e
    _ = (Event.endings es).filterMap (failed ∘ fun x => (x.task, x.posting)) := by
        rw [← h.finished, List.filterMap_map]
    _ = (Event.endings es).filterMap Ending.failure? := by
        refine List.filterMap_congr fun x hx => ?_
        simp only [Function.comp_apply, failed, Ending.failure?, (h.ends x hx).url_eq]

namespace Pipeline

variable {quits : Prop} {t : Task} {p p' : Pipeline} {h h' : Hand} {hands : Task → Hand}
  {d d' : Dispatcher}

/-! ### The hook and the count -/

/-- All failures are counted, the hook, if there is one, is told of those of workers, and that is
what its calls show. -/
structure Reported (d : Dispatcher) (failures : List Failure) (hooks : List HookEntry) : Prop where
  counted : d.totals.failed = failures.length
  told : d.hook.isSome → d.told = (failures.filter (·.task.isWorker)).map Failure.told
  shown : hooks.map (fun k => (k.url, k.error)) = d.told.map fun f => (f.url, f.error.message)

theorem filterMap_failure?_finished (t : Task) (q : Posting) :
    [Event.finished t q].filterMap Event.failure?
      = q.error?.toList.map fun e => ⟨t, q.url, e⟩ := by
  simp only [List.filterMap_cons, List.filterMap_nil, Event.failure?]
  cases q.error? <;> rfl

theorem filterMap_failure?_outcomeReport (p : Pipeline) (q : Posting) :
    (p.outcomeReport q).reverse.filterMap Event.failure? = [] := by
  refine List.filterMap_eq_nil_iff.mpr fun e he => ?_
  rcases isReport_of_mem_outcomeReport (List.mem_reverse.mp he) with
    ⟨l, rfl⟩ | ⟨k, crashed, rfl⟩ <;> rfl

/-- A worker whose POST is over calls the hook once if the POST failed, and else not at all. -/
theorem filterMap_hook?_outcomeReport (p : Pipeline) (q : Posting) :
    (p.outcomeReport q).reverse.filterMap Event.hook?
      = (p.dispatcher.failure? q).toList.map fun f => ⟨p.now, f.url, f.error.message⟩ := by
  unfold outcomeReport Dispatcher.failure?
  cases p.dispatcher.hook <;> cases q.outcome <;> rfl

theorem failure?_eq_error? {q : Posting} (hook : d.hook.isSome) :
    d.failure? q = q.error?.map fun e => ⟨q.url, e⟩ := by
  unfold Dispatcher.failure? Posting.error?
  obtain ⟨hook, hd⟩ := Option.isSome_iff_exists.mp hook
  rw [hd]
  cases q.outcome <;> rfl

theorem failed_after (totals : Totals) (q : Posting) :
    (totals.after q.outcome).failed = q.error?.toList.length + totals.failed := by
  unfold Posting.error?
  cases q.outcome with
  | failed e => exact Nat.add_comm _ _
  | _ => exact (Nat.zero_add _).symm

/-- The end of a POST is counted if the POST failed, and told to the hook if it was a worker's. -/
theorem Reported.ends {failures : List Failure} {hooks : List HookEntry}
    (hp : Reported d failures hooks) (t : Task) (q : Posting) (new : List DeliveryFailure)
    (hhook : d'.hook = d.hook) (htotals : d'.totals = d.totals.after q.outcome)
    (htold : d'.told = new ++ d.told)
    (own : d.hook.isSome → new = if t.isWorker then q.error?.toList.map (⟨q.url, ·⟩) else []) :
    Reported d' ((q.error?.toList.map fun e => ⟨t, q.url, e⟩) ++ failures)
      (new.map (fun f => ⟨p.now, f.url, f.error.message⟩) ++ hooks) where
  counted := by rw [htotals, failed_after, hp.counted, List.length_append, List.length_map]
  told hook := by
    rw [hhook] at hook
    rw [htold, own hook, hp.told hook, List.filter_append, List.map_append]
    congr 1
    cases hworker : t.isWorker <;> cases q.error? <;> simp [hworker, Failure.told]
  shown := by
    rw [htold, List.map_append, List.map_append, hp.shown, List.map_map]
    rfl

theorem PostChange.reported {es : List Event} {failures : List Failure} {hooks : List HookEntry}
    (hc : PostChange p t h d es h') (hh : hands t = h)
    (hworkers : ∀ w, hands (.worker w) = .free)
    (hp : Reported p.dispatcher failures hooks) :
    Reported d (es.filterMap Event.failure? ++ failures) (es.filterMap Event.hook? ++ hooks) := by
  have hquiet {es : List Event} (quiet : ∀ e ∈ es, e.isQuiet) :
      es.filterMap Event.failure? = [] ∧ es.filterMap Event.hook? = [] := by
    constructor
    · exact List.filterMap_eq_nil_iff.mpr fun e he =>
        Event.failure?_of_not_ofFailures (Event.ofFailures_of_isQuiet (quiet e he))
    · exact List.filterMap_eq_nil_iff.mpr fun e he => Event.hook?_of_isQuiet (quiet e he)
  have hspares {d : Dispatcher} (spares : p.dispatcher.Spares d) : Reported d failures hooks :=
    ⟨spares.failed.trans hp.counted, fun hook => spares.told.trans (hp.told (spares.hook ▸ hook)),
      spares.told ▸ hp.shown⟩
  cases hc with
  | quiet es quiet spares same =>
    obtain ⟨hfailures, hhooks⟩ := hquiet quiet
    rw [hfailures, hhooks]
    exact hspares spares
  | divert es quiet spares ends =>
    obtain ⟨hfailures, hhooks⟩ := hquiet quiet
    rw [List.filterMap_cons_none rfl, List.filterMap_cons_none rfl, hfailures, hhooks]
    exact hspares spares
  | @deliver _ q =>
    have submitter : t.isWorker = false := by
      cases t with
      | worker w =>
        rw [hworkers] at hh
        cases hh
      | _ => rfl
    rw [Dispatcher.countOutcome_eq, filterMap_failure?_finished]
    exact hp.ends (p := p) t q [] rfl rfl rfl fun _ => by rw [submitter]; rfl
  | take idle spares left ends =>
    obtain ⟨counted, told, shown⟩ := hspares spares
    exact ⟨counted, told, shown⟩
  | @finish w q es quiet busy =>
    obtain ⟨hfailures, hhooks⟩ := hquiet quiet
    simp only [List.filterMap_append, hfailures, hhooks, filterMap_failure?_outcomeReport,
      filterMap_failure?_finished, List.nil_append]
    rw [Dispatcher.release_eq,
      show [Event.finished (.worker w) q].filterMap Event.hook? = [] from rfl,
      List.append_nil, filterMap_hook?_outcomeReport]
    refine hp.ends (.worker w) q (p.dispatcher.failure? q).toList rfl rfl rfl fun hook => ?_
    rw [failure?_eq_error? hook, Option.toList_map]
    rfl

theorem workInvariant_reported :
    WorkInvariant fun p _ => Reported p.dispatcher p.journal.failures p.journal.hooks :=
  by
  refine .of_timeless (fun hs hworkers _ hp => ?_) fun _ _ _ _ _ hp => hp
  obtain ⟨es, hes, hchange⟩ := hs.postChange
  rw [Journal.failures_of_events hes, Journal.hooks_of_events hes]
  exact hchange.reported rfl hworkers hp

theorem reported_of_fresh (hp : p.Fresh) :
    Reported p.dispatcher p.journal.failures p.journal.hooks := by
  obtain ⟨settings, hd⟩ := hp.dispatcher
  unfold Journal.failures Journal.hooks
  rw [hp.events, hd]
  exact ⟨rfl, fun _ => rfl, rfl⟩

/-! ### What submitters are told -/

/-- What a task comes to when it takes up a call: the failures that this adds are the one that the
call ends with, or none, and the hook is not called. -/
structure Confides (t : Task) (p : Pipeline) (r : Pipeline × Stage) : Prop where
  failures : r.1.journal.failures = (r.2.failure? t).toList ++ p.journal.failures
  hooks : r.1.journal.hooks = p.journal.hooks

/-- What is noted before does not matter if it tells of no failure. -/
theorem Confides.after {r : Pipeline × Stage} (hr : Confides t p' r) {es : List Event}
    (hes : p'.journal.events = es ++ p.journal.events)
    (silent : ∀ e ∈ es, e.ofFailures = false) : Confides t p r := by
  obtain ⟨hfailures, hhooks⟩ := Journal.failures_hooks_of_not_ofFailures hes silent
  exact ⟨hfailures ▸ hr.failures, hhooks ▸ hr.hooks⟩

theorem confides_silent {stage : Stage} (es : List Event)
    (hes : p'.journal.events = es ++ p.journal.events)
    (silent : ∀ e ∈ es, e.ofFailures = false) (none : stage.failure? t = none) :
    Confides t p (p', stage) := by
  obtain ⟨hfailures, hhooks⟩ := Journal.failures_hooks_of_not_ofFailures hes silent
  refine ⟨?_, hhooks⟩
  rw [none]
  exact hfailures

theorem confides_deliver (p : Pipeline) (t : Task) (q : Posting) :
    Confides t p ((p.deliver t q).1, .ended (p.deliver t q).2) := by
  rw [deliver_eq, deliver_snd]
  have hes : (({ p with dispatcher := p.dispatcher.countOutcome q.outcome } : Pipeline).note
      (.finished t q)).journal.events = [.finished t q] ++ p.journal.events := rfl
  refine ⟨?_, rfl⟩
  rw [Journal.failures_of_events hes, filterMap_failure?_finished]
  unfold Posting.error? Posting.verdict
  cases q.outcome <;> rfl

theorem confides_fallback (p : Pipeline) (t : Task) (j : Job) (deadline : Duration) :
    Confides t p (p.fallback t j deadline) := by
  have silent (now : Nat) : ∀ e ∈ [Event.posted t .fallback ⟨now, j.url, j.body, deadline⟩,
      .diverted t j], e.ofFailures = false := by simp [Event.ofFailures]
  unfold fallback
  dsimp only [post, note]
  split
  · exact (confides_deliver _ t _).after rfl (silent p.now)
  · exact confides_silent _ rfl (silent p.now) rfl

theorem confides_submit (p : Pipeline) (t : Task) (j : Job) (deadline : Duration) :
    Confides t p (p.submit t j deadline) := by
  have hstart : ((p.note (.submitted t j)).startWorkers 0 0).journal.events
      = [.submitted t j] ++ p.journal.events := by simp
  have hlogged (l : LogEntry) :
      (((p.note (.submitted t j)).startWorkers 0 0).note (.logged l)).journal.events
        = [.logged l, .submitted t j] ++ p.journal.events := by simp
  unfold submit
  dsimp only
  split
  · refine confides_silent [.queued t j, .submitted t j] ?_ (by simp [Event.ofFailures]) rfl
    show .queued t j :: ((p.note (.submitted t j)).startWorkers 0 0).journal.events = _
    rw [hstart]
    rfl
  · exact (confides_fallback _ t j deadline).after (hlogged _) (by simp [Event.ofFailures])
  · exact (confides_fallback _ t j deadline).after (hlogged _) (by simp [Event.ofFailures])

theorem confides_land (p : Pipeline) (t : Task) (q : Posting) :
    Confides t p ((p.land t q).1, .ended (p.land t q).2) := by
  have hleave {p₀ : Pipeline} {r : CallResult} (es : List Event)
      (hes : p₀.journal.events = es ++ p.journal.events)
      (silent : ∀ e ∈ es, e.ofFailures = false) (none : (Stage.ended r).failure? t = none) :
      Confides t p (p₀.leave t, .ended r) := by
    refine confides_silent (p₀.yields t ++ es) ?_ (fun e he => ?_) none
    · rw [events_leave, hes, List.append_assoc]
    · exact (List.mem_append.mp he).elim
        (forall_yields (P := fun e => e.ofFailures = false) rfl e) (silent e)
  unfold land
  split
  · exact hleave [] rfl (by simp) rfl
  · split
    · exact hleave [_] rfl (by simp [Event.ofFailures]) rfl
    · exact hleave [_] rfl (by simp [Event.ofFailures]) rfl
    · exact hleave [] rfl (by simp) rfl

theorem confides_depart (p : Pipeline) (t : Task) (url : String) :
    Confides t p (p.depart t url) := by
  unfold depart
  split
  · exact confides_silent _ (events_leave p t _) (forall_yields rfl) rfl
  next f hf =>
    have silent (e : PostEntry) : ∀ x ∈ [Event.posted t .report e, .departed t f],
        x.ofFailures = false := by simp [Event.ofFailures]
    dsimp only [post, note]
    split
    · exact (confides_land _ t _).after rfl (silent _)
    · exact confides_silent _ rfl (silent _) rfl

/-- A call that begins tells its task of the failure of its own POST, if it comes to one. -/
theorem confides_begin (p : Pipeline) (t : Task) (c : Call) : Confides t p (p.begin t c) := by
  have hcalled : ∀ e ∈ [Event.called t c], e.ofFailures = false := by simp [Event.ofFailures]
  unfold begin
  dsimp only
  split
  · exact confides_silent _ rfl hcalled rfl
  · exact (confides_submit _ t _ _).after rfl hcalled
  · exact confides_silent _ rfl hcalled rfl
  · exact (confides_submit _ t _ _).after rfl hcalled
  · unfold flush
    dsimp only
    split
    · exact (confides_depart _ t _).after rfl hcalled
    · exact confides_silent _ rfl hcalled rfl
  next url body deadline =>
    have silent : ∀ e ∈ [Event.posted t .direct ⟨p.now, url, body, deadline⟩,
        .called t (.post url body deadline)], e.ofFailures = false := by simp [Event.ofFailures]
    dsimp only [post, note]
    split
    · refine confides_silent _ rfl silent ?_
      unfold postResult
      split <;> rfl
    · exact confides_silent _ rfl silent rfl

/-- So does a call that goes on. -/
theorem confides_proceed (p : Pipeline) (t : Task) {stage : Stage} (under : stage.result? = none) :
    Confides t p (p.proceed t stage) := by
  unfold proceed
  split
  · simp [Stage.result?] at under
  · split
    · exact confides_deliver p t _
    · exact confides_silent [] rfl (by simp) rfl
  · split
    · refine confides_silent [] rfl (by simp) ?_
      unfold postResult
      split <;> rfl
    · exact confides_silent [] rfl (by simp) rfl
  · split
    · exact confides_depart p t _
    · exact confides_silent [] rfl (by simp) rfl
  · split
    · exact confides_land p t _
    · exact confides_silent [] rfl (by simp) rfl

/-! ### Hooks that crash -/

/-- The hook is told of the failure of a worker's POST: the failure is noted, the worker is lost
exactly if the hook crashes on it, and all else is as it was, but the queue if no worker is left. -/
theorem finishJob_told {w : Nat} {q : Posting} {e : PostError} {hook : Hook}
    (started : (p.dispatcher.worker? w).isSome) (failed : q.outcome = .failed e)
    (hooked : p.dispatcher.hook = some hook) :
    ∃ dispatcher journal, p.finishJob w q = { p with dispatcher, journal }
      ∧ dispatcher.worker? w
        = some (if hook.crashesOn p.dispatcher.told ⟨q.url, e⟩ then .lost else .idle)
      ∧ (∀ v ≠ w, dispatcher.worker? v = p.dispatcher.worker? v)
      ∧ dispatcher.queued = if dispatcher.isClosed then [] else p.dispatcher.queued := by
  refine ⟨p.dispatcher.release w q, (p.finishJob w q).journal, rfl, ?_, ?_, ?_⟩
  · have loses : p.dispatcher.losesWorker q = hook.crashesOn p.dispatcher.told ⟨q.url, e⟩ := by
      simp [Dispatcher.losesWorker, Dispatcher.failure?, Dispatcher.hookCrashes, failed, hooked]
    rw [Dispatcher.release_eq, loses]
    cases hp : p.dispatcher.pool with
    | none => simp [Dispatcher.worker?, hp] at started
    | some pool =>
      have hlt : w < pool.workers.length := by simpa [Dispatcher.worker?, hp] using started
      cases hook.crashesOn p.dispatcher.told ⟨q.url, e⟩ <;>
        simp [Dispatcher.worker?, Pool.workers_lose, Pool.assign, hlt]
  · intro v hv
    exact Dispatcher.worker?_release_of_ne hv _
  · -- the worker may not have been seen to be busy with a POST that was over at once
    have hqueued := Dispatcher.queued_release (Dispatcher.worker?_engage started q)
    rwa [Dispatcher.release_engage, Dispatcher.queued_engage] at hqueued

/-- A worker that is lost does nothing any more. -/
theorem workerTurn_of_lost {w : Nat} (lost : p.dispatcher.worker? w = some .lost) :
    p.workerTurn w = p := by
  unfold workerTurn
  rw [lost]
  exact if_neg (by simp [lost])

/-- No worker is lost by what another task does. -/
theorem PostChange.lost {es : List Event} {w : Nat} (hc : PostChange p t h d es h')
    (lost : d.worker? w = some .lost) :
    p.dispatcher.worker? w = some .lost ∨ t = .worker w := by
  cases hc with
  | quiet es quiet spares same => exact .inl (spares.lost w lost)
  | divert es quiet spares ends => exact .inl (spares.lost w lost)
  | deliver =>
    rw [Dispatcher.countOutcome_eq] at lost
    exact .inl lost
  | @take v d j e q idle spares left ends =>
    by_cases hw : w = v
    · exact .inr (by rw [hw])
    · rw [Dispatcher.worker?_engage_of_ne hw] at lost
      exact .inl (spares.lost w lost)
  | @finish v q es quiet busy =>
    by_cases hw : w = v
    · exact .inr (by rw [hw])
    · rw [Dispatcher.worker?_release_of_ne hw] at lost
      exact .inl lost

theorem Steps.lost {w : Nat} (hs : Steps quits t p h p' h')
    (lost : p'.dispatcher.worker? w = some .lost) :
    p.dispatcher.worker? w = some .lost ∨ t = .worker w := by
  induction hs with
  | refl => exact .inl lost
  | tail _ hl ih =>
    obtain ⟨es, -, hc⟩ := hl.postChange
    rcases hc.lost lost with before | own
    · exact ih before
    · exact .inr own

theorem exists_timely_of_fresh (hp : p.Fresh) : ∃ timeout, p.Timely timeout := by
  refine ⟨p.dispatcher.workerTimeout, rfl, fun t e he => ?_⟩
  rw [hp.events] at he
  exact absurd he List.not_mem_nil

theorem invariant_exists_timely : Invariant fun p _ => ∃ timeout, p.Timely timeout :=
  .of_timeless (fun hs hp => hp.imp fun _ hp => hp.step hs) fun _ _ _ _ _ hp => hp

end Pipeline

/-- The ends of a worker's POSTs are those of deliveries that it began. -/
theorem Paired.posted_mem {es : List Event} {pending : Task → Option Posting}
    (h : Paired es pending) {x : Ending} (hx : x ∈ Event.endings es) :
    .posted x.task x.task.jobAim x.entry ∈ es := by
  have hmem : x.entry ∈ es.filterMap (Event.jobPost? x.task) := by
    rw [h.posts]
    refine List.mem_append_right _ (List.mem_map_of_mem ?_)
    exact List.mem_filter.mpr ⟨hx, by simp⟩
  obtain ⟨e, he, hpost⟩ := List.mem_filterMap.mp hmem
  cases e with
  | posted u aim entry =>
    simp only [Event.jobPost?, Option.ite_none_right_eq_some, Option.some.injEq] at hpost
    obtain ⟨⟨rfl, rfl⟩, rfl⟩ := hpost
    exact he
  | _ => cases hpost

namespace Session

open Pipeline

variable {s : Session}

/-- A worker is lost in its own turn and in no other move. -/
theorem lost_of_move {m : Move} {w : Nat}
    (lost : (s.move m).dispatcher.worker? w = some .lost) :
    s.dispatcher.worker? w = some .lost ∨ m = .turn (.worker w) := by
  have hm := s.moves_move m
  generalize s.move m = s' at hm lost
  cases hm with
  | stays => exact .inl lost
  | start op free => exact .inl (((leads_start s op free).steps.lost lost).resolve_right (by simp))
  | collect =>
    rw [toPipeline_collect] at lost
    exact .inl lost
  | turn t _ =>
    rcases (leads_turn { s with ready := s.ready.erase t } t).steps.lost lost with before | own
    · exact .inl before
    · exact .inr (by rw [own])
  | elapse now =>
    have same := congrArg (·.worker? w) (dispatcher_moveTo s.toPipeline now)
    exact .inl (same.symm.trans lost)
  | dropOwn calling flushes =>
    exact .inl (((leads_dropOwn calling flushes).steps.lost lost).resolve_right (by simp))
  | drop calling flushes =>
    exact .inl (((leads_drop calling flushes).steps.lost lost).resolve_right (by simp))
  | discard => exact .inl (((leads_stopFlushing s).steps.lost lost).resolve_right (by simp))

/-- At every point of every session with a failure hook, the hook was told once of each POST of a
worker that failed, in the order in which they ended, with the URL of the job and the error of that
very POST, and its calls show this; what else is counted as failed are the failures of submitters.
Each POST of a job that was begun has ended once, or its task waits for it; it fails with an answer
that is none of success, with a broken connection or with no end within its deadline, which for a
worker is that of the dispatcher; and workers post the jobs that they took.  A call that posts its
job itself comes to the failure of this POST exactly if there is one, and calls no hook.  A worker
whose failure the hook is told of is lost exactly if the hook crashes on it; it does nothing any
more, and nothing else is lost but the queue if this was the last one; and no worker is lost but in
its own turn. -/
theorem hook_told_of_failures (h : s.Reachable) (hook : s.dispatcher.hook.isSome) :
    let failures := s.journal.endings.filterMap Ending.failure?
    (s.dispatcher.told = (failures.filter (·.task.isWorker)).map Failure.told
      ∧ s.journal.hooks.map (fun k => (k.url, k.error))
        = s.dispatcher.told.map (fun f => (f.url, f.error.message))
      ∧ s.dispatcher.totals.failed
        = s.journal.hooks.length + (failures.filter (!·.task.isWorker)).length)
    ∧ (Paired s.journal.events (awaited s.dispatcher s.hand)
      ∧ (∀ x ∈ s.journal.endings, ∃ reply,
        x.posting = .ofReply x.entry.url x.entry.time x.entry.deadline reply
          ∧ x.posting.error? = reply.error? x.entry.deadline
          ∧ (x.task.isWorker → x.entry.deadline = s.dispatcher.workerTimeout))
      ∧ s.journal.ledger.deliveries = s.journal.ledger.taken)
    ∧ (∀ (p : Pipeline) (t : Task), (∀ c, Confides t p (p.begin t c))
      ∧ ∀ stage, stage.result? = none → Confides t p (p.proceed t stage))
    ∧ (∀ (p : Pipeline) w, (p.dispatcher.worker? w = some .lost → p.workerTurn w = p)
      ∧ ∀ q e hook, (p.dispatcher.worker? w).isSome → q.outcome = .failed e →
        p.dispatcher.hook = some hook →
        ∃ dispatcher journal, p.finishJob w q = { p with dispatcher, journal }
          ∧ dispatcher.worker? w
            = some (if hook.crashesOn p.dispatcher.told ⟨q.url, e⟩ then .lost else .idle)
          ∧ (∀ v ≠ w, dispatcher.worker? v = p.dispatcher.worker? v)
          ∧ dispatcher.queued = if dispatcher.isClosed then [] else p.dispatcher.queued)
    ∧ ∀ m w, (s.move m).dispatcher.worker? w = some .lost →
      s.dispatcher.worker? w = some .lost ∨ m = .turn (.worker w) := by
  have paired := h.paired
  obtain ⟨counted, told, shown⟩ :=
    h.keepsWork workInvariant_reported fun _ => reported_of_fresh
  obtain ⟨timeout, htimeout, timely⟩ :=
    h.keeps invariant_exists_timely fun _ => exists_timely_of_fresh
  have orderly := h.keeps invariant_orderly fun _ => orderly_of_fresh
  have failures : s.journal.failures = s.journal.endings.filterMap Ending.failure? :=
    paired.failures_eq
  rw [failures] at counted told
  refine ⟨⟨told hook, shown, ?_⟩, ⟨paired, fun x hx => ?_, orderly.deliveries⟩,
    fun p t => ⟨?_, ?_⟩, fun p w => ⟨workerTurn_of_lost, ?_⟩, fun m w lost => lost_of_move lost⟩
  · have hooks : s.journal.hooks.length = s.dispatcher.told.length := by
      simpa using congrArg List.length shown
    rw [counted, hooks, told hook, List.length_map]
    exact List.length_eq_length_filter_add _
  · obtain ⟨reply, ends⟩ := paired.ends x hx
    refine ⟨reply, ends, ?_, fun hworker => ?_⟩
    · rw [ends, Posting.error?_ofReply]
    · have posted := paired.posted_mem hx
      cases ht : x.task with
      | worker w =>
        rw [ht] at posted
        exact (timely _ _ posted).2.trans htimeout.symm
      | _ => simp [ht, Task.isWorker] at hworker
  · exact confides_begin p t
  · exact fun stage under => confides_proceed p t under
  · exact fun q e hook started failed hooked => finishJob_told started failed hooked

/-- Two workers, a queue for one job and a hook that crashes on its first call: the POST of the
first worker fails with an answer, which is the end of that worker, and so does the one of the
submitter that found the queue full; the second worker waits for its answer in vain, and goes on. -/
def disturbed : Session :=
  (create .partsStarted
    { dispatch :=
      { workers := 2, queueCapacity := 1, hook := some ⟨fun told _ => told.isEmpty⟩ } } {} {}
    [⟨"one", [.status ⟨500⟩ 5]⟩, ⟨"two", [.hang]⟩, ⟨"four", [.status ⟨503⟩ 7]⟩] {}).follow
    [.turn (.worker 0), .turn (.worker 1),
      .start (.background (.submit "one" (some [1]) .zero)), .turn (.caller 0), .turn (.worker 0),
      .start (.background (.submit "two" (some [2]) .zero)), .turn (.caller 1), .turn (.worker 1),
      .start (.background (.submit "three" (some [3]) .zero)), .turn (.caller 2),
      .start (.background (.submit "four" (some [4]) (.ofSecs 9))), .turn (.caller 3),
      .elapse 5, .turn (.worker 0), .elapse 7, .turn (.caller 3), .elapse 3000, .turn (.worker 1)]

theorem hook_told_of_failures_disturbed :
    disturbed.dispatcher.hook.isSome
    ∧ disturbed.journal.hooks.map (fun k => (k.url, k.error))
      = [("two", "deadline of 3s exceeded"), ("one", "unexpected status 500 Internal Server Error")]
    ∧ disturbed.dispatcher.totals.failed = 2 + 1
    ∧ disturbed.dispatcher.worker? 0 = some .lost
    ∧ disturbed.dispatcher.worker? 1 = some .idle := by
  have hook : disturbed.dispatcher.hook.isSome := by decide +kernel
  obtain ⟨⟨told, shown, counted⟩, -⟩ :=
    hook_told_of_failures (s := disturbed) ⟨_, _, _, _, _, _, _, _, rfl⟩ hook
  rw [told] at shown
  exact ⟨hook, shown.trans (by decide +kernel), counted.trans (by decide +kernel),
    by decide +kernel, by decide +kernel⟩

end Session

end Uplink
