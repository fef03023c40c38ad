import Uplink.Proofs.Dispatch.Pool
import Uplink.Proofs.Session.Noted
/-!
The ledger of the dispatcher: what the journal says of jobs and of their POSTs.  A step of the
pipeline changes the dispatcher and enters what it does into the ledger.
-/
namespace Uplink

namespace Event

/-- Events that tell of jobs. -/
def ofJobs : Event → Bool
  | called _ c => c.submits
  | submitted _ _ | queued _ _ | diverted _ _ | taken _ _ | finished _ _ | dropped _ => true
  | posted _ .delivery _ | posted _ .fallback _ => true
  | _ => false

def takes : Event → Bool
  | taken _ _ | posted _ .delivery _ => true
  | _ => false

theorem takes_of_not_ofJobs {e : Event} (h : e.ofJobs = false) : e.takes = false := by
  unfold takes
  split <;> first | rfl | simp [ofJobs] at h

end Event

/-- Calls that submit jobs, and the jobs they submit; which of those were queued and which diverted
to their submitters; what became of the queued ones; and the POSTs of workers and of submitters, all
with the tasks that did it and in the order in which it was done.  `crashed` counts the jobs whose
POST crashed. -/
structure Ledger where
  calls : List (Task × Call) := []
  pushes : List (Task × Job) := []
  accepted : List Job := []
  diverted : List (Task × Job) := []
  taken : List (Task × Job) := []
  dropped : List Job := []
  deliveries : List (Task × Job) := []
  fallbacks : List (Task × Job) := []
  crashed : Nat := 0

namespace Ledger

def enter : Event → Ledger → Ledger
  | .called t c, l => if c.submits then { l with calls := l.calls ++ [(t, c)] } else l
  | .submitted t j, l => { l with pushes := l.pushes ++ [(t, j)] }
  | .queued _ j, l => { l with accepted := l.accepted ++ [j] }
  | .diverted t j, l => { l with diverted := l.diverted ++ [(t, j)] }
  | .taken w j, l => { l with taken := l.taken ++ [(.worker w, j)] }
  | .dropped jobs, l => { l with dropped := l.dropped ++ jobs }
  | .finished _ q, l => { l with crashed := l.crashed + if q.outcome = .crashed then 1 else 0 }
  | .posted t .delivery e, l => { l with deliveries := l.deliveries ++ [(t, ⟨e.url, e.body⟩)] }
  | .posted t .fallback e, l => { l with fallbacks := l.fallbacks ++ [(t, ⟨e.url, e.body⟩)] }
  | _, l => l

/-- The jobs that were lost: their POST crashed, or they were dropped. -/
def lost (l : Ledger) : Nat := l.crashed + l.dropped.length

def enterAll (es : List Event) (l : Ledger) : Ledger := es.foldr enter l

theorem enterAll_append (es es' : List Event) (l : Ledger) :
    enterAll (es ++ es') l = enterAll es (enterAll es' l) := List.foldr_append

theorem enter_of_not_ofJobs {e : Event} (h : e.ofJobs = false) (l : Ledger) : enter e l = l := by
  unfold Event.ofJobs at h
  split at h <;> first | contradiction | (unfold enter; split <;> simp_all)

theorem enterAll_of_not_ofJobs {es : List Event} (h : ∀ e ∈ es, e.ofJobs = false) (l : Ledger) :
    enterAll es l = l :=
  List.foldrRecOn (motive := (· = l)) es enter rfl fun l' hl e he =>
    (enter_of_not_ofJobs (h e he) l').trans hl

/-- Of the end of a worker's POST only the outcome is entered. -/
theorem enterAll_finish {reports : List Event} (hreports : ∀ e ∈ reports, e.ofJobs = false)
    (w : Nat) (q : Posting) (l : Ledger) :
    enterAll (reports ++ [.finished (.worker w) q]) l = enter (.finished (.worker w) q) l := by
  rw [enterAll_append]
  exact enterAll_of_not_ofJobs hreports _

end Ledger

namespace Journal

/-- What the journal says of jobs. -/
def ledger (j : Journal) : Ledger := Ledger.enterAll j.events {}

end Journal

namespace Pipeline

theorem ledger_of_events {p p' : Pipeline} {es : List Event}
    (h : p'.journal.events = es ++ p.journal.events) :
    p'.journal.ledger = Ledger.enterAll es p.journal.ledger := by
  unfold Journal.ledger
  rw [h, Ledger.enterAll_append]

theorem Fresh.ledger_eq {p : Pipeline} (hp : p.Fresh) : p.journal.ledger = {} := by
  unfold Journal.ledger
  rw [hp.events]
  rfl

/-- How a step on behalf of a task changes the dispatcher, and what it notes. -/
inductive JobChange (t : Task) (p : Pipeline) : Hand → Dispatcher → List Event → Hand → Prop
  | none {h h'} (es : List Event) (hes : ∀ e ∈ es, e.ofJobs = false)
    (hh : h' = h ∨ h.delivers = false ∧ h'.delivers = false) :
    JobChange t p h p.dispatcher es h'
  | start {h} (workers capacity : Nat) :
    JobChange t p h (p.dispatcher.start workers capacity) [] h
  | queue {c j d} (hc : c.submits) (asks : c.Asks j)
    (hd : (p.dispatcher.start 0 0).offer j = .ok d) :
    JobChange t p .free d [.queued t j, .submitted t j, .called t c] .free
  | divert {c j refusal l} (q : Posting) (deadline : Duration)
    (within : q.due ≤ p.now + deadline.millis) (hc : c.submits) (asks : c.Asks j)
    (hd : (p.dispatcher.start 0 0).offer j = .error refusal) :
    JobChange t p .free (p.dispatcher.start 0 0).countFallback
      [.posted t .fallback ⟨p.now, j.url, j.body, deadline⟩, .diverted t j, .logged l,
        .submitted t j, .called t c]
      (.waiting (.delivering q))
  | deliver {q} :
    JobChange t p (.waiting (.delivering q)) (p.dispatcher.countOutcome q.outcome)
      [.finished t q] .free
  | seek {w d} (idle : p.dispatcher.worker? w = some .idle)
    (hd : p.dispatcher.seek w = (d, Option.none)) : JobChange t p .free d [] .free
  | take {w d j} (q : Posting) (within : q.due ≤ p.now + d.workerTimeout.millis)
    (idle : p.dispatcher.worker? w = some .idle)
    (hd : p.dispatcher.seek w = (d, some j)) :
    JobChange t p .free (d.engage w q)
      [.posted (.worker w) .delivery ⟨p.now, j.url, j.body, d.workerTimeout⟩, .taken w j] .free
  | finish {w q reports} (busy : p.dispatcher.worker? w = some (.busy q))
    (hreports : ∀ e ∈ reports, e.ofJobs = false)
    (hooked : ∀ f, p.dispatcher.failure? q = some f →
      ∃ k, .hooked k (p.dispatcher.hookCrashes f) ∈ reports) :
    JobChange t p .free (p.dispatcher.release w q)
      ((if (p.dispatcher.release w q).isClosed then [.dropped p.dispatcher.queued] else [])
        ++ reports ++ [.finished (.worker w) q]) .free

/-- A worker that takes a job is idle, the queue gives it the job, and it posts it at once with the
time that the dispatcher has for workers. -/
theorem JobChange.exists_take {t : Task} {p : Pipeline} {h h' : Hand} {d : Dispatcher}
    {es : List Event} (hc : JobChange t p h d es h') {e : Event} (he : e ∈ es) (takes : e.takes) :
    ∃ w j d' q, p.dispatcher.worker? w = some .idle ∧ p.dispatcher.seek w = (d', some j)
      ∧ d = d'.engage w q
      ∧ es = [.posted (.worker w) .delivery ⟨p.now, j.url, j.body, d'.workerTimeout⟩,
        .taken w j] := by
  have hnone {es : List Event} (he : e ∈ es) (hes : ∀ e ∈ es, e.takes = false) : False := by
    simp [hes e he] at takes
  cases hc with
  | none _ hes _ => exact (hnone he fun e he => Event.takes_of_not_ofJobs (hes e he)).elim
  | @take w d' j q within idle hd => exact ⟨w, j, d', q, idle, hd, rfl, rfl⟩
  | finish busy hreports hooked =>
    refine (hnone he fun e he => ?_).elim
    rcases List.mem_append.mp he with he | he
    · rcases List.mem_append.mp he with he | he
      · split at he <;> simp_all [Event.takes]
      · exact Event.takes_of_not_ofJobs (hreports e he)
    · rw [List.mem_singleton.mp he]
      rfl
  | _ => exact (hnone he (by simp [Event.takes])).elim

/-- Every step changes the dispatcher in one of these ways. -/
theorem Step.jobChange {t : Task} {p p' : Pipeline} {h h' : Hand} (hs : Step quits t p h p' h') :
    ∃ es, p'.journal.events = es ++ p.journal.events ∧ JobChange t p h p'.dispatcher es h' := by
  have hquiet {h h' : Hand} {p₀ : Pipeline} (e : Event) (he : e.ofJobs = false)
      (hj : p₀.journal.events = e :: p.journal.events) (hd : p₀.dispatcher = p.dispatcher)
      (hh : h' = h ∨ h.delivers = false ∧ h'.delivers = false) :
      ∃ es, p₀.journal.events = es ++ p.journal.events ∧ JobChange t p h p₀.dispatcher es h' :=
    ⟨[e], hj, hd ▸ .none _ (by simpa using he) hh⟩
  have hsilent {h h' : Hand} {p₀ : Pipeline} (hj : p₀.journal.events = p.journal.events)
      (hd : p₀.dispatcher = p.dispatcher)
      (hh : h' = h ∨ h.delivers = false ∧ h'.delivers = false) :
      ∃ es, p₀.journal.events = es ++ p.journal.events ∧ JobChange t p h p₀.dispatcher es h' :=
    ⟨[], hj, hd ▸ .none _ (by simp) hh⟩
  have hleave {h h' : Hand} {p₀ : Pipeline} {last : Event} (hlast : last.ofJobs = false)
      (hj : p₀.journal = p.journal) (hd : p₀.dispatcher = p.dispatcher)
      (hh : h' = h ∨ h.delivers = false ∧ h'.delivers = false) :
      ∃ es, (p₀.leave t last).journal.events = es ++ p.journal.events
        ∧ JobChange t p h (p₀.leave t last).dispatcher es h' :=
    ⟨p₀.yields t last, by rw [events_leave, hj], by
      rw [dispatcher_leave, hd]
      exact .none _ (forall_yields hlast) hh⟩
  cases hs with
  | log l => exact hquiet (.logged l) rfl rfl rfl (.inl rfl)
  | start workers capacity =>
    exact ⟨[], by simp, dispatcher_startWorkers p workers capacity ▸ .start workers capacity⟩
  | count c => exact hquiet (.counted c) rfl rfl rfl (.inl rfl)
  | call c hc => exact hquiet (.called t c) hc rfl rfl (.inl rfl)
  | @queue _ _ c j _ p₁ d hs hd =>
    obtain ⟨hj, hstart, -, -, hc, asks⟩ := hs.noted
    refine ⟨[.queued t j, .submitted t j, .called t c], ?_, .queue hc asks (hstart ▸ hd)⟩
    show .queued t j :: p₁.journal.events = _
    rw [hj]
    rfl
  | @divert _ _ c j deadline p₁ _ l _ q hs hd hq =>
    cases hq
    obtain ⟨hj, hstart, -, hnow, hc, asks⟩ := hs.noted
    refine ⟨[.posted t .fallback ⟨p.now, j.url, j.body, deadline⟩, .diverted t j, .logged l,
      .submitted t j, .called t c], ?_, ?_⟩
    · show .posted t .fallback ⟨p₁.now, j.url, j.body, deadline⟩ :: .diverted t j :: .logged l
        :: p₁.journal.events = _
      rw [hj, hnow]
      rfl
    · show JobChange t p _ p₁.dispatcher.countFallback _ _
      rw [hstart] at hd ⊢
      exact .divert _ deadline (hnow ▸ Posting.due_ofReply_le _ _ _ _) hc asks hd
  | deliver due =>
    rw [deliver_eq]
    exact ⟨[_], rfl, .deliver⟩
  | direct url body deadline hq =>
    cases hq
    exact hquiet (.posted t .direct ⟨p.now, url, body, deadline⟩) rfl rfl rfl (.inr ⟨rfl, rfl⟩)
  | answered due => exact hsilent rfl rfl (.inr ⟨rfl, rfl⟩)
  | seek idle hd => exact ⟨[], rfl, .seek idle hd⟩
  | @take w _ d j _ q idle hd hq =>
    cases hq
    exact ⟨[_, _], rfl, .take _ (Posting.due_ofReply_le _ _ _ _) idle hd⟩
  | @finish w _ q busy due =>
    refine ⟨_, events_noteAll _ _, ?_⟩
    rw [List.reverse_cons, List.reverse_append]
    have hreports : ∀ e ∈ (p.outcomeReport q).reverse, e.ofJobs = false := fun e he => by
      rcases isReport_of_mem_outcomeReport (List.mem_reverse.mp he) with
        ⟨l, rfl⟩ | ⟨k, crashed, rfl⟩ <;> rfl
    have hdropped : (if (p.dispatcher.release w q).isClosed
        then [Event.dropped p.dispatcher.queued] else []).reverse
        = if (p.dispatcher.release w q).isClosed
          then [Event.dropped p.dispatcher.queued] else [] := by
      split <;> rfl
    rw [hdropped]
    exact .finish busy hreports fun f hf =>
      ⟨_, List.mem_reverse.mpr (hookCall_mem_outcomeReport hf)⟩
  | join url => exact hsilent rfl rfl (.inr ⟨rfl, rfl⟩)
  | skip turn hf => exact hleave rfl rfl rfl (.inr ⟨rfl, rfl⟩)
  | @depart _ _ url f _ q turn hf hq =>
    cases hq
    exact ⟨[_, _], rfl, .none _ (by simp [Event.ofJobs]) (.inr ⟨rfl, rfl⟩)⟩
  | @land _ _ f q due hf accepted =>
    refine ⟨p.yields t ++ [.landed t f], by simp [yields]; rfl, ?_⟩
    rw [dispatcher_leave]
    refine .none _ (fun e he => ?_) (.inr ⟨rfl, rfl⟩)
    rcases List.mem_append.mp he with he | he
    · exact forall_yields (P := fun e => e.ofJobs = false) rfl e he
    · rw [List.mem_singleton.mp he]
      rfl
  | fail due hf => exact hleave rfl rfl rfl (.inr ⟨rfl, rfl⟩)
  | @withdraw _ _ h hh =>
    refine hleave rfl rfl rfl ?_
    rcases hh with rfl | hh
    · exact .inl rfl
    · refine .inr ⟨?_, rfl⟩
      cases h with
      | free => rfl
      | waiting s => cases s <;> simp_all [Hand.flushes, Hand.isFlushing, Hand.delivers]
  | setTimer due later => exact hsilent rfl rfl (.inl rfl)
  | dropTimers => exact hsilent rfl rfl (.inl rfl)
  | resume => exact hsilent rfl rfl (.inl rfl)
  | wake u => exact hsilent rfl rfl (.inl rfl)
  | shown j hj => exact hsilent hj rfl (.inl rfl)
  | moveClock clock => exact hquiet (.clockMoved clock.now) rfl rfl rfl (.inl rfl)
  | identify identity => exact hquiet (.identified identity) rfl rfl rfl (.inl rfl)
  | adjust k n => exact hquiet (.adjusted k n) rfl rfl rfl (.inl rfl)
  | adjustReports n => exact hsilent rfl rfl (.inl rfl)

end Pipeline

end Uplink
