import Uplink.Proofs.Session.Invariant
/-!
What the steps of the pipeline note in its journal.
-/
namespace Uplink

namespace Event

def task? : Event → Option Task
  | called t _ | submitted t _ | queued t _ | diverted t _ | finished t _ | departed t _
  | landed t _
  | yielded t | withdrawn t | posted t _ _ => some t
  | taken w _ => some (.worker w)
  | _ => none

end Event

namespace Posting

/-- No POST outlasts its deadline. -/
theorem due_ofReply_le (url : String) (now : Nat) (deadline : Duration) (r : Reply) :
    (ofReply url now deadline r).due ≤ now + deadline.millis := by
  unfold ofReply
  split
  next delay outcome within =>
    obtain ⟨-, hle⟩ := Option.filter_eq_some_iff.mp within
    exact Nat.add_le_add_left (of_decide_eq_true hle) now
  next => exact Nat.le_refl _

end Posting

namespace Call

/-- A call that submits a job asks for it by its URL, and one that submits a body by its body. -/
def Asks : Call → Job → Prop
  | submit url (some body) _, j => j = ⟨url, body⟩
  | push url (.ok _) _, j => j.url = url
  | _, _ => False

end Call

namespace Pipeline

variable {quits : Prop} {t : Task} {p p₁ : Pipeline}

@[simp] theorem events_note (p : Pipeline) (e : Event) :
    (p.note e).journal.events = e :: p.journal.events := rfl

@[simp] theorem events_noteAll (p : Pipeline) (es : List Event) :
    (p.noteAll es).journal.events = es.reverse ++ p.journal.events := rfl

@[simp] theorem journal_startWorkers (p : Pipeline) (workers capacity : Nat) :
    (p.startWorkers workers capacity).journal = p.journal := by
  unfold startWorkers
  split <;> rfl

@[simp] theorem receiver_startWorkers (p : Pipeline) (workers capacity : Nat) :
    (p.startWorkers workers capacity).receiver = p.receiver := by
  unfold startWorkers
  split <;> rfl

@[simp] theorem kpi_startWorkers (p : Pipeline) (workers capacity : Nat) :
    (p.startWorkers workers capacity).kpi = p.kpi := by
  unfold startWorkers
  split <;> rfl

@[simp] theorem dispatcher_startWorkers (p : Pipeline) (workers capacity : Nat) :
    (p.startWorkers workers capacity).dispatcher = p.dispatcher.start workers capacity := by
  unfold startWorkers
  split
  next started =>
    obtain ⟨pool, hpool⟩ := Option.isSome_iff_exists.mp started
    simp [Dispatcher.start, hpool]
  next => rfl

/-- Who leaves the line notes it if it had the turn. -/
def yields (p : Pipeline) (t : Task) (e : Event := .yielded t) : List Event :=
  if p.line.head? = some t then [e] else []

theorem mem_yields {e e' : Event} : e' ∈ p.yields t e ↔ p.line.head? = some t ∧ e' = e := by
  unfold yields
  split <;> simp_all

/-- What holds of the event by which a task leaves holds of all it notes. -/
theorem forall_yields {P : Event → Prop} {e : Event} (he : P e) : ∀ e' ∈ p.yields t e, P e' :=
  fun _ he' => (mem_yields.mp he').2 ▸ he

@[simp] theorem events_leave (p : Pipeline) (t : Task) (e : Event) :
    (p.leave t e).journal.events = p.yields t e ++ p.journal.events := by
  unfold leave yields
  dsimp only
  split <;> rfl

@[simp] theorem events_withdraw (p : Pipeline) (t : Task) :
    (p.withdraw t).journal.events = p.yields t (.withdrawn t) ++ p.journal.events :=
  events_leave _ t _

@[simp] theorem dispatcher_leave (p : Pipeline) (t : Task) (e : Event) :
    (p.leave t e).dispatcher = p.dispatcher := by
  unfold leave
  dsimp only
  split <;> rfl

/-- The end of a submitter's own POST is counted and noted. -/
theorem deliver_eq (p : Pipeline) (t : Task) (q : Posting) :
    (p.deliver t q).1
      = { p with dispatcher := p.dispatcher.countOutcome q.outcome }.note (.finished t q) := by
  unfold deliver
  dsimp only
  split <;> rfl

/-- What a worker reports are lines of the log and calls of the hook. -/
theorem isReport_of_mem_outcomeReport {p : Pipeline} {q : Posting} {e : Event}
    (h : e ∈ p.outcomeReport q) : (∃ l, e = .logged l) ∨ ∃ k crashed, e = .hooked k crashed := by
  unfold outcomeReport at h
  split at h
  · rcases List.mem_cons.mp h with rfl | h
    · exact .inl ⟨_, rfl⟩
    · obtain ⟨f, -, rfl⟩ := Option.map_eq_some_iff.mp (Option.mem_toList.mp h)
      exact .inr ⟨_, _, rfl⟩
  · simp at h

/-- A worker notes the end of its POST, what it reports of it and, if it was the last one, the jobs
that are lost with it. -/
theorem mem_finish {p : Pipeline} {q : Posting} {closed : Bool} {jobs : List Job} {e : Event}
    (he : e ∈ .finished t q :: (p.outcomeReport q ++ if closed then [.dropped jobs] else [])) :
    e = .finished t q ∨ (∃ l, e = .logged l) ∨ (∃ k crashed, e = .hooked k crashed)
      ∨ e = .dropped jobs := by
  rcases List.mem_cons.mp he with finished | he
  · exact .inl finished
  · rcases List.mem_append.mp he with he | he
    · rcases isReport_of_mem_outcomeReport he with logged | hooked
      · exact .inr (.inl logged)
      · exact .inr (.inr (.inl hooked))
    · split at he
      · exact .inr (.inr (.inr (List.mem_singleton.mp he)))
      · simp at he

/-- A worker whose POST failed calls the hook if there is one. -/
theorem hookCall_mem_outcomeReport {p : Pipeline} {q : Posting} {f : DeliveryFailure}
    (h : p.dispatcher.failure? q = some f) : p.hookCall f ∈ p.outcomeReport q := by
  obtain ⟨e, failed⟩ : ∃ e, q.outcome = .failed e := by
    unfold Dispatcher.failure? at h
    split at h
    next e _ failed => exact ⟨_, failed⟩
    next => cases h
  simp [outcomeReport, failed, h]

/-- Submitting a job is noted with the call that asks for it, and starts the default workers. -/
theorem Submits.noted {c : Call} {j : Job} {deadline : Duration}
    (hs : Submits t p c j deadline p₁) :
    p₁.journal.events = .submitted t j :: .called t c :: p.journal.events
      ∧ p₁.dispatcher = p.dispatcher.start 0 0 ∧ p₁.kpi = p.kpi ∧ p₁.now = p.now
      ∧ c.submits ∧ c.Asks j := by
  cases hs with
  | submit url body deadline => exact ⟨by simp, by simp; rfl, by simp; rfl, by simp; rfl, rfl, rfl⟩
  | push url r timeout hr =>
    exact ⟨by simp, by simp; rfl, by simp; rfl, by simp; rfl, rfl, rfl⟩

/-- A step on behalf of a task notes nothing that another task did. -/
theorem Step.notes {p' : Pipeline} {h h' : Hand} (hs : Step quits t p h p' h') :
    ∃ es, p'.journal.events = es ++ p.journal.events
      ∧ ∀ e ∈ es, e.task? = none ∨ e.task? = some t := by
  have hnone {p' : Pipeline} (hj : p'.journal.events = p.journal.events) :
      ∃ es, p'.journal.events = es ++ p.journal.events
        ∧ ∀ e ∈ es, e.task? = none ∨ e.task? = some t := ⟨[], hj, by simp⟩
  have hleave {p₀ : Pipeline} {last : Event} (hlast : last.task? = some t) (es : List Event)
      (hes : ∀ e ∈ es, e.task? = none ∨ e.task? = some t)
      (hj : p₀.journal.events = es ++ p.journal.events) :
      ∃ es, (p₀.leave t last).journal.events = es ++ p.journal.events
        ∧ ∀ e ∈ es, e.task? = none ∨ e.task? = some t := by
    refine ⟨p₀.yields t last ++ es, by rw [events_leave, hj, List.append_assoc], fun e he => ?_⟩
    rcases List.mem_append.mp he with he | he
    · exact .inr ((mem_yields.mp he).2 ▸ hlast)
    · exact hes e he
  cases hs with
  | log l => exact ⟨[_], rfl, by simp [Event.task?]⟩
  | start workers capacity => exact hnone (by simp)
  | count c => exact ⟨[_], rfl, by simp [Event.task?]⟩
  | call c hc => exact ⟨[_], rfl, by simp [Event.task?]⟩
  | @queue _ _ c j _ p₁ _ hs hd =>
    refine ⟨[.queued t j, .submitted t j, .called t c], ?_, by simp [Event.task?]⟩
    show .queued t j :: p₁.journal.events = _
    rw [hs.noted.1]
    rfl
  | @divert _ _ c j deadline p₁ _ line _ _ hs hd hq =>
    cases hq
    refine ⟨[.posted t .fallback ⟨p₁.now, j.url, j.body, deadline⟩, .diverted t j, .logged line,
      .submitted t j, .called t c], ?_, by simp [Event.task?]⟩
    show _ :: .diverted t j :: .logged line :: p₁.journal.events = _
    rw [hs.noted.1]
    rfl
  | deliver due =>
    rw [deliver_eq]
    exact ⟨[_], rfl, by simp [Event.task?]⟩
  | direct url body deadline hq =>
    cases hq
    exact ⟨[_], rfl, by simp [Event.task?]⟩
  | answered due => exact hnone rfl
  | seek idle hd => exact hnone rfl
  | take idle hd hq =>
    cases hq
    exact ⟨[_, _], rfl, by simp [Event.task?]⟩
  | finish busy due =>
    refine ⟨_, events_noteAll _ _, fun e he => ?_⟩
    rcases mem_finish (List.mem_reverse.mp he) with rfl | ⟨l, rfl⟩ | ⟨k, crashed, rfl⟩ | rfl
    · exact .inr rfl
    · exact .inl rfl
    · exact .inl rfl
    · exact .inl rfl
  | join url => exact hnone rfl
  | skip turn hf => exact hleave rfl [] (by simp) rfl
  | depart turn hf hq =>
    cases hq
    exact ⟨[_, _], rfl, by simp [Event.task?]⟩
  | @land _ _ f _ due hf accepted => exact hleave rfl [.landed t f] (by simp [Event.task?]) rfl
  | fail due hf => exact hleave rfl [] (by simp) rfl
  | withdraw hh => exact hleave rfl [] (by simp) rfl
  | setTimer due later => exact hnone rfl
  | dropTimers => exact hnone rfl
  | resume => exact hnone rfl
  | wake u => exact hnone rfl
  | shown j hj => exact hnone hj
  | moveClock clock => exact ⟨[_], rfl, by simp [Event.task?]⟩
  | identify identity => exact ⟨[_], rfl, by simp [Event.task?]⟩
  | adjust k n => exact ⟨[_], rfl, by simp [Event.task?]⟩
  | adjustReports n => exact hnone rfl

theorem Steps.notes {p' : Pipeline} {h h' : Hand} (hs : Steps quits t p h p' h') :
    ∃ es, p'.journal.events = es ++ p.journal.events
      ∧ ∀ e ∈ es, e.task? = none ∨ e.task? = some t := by
  induction hs with
  | refl => exact ⟨[], rfl, by simp⟩
  | tail _ hl ih =>
    obtain ⟨es, hes, hown⟩ := ih
    obtain ⟨es', hes', hown'⟩ := hl.notes
    refine ⟨es' ++ es, by rw [hes', hes, List.append_assoc], fun e he => ?_⟩
    exact (List.mem_append.mp he).elim (hown' e) (hown e)

end Pipeline

namespace Session

theorem kpi_create (a : Assembly) (settings : Settings) (identity : Identity) (clock : Clock)
    (receiver : Receiver) (demo : AgentConfig) (chance : Chance) :
    (create a settings identity clock receiver demo chance).kpi = .create settings.kpi :=
  create_of_startWorkers (P := fun p => p.kpi = .create settings.kpi) rfl
    fun p workers capacity hp => (p.kpi_startWorkers workers capacity).trans hp

end Session

end Uplink
