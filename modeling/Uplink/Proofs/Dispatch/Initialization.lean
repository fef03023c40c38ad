import Uplink.Proofs.Dispatch.Failures
import Uplink.Proofs.Dispatch.Staff
/-!
The initialization of a dispatcher.  Whatever asks first has the workers started, an operation, a
context that is built or a call that submits a job, and it says how many and with what capacity; all
that asks later changes neither.
-/
namespace Uplink

namespace Occurrence

/-- How many workers are asked for, and with what capacity; zeros ask for the defaults. -/
def request? : Occurrence → Option (Nat × Nat)
  | asked (.startWorkers workers capacity) => some (workers, capacity)
  | noted (.called _ c) => if c.submits then some (0, 0) else none
  | _ => none

end Occurrence

namespace Session

open Pipeline

/-- A context is built around the dispatcher of a session, with services, counters, an identity and
a clock of its own, and has the workers started unless they are.  Of the session there remain the
workers with their POSTs, the receiver and the journal. -/
def around (s : Session) (settings : Settings) (identity : Identity) (clock : Clock)
    (system : Option SystemClock) (demo : AgentConfig) (chance : Chance) : Session :=
  let p : Pipeline :=
    { s.toPipeline with
      identity, clock, system
      services := .create settings.historyCapacity
      kpi := .create settings.kpi
      line := []
      ready := s.ready.filter Task.isWorker
      timers := s.timers.filter (·.2.isWorker) }
  { toPipeline := p.startWorkers settings.dispatch.workers settings.dispatch.queueCapacity
    persists := chance.flusher
    generator := { config := demo, persists := chance.generator } }

theorem dispatcher_around (s : Session) (settings : Settings) (identity : Identity) (clock : Clock)
    (system : Option SystemClock) (demo : AgentConfig) (chance : Chance) :
    (s.around settings identity clock system demo chance).dispatcher
      = s.dispatcher.start settings.dispatch.workers settings.dispatch.queueCapacity :=
  dispatcher_startWorkers _ _ _

def requests (s : Session) (m : Move) : List (Nat × Nat) :=
  (s.occurrences m).filterMap Occurrence.request?

end Session

/-- How a session came about: it was created, a move was made in it, or a context was built around
its dispatcher. -/
inductive Origin where
  | create (a : Assembly) (settings : Settings) (identity : Identity) (clock : Clock)
    (receiver : Receiver) (demo : AgentConfig) (chance : Chance)
  | move (o : Origin) (m : Session.Move)
  | around (o : Origin) (settings : Settings) (identity : Identity) (clock : Clock)
    (system : Option SystemClock) (demo : AgentConfig) (chance : Chance)

namespace Origin

def session : Origin → Session
  | create a settings identity clock receiver demo chance =>
    .create a settings identity clock receiver demo chance
  | move o m => o.session.move m
  | around o settings identity clock system demo chance =>
    o.session.around settings identity clock system demo chance

def requests : Origin → List (Nat × Nat)
  | create a settings _ _ _ _ _ =>
    if a.starts then [(settings.dispatch.workers, settings.dispatch.queueCapacity)] else []
  | move o m => o.requests ++ o.session.requests m
  | around o settings _ _ _ _ _ =>
    o.requests ++ [(settings.dispatch.workers, settings.dispatch.queueCapacity)]

end Origin

namespace Session

open Pipeline

variable {s : Session} {m : Move} {asked : List (Nat × Nat)}

/-- A context that is created is one around a dispatcher made for it. -/
theorem create_context (settings : Settings) (identity : Identity) (clock : Clock)
    (receiver : Receiver) (demo : AgentConfig) (chance : Chance) :
    create .context settings identity clock receiver demo chance
      = (create .partsWithSettings settings identity clock receiver demo chance).around settings
          identity clock none demo chance := rfl

/-- One whose dispatcher was created with its workers. -/
theorem create_contextOnSystemClock (settings : Settings) (identity : Identity) (clock : Clock)
    (receiver : Receiver) (demo : AgentConfig) (chance : Chance) :
    create .contextOnSystemClock settings identity clock receiver demo chance
      = (create .partsStarted settings identity clock receiver demo chance).around settings identity
          clock (some chance.clock) demo chance := by
  have hworkers (l : List Nat) : (l.map Task.worker).filter Task.isWorker = l.map Task.worker :=
    List.filter_eq_self.mpr fun t ht => by
      obtain ⟨w, -, rfl⟩ := List.mem_map.mp ht
      rfl
  simp [create, around, Assembly.starts, startWorkers, Dispatcher.isStarted, Dispatcher.start,
    Dispatcher.create, Assembly.configures, Assembly.system, Assembly.stamps, hworkers]

/-! ### Moves -/

theorem move_continues (s : Session) (m : Move) : s.dispatcher.Continues (s.move m).dispatcher := by
  have hm := s.moves_move m
  generalize s.move m = s' at hm ⊢
  cases hm with
  | stays => exact Dispatcher.continues_of_eq rfl
  | start op free => exact (leads_start s op free).steps.continues
  | collect => exact Dispatcher.continues_of_eq (by rw [toPipeline_collect])
  | turn t _ => exact (leads_turn { s with ready := s.ready.erase t } t).steps.continues
  | elapse now =>
    exact Dispatcher.continues_of_eq (congrArg Dispatcher.pool (dispatcher_moveTo s.toPipeline now))
  | dropOwn calling flushes => exact (leads_dropOwn calling flushes).steps.continues
  | drop calling flushes => exact (leads_drop calling flushes).steps.continues
  | discard => exact (leads_stopFlushing s).steps.continues

theorem follow_continues (s : Session) (moves : List Move) :
    s.dispatcher.Continues (s.follow moves).dispatcher := by
  induction moves generalizing s with
  | nil => exact Dispatcher.continues_of_eq rfl
  | cons m moves ih => exact (s.move_continues m).trans (ih _)

/-- Whoever took a job is one of the workers that were started. -/
def Hired (p : Pipeline) : Prop :=
  ∀ w j, .taken w j ∈ p.journal.events → (p.dispatcher.worker? w).isSome

theorem invariant_hired : Invariant fun p _ => Hired p := by
  refine .of_timeless (fun hs hp w j hmem => ?_) fun _ _ _ _ _ hp => hp
  obtain ⟨es, hes, hc⟩ := hs.jobChange
  rw [hes] at hmem
  rcases List.mem_append.mp hmem with hmem | hmem
  · obtain ⟨v, j', d, q, idle, hd, heq, rfl⟩ := hc.exists_take hmem rfl
    obtain ⟨rfl, rfl⟩ : w = v ∧ j = j' := by simpa using hmem
    have hexists := (Dispatcher.continues_seek _ w).exists_worker (by rw [idle]; rfl)
    rw [hd] at hexists
    rw [heq, Dispatcher.worker?_engage hexists q]
    rfl
  · exact hc.continues.exists_worker (hp w j hmem)

/-! ### What the dispatcher was asked -/

theorem head?_filterMap_of_any {α β : Type} (f : α → Bool) (x : β) (l : List α) :
    (l.filterMap fun a => if f a then some x else none).head?
      = if l.any f then some x else none := by
  induction l with
  | nil => rfl
  | cons a l ih =>
    cases hf : f a
    · simpa [hf] using ih
    · simp [hf]

/-- Apart from the operation that has workers started, only calls ask for them. -/
theorem head?_requests (hm : ∀ workers capacity, m ≠ .start (.startWorkers workers capacity)) :
    (s.requests m).head? = if (s.noted m).any Event.isSubmission then some (0, 0) else none := by
  have hasked : (s.asked m).filterMap (fun op => Occurrence.request? (.asked op)) = [] := by
    rw [List.filterMap_eq_nil_iff]
    intro op hop
    unfold Session.asked at hop
    split at hop
    next op' =>
      split at hop
      · obtain rfl := List.mem_singleton.mp hop
        cases op <;> first | rfl | exact absurd rfl (hm _ _)
      · cases hop
    next =>
      obtain rfl := List.mem_singleton.mp hop
      rfl
    next => cases hop
  have hnoted : (fun e => Occurrence.request? (.noted e))
      = fun e => if Event.isSubmission e then some (0, 0) else none := by
    funext e
    cases e <;> rfl
  have hrequests : s.requests m
      = (s.noted m).filterMap fun e => if Event.isSubmission e then some (0, 0) else none := by
    unfold requests
    rw [filterMap_occurrences fun _ => rfl, hasked, List.nil_append, hnoted]
    -- no result asks for anything
    exact List.append_right_eq_self.mpr (List.filterMap_eq_nil_iff.mpr fun _ _ => rfl)
  rw [hrequests]
  exact head?_filterMap_of_any _ _ _

structure StaffedBy (s : Session) (requests : List (Nat × Nat)) : Prop where
  scale : s.dispatcher.scale = requests.head?.map fun (workers, capacity) =>
    Dispatcher.asked workers capacity
  quiet : requests = [] → s.journal.events.any Event.isSubmission = false
  hired : Hired s.toPipeline
  attends : s.toPipeline.Attends none

variable {requests : List (Nat × Nat)}

theorem requests_startWorkers (free : s.operator.isFree) (workers capacity : Nat) :
    s.requests (.start (.startWorkers workers capacity)) = [(workers, capacity)] := by
  have hmove : s.move (.start (.startWorkers workers capacity))
      = { s with toPipeline := s.startWorkers workers capacity } := if_pos free
  have hnoted : s.noted (.start (.startWorkers workers capacity)) = [] :=
    noted_eq_nil (by rw [hmove, journal_startWorkers])
  unfold Session.requests
  rw [filterMap_occurrences fun _ => rfl, hnoted]
  simp [Session.asked, free, told, Move.task?, hmove, Occurrence.request?]

/-- What is not begun asks for nothing. -/
theorem requests_of_not_free (busy : ¬ s.operator.isFree) (op : Operation) :
    s.requests (.start op) = [] := by
  have hmove : s.move (.start op) = s := if_neg busy
  have hnoted : s.noted (.start op) = [] := noted_eq_nil (by rw [hmove])
  unfold Session.requests
  rw [filterMap_occurrences fun _ => rfl, hnoted]
  simp [Session.asked, busy, told, Move.task?, hmove, Journal.fresh_self]

theorem StaffedBy.move (hs : s.StaffedBy requests) (m : Move) :
    (s.move m).StaffedBy (requests ++ s.requests m) := by
  have hhired : Hired (s.move m).toPipeline := move_keeps invariant_hired m hs.hired
  have hattends := move_attends hs.attends m
  cases requests with
  | cons request rest =>
    exact {
      scale := (s.move_continues m).scale_eq hs.scale
      quiet := fun hnil => absurd hnil (by simp)
      hired := hhired
      attends := hattends }
  | nil =>
    have hnone : s.dispatcher.scale = none := hs.scale
    have hquiet := hs.quiet rfl
    by_cases hm : ∃ workers capacity, m = .start (.startWorkers workers capacity)
    · obtain ⟨workers, capacity, rfl⟩ := hm
      by_cases free : s.operator.isFree
      · rw [requests_startWorkers free]
        refine ⟨?_, fun hnil => absurd hnil (by simp), hhired, hattends⟩
        rw [show s.move (.start (.startWorkers workers capacity))
          = { s with toPipeline := s.startWorkers workers capacity } from if_pos free]
        show (s.startWorkers workers capacity).dispatcher.scale = _
        rw [dispatcher_startWorkers, Dispatcher.scale_start, hnone]
        rfl
      · rw [requests_of_not_free free,
          show s.move (.start (.startWorkers workers capacity)) = s from if_neg free]
        exact hs
    · have hm : ∀ workers capacity, m ≠ .start (.startWorkers workers capacity) :=
        fun workers capacity h => hm ⟨workers, capacity, h⟩
      have hany : (s.move m).journal.events.any Event.isSubmission
          = (s.noted m).any Event.isSubmission := by
        rw [events_move, List.any_append, List.any_reverse, hquiet, Bool.or_false]
      have hhead := head?_requests (s := s) hm
      rw [← hany] at hhead
      rcases move_byJobs (.inl (Prod.ext hnone hquiet)) hm with h | h <;>
        obtain ⟨hscale, hsubmitted⟩ := Prod.mk.inj h <;> rw [hsubmitted] at hhead
      · rw [List.head?_eq_none_iff.mp hhead]
        exact ⟨hscale, fun _ => hsubmitted, hhired, hattends⟩
      · refine ⟨?_, fun hnil => ?_, hhired, hattends⟩
        · rw [List.nil_append, hhead, hscale]
          rfl
        · rw [List.nil_append] at hnil
          rw [hnil] at hhead
          cases hhead

theorem StaffedBy.around (hs : s.StaffedBy requests) (settings : Settings) (identity : Identity)
    (clock : Clock) (system : Option SystemClock) (demo : AgentConfig) (chance : Chance) :
    (s.around settings identity clock system demo chance).StaffedBy
      (requests ++ [(settings.dispatch.workers, settings.dispatch.queueCapacity)]) := by
  constructor
  case scale =>
    rw [dispatcher_around, Dispatcher.scale_start, hs.scale]
    cases requests <;> rfl
  case quiet => exact fun hnil => absurd hnil (by simp)
  case hired =>
    intro w j hmem
    have hmem : .taken w j ∈ (Pipeline.startWorkers _ _ _).journal.events := hmem
    rw [journal_startWorkers] at hmem
    rw [dispatcher_around]
    exact (s.dispatcher.continues_start _ _).exists_worker (hs.hired w j hmem)
  case attends =>
    refine Attends.startWorkers ?_ _ _
    refine hs.attends.congr ?_ rfl
    exact {
      ready := fun w _ hw => List.mem_filter.mpr ⟨hw, rfl⟩
      awaits := fun w q _ hw => hw.imp
        (fun hlt => ⟨hlt.1, List.mem_filter.mpr ⟨hlt.2, rfl⟩⟩)
        fun hdue => ⟨hdue.1, List.mem_filter.mpr ⟨hdue.2, rfl⟩⟩ }

theorem staffedBy_create (a : Assembly) (settings : Settings) (identity : Identity) (clock : Clock)
    (receiver : Receiver) (demo : AgentConfig) (chance : Chance) :
    (create a settings identity clock receiver demo chance).StaffedBy
      (Origin.create a settings identity clock receiver demo chance).requests := by
  have h := reachable_create a settings identity clock receiver demo chance
  have hhired := h.keeps invariant_hired fun p hp w j hmem => by simp [hp.events] at hmem
  refine ⟨?_, ?_, hhired, h.attends⟩
  · unfold create Origin.requests
    dsimp only
    split
    next =>
      show (Pipeline.startWorkers _ _ _).dispatcher.scale = _
      rw [dispatcher_startWorkers, Dispatcher.scale_start]
      rfl
    next => rfl
  · unfold create Origin.requests
    dsimp only
    split
    next => exact fun hnil => absurd hnil (by simp)
    next => exact fun _ => rfl

/-- Whatever came about, a dispatcher has the staff that was asked for first. -/
theorem staffedBy_session (o : Origin) : o.session.StaffedBy o.requests := by
  induction o with
  | create a settings identity clock receiver demo chance => exact staffedBy_create _ _ _ _ _ _ _
  | move o m ih => exact ih.move m
  | around o settings identity clock system demo chance ih => exact ih.around _ _ _ _ _ _

theorem StaffedBy.isStarted_eq (hs : s.StaffedBy requests) :
    s.dispatcher.isStarted = !requests.isEmpty := by
  rw [Dispatcher.isStarted_eq, hs.scale]
  cases requests <;> rfl

/-! ### All of it -/

structure Initialized (s : Session) (requests : List (Nat × Nat)) : Prop where
  /-- There are as many workers as the first request asked for, and their queue has the capacity
  that it asked for; without a request there is neither. -/
  staff : (s.dispatcher.pool.map fun pool => (pool.workers.length, pool.capacity))
    = requests.head?.map fun (workers, capacity) =>
      (if workers = 0 then 2 else workers, if capacity = 0 then 500 else capacity)
  /-- The dispatcher is started from the first request on. -/
  started : (s.start .started).2 = .flag !requests.isEmpty
  /-- The operation says that it starts the workers exactly if there was no request before. -/
  answer : ∀ workers capacity,
    (s.start (.startWorkers workers capacity)).2 = .flag requests.isEmpty
  /-- After that operation it never says so again. -/
  once : ∀ workers capacity moves workers' capacity', s.operator.isFree →
    (((s.move (.start (.startWorkers workers capacity))).follow moves).start
      (.startWorkers workers' capacity')).2 = .flag false
  /-- A pool that is there keeps its workers and its capacity, and a lost worker stays lost,
  whatever happens and whatever contexts are built around it. -/
  kept : ∀ moves, s.dispatcher.Continues (s.follow moves).dispatcher
  rebuilt : ∀ settings identity clock system demo chance,
    s.dispatcher.Continues (s.around settings identity clock system demo chance).dispatcher
  /-- Each worker of the pool is at work unless it is lost: it stands in line, can go on or waits
  for its POST. -/
  present : ∀ w, (s.dispatcher.worker? w = some .idle →
      w ∈ s.dispatcher.line ∨ .worker w ∈ s.ready)
    ∧ ∀ q, s.dispatcher.worker? w = some (.busy q) → s.toPipeline.Awaits (.worker w) q
  /-- No other worker ever took a job. -/
  hired : ∀ w j, .taken w j ∈ s.journal.events → (s.dispatcher.worker? w).isSome

/-- A dispatcher is initialized once, by whatever asks for it first. -/
theorem initialized_once (o : Origin) : o.session.Initialized o.requests := by
  have hs := staffedBy_session o
  generalize o.session = s, o.requests = requests at hs
  exact {
    staff := hs.scale
    started := congrArg Answer.flag hs.isStarted_eq
    answer := fun workers capacity => by
      show Answer.flag (!s.dispatcher.isStarted) = _
      rw [hs.isStarted_eq, Bool.not_not]
    once := fun workers capacity moves workers' capacity' free => by
      have hfirst := hs.move (.start (.startWorkers workers capacity))
      rw [requests_startWorkers free] at hfirst
      have hstarted := (follow_continues _ moves).isStarted
        (hfirst.isStarted_eq.trans (by simp))
      show Answer.flag (!(follow _ moves).dispatcher.isStarted) = _
      rw [hstarted]
      rfl
    kept := s.follow_continues
    rebuilt := fun settings identity clock system demo chance => by
      rw [dispatcher_around]
      exact s.dispatcher.continues_start _ _
    present := fun w => ⟨hs.attends.idle w (by simp), fun q => hs.attends.busy w q (by simp)⟩
    hired := hs.hired }

/-- A payload that cannot be serialized starts nothing, a job then starts the default workers, and
one of them is lost with its POST; a context around the dispatcher, and an operation, are late. -/
example :
    let parts := Origin.create .parts {} {} {} [⟨"", [.crash]⟩] {} {}
    let calls : List Move := [.start (.background (.submit "cell" none .zero)),
      .start (.background (.submit "cell" (some []) .zero)), .turn (.caller 0), .turn (.caller 1),
      .turn (.worker 0)]
    let o :=
      (calls.foldl Origin.move parts).around { dispatch := { workers := 7 } } {} {} none {} {}
    let s := o.session
    o.requests = [(0, 0), (7, 500)]
      ∧ s.dispatcher.scale = some (2, 500) ∧ s.dispatcher.worker? 0 = some .lost
      ∧ ((o.move (.start (.startWorkers 9 9))).session.dispatcher.scale = some (2, 500)) := by
  decide +kernel

end Session

end Uplink
