import Mathlib.Data.List.Forall2
import Mathlib.Data.List.Nodup
import Uplink.Proofs.Dispatch.Ledger
/-!
No job is lost, posted twice or posted out of order: what the queue accepts is taken in that order,
whatever is taken is posted once, and what it does not accept its submitter posts once.
-/
namespace Uplink

namespace Ledger

variable {quits : Prop} {l : Ledger} {d d' : Dispatcher} {t : Task} {c : Call} {j : Job}

/-- Each push was queued or diverted; `queuedAt` and `divertedAt` are the numbers of those that
were, in order. -/
structure Splits (l : Ledger) (queuedAt divertedAt : List Nat) : Prop where
  perm : (queuedAt ++ divertedAt).Perm (List.range l.pushes.length)
  queuedInOrder : queuedAt.Pairwise (· < ·)
  divertedInOrder : divertedAt.Pairwise (· < ·)
  accepted : List.Forall₂ (fun n j => ∃ t, l.pushes[n]? = some (t, j)) queuedAt l.accepted
  diverted : List.Forall₂ (fun n push => l.pushes[n]? = some push) divertedAt l.diverted

structure Orderly (l : Ledger) (d : Dispatcher) : Prop where
  order : l.accepted = l.taken.map Prod.snd ++ l.dropped ++ d.queued
  alive : d.isClosed = false → l.dropped = []
  closed : d.isClosed = true → d.queued = []
  deliveries : l.deliveries = l.taken
  fallbacks : l.fallbacks = l.diverted
  calls : List.Forall₂ (fun c push => c.1 = push.1 ∧ c.2.Asks push.2) l.calls l.pushes
  splits : ∃ queuedAt divertedAt, l.Splits queuedAt divertedAt

/-! ### The fate of a push -/

/-- One more push leaves the earlier ones at their numbers. -/
theorem getElem?_pushes_append {push : Task × Job} {n : Nat} (h : l.pushes[n]? = some push)
    (push' : Task × Job) : (l.pushes ++ [push'])[n]? = some push := by
  have hn : n < l.pushes.length := (List.getElem?_eq_some_iff.mp h).1
  rwa [List.getElem?_append_left hn]

theorem Splits.lt {queuedAt divertedAt : List Nat} (h : l.Splits queuedAt divertedAt) {n : Nat}
    (hn : n ∈ queuedAt ++ divertedAt) : n < l.pushes.length :=
  List.mem_range.mp (h.perm.mem_iff.mp hn)

/-- The next push has a number above all others. -/
theorem pairwise_append_length {numbers : List Nat} (h : numbers.Pairwise (· < ·))
    (hlt : ∀ n ∈ numbers, n < l.pushes.length) :
    (numbers ++ [l.pushes.length]).Pairwise (· < ·) := by
  rw [List.pairwise_append]
  refine ⟨h, List.pairwise_singleton _ _, fun n hn m hm => ?_⟩
  cases List.mem_singleton.mp hm
  exact hlt n hn

/-- A push that is queued. -/
theorem enterAll_queue (hc : c.submits) (l : Ledger) (t : Task) (j : Job) :
    enterAll [.queued t j, .submitted t j, .called t c] l
      = { l with
        calls := l.calls ++ [(t, c)]
        pushes := l.pushes ++ [(t, j)]
        accepted := l.accepted ++ [j] } := by
  simp [enterAll, enter, hc]

/-- A push that is diverted. -/
theorem enterAll_divert (hc : c.submits) (l : Ledger) (t : Task) (j : Job) (now : Nat)
    (line : LogEntry) (deadline : Duration) :
    enterAll [.posted t .fallback ⟨now, j.url, j.body, deadline⟩, .diverted t j, .logged line,
        .submitted t j, .called t c] l
      = { l with
        calls := l.calls ++ [(t, c)]
        pushes := l.pushes ++ [(t, j)]
        diverted := l.diverted ++ [(t, j)]
        fallbacks := l.fallbacks ++ [(t, j)] } := by
  simp [enterAll, enter, hc]

theorem Splits.queue {queuedAt divertedAt : List Nat} (h : l.Splits queuedAt divertedAt)
    (hc : c.submits) :
    (enterAll [.queued t j, .submitted t j, .called t c] l).Splits
      (queuedAt ++ [l.pushes.length]) divertedAt := by
  rw [enterAll_queue hc]
  constructor
  case perm =>
    have hmove : (queuedAt ++ [l.pushes.length] ++ divertedAt).Perm
        (queuedAt ++ divertedAt ++ [l.pushes.length]) := by
      rw [List.append_assoc, List.append_assoc]
      exact List.perm_append_comm.append_left queuedAt
    simpa [List.range_succ] using hmove.trans (h.perm.append_right _)
  case queuedInOrder =>
    exact pairwise_append_length h.queuedInOrder fun n hn => h.lt (List.mem_append_left _ hn)
  case divertedInOrder => exact h.divertedInOrder
  case accepted =>
    refine List.rel_append ?_ (.cons ⟨t, by simp⟩ .nil)
    exact h.accepted.imp fun n j' ⟨t', hn⟩ => ⟨t', getElem?_pushes_append hn _⟩
  case diverted => exact h.diverted.imp fun n push hn => getElem?_pushes_append hn _

theorem Splits.divert {queuedAt divertedAt : List Nat} (h : l.Splits queuedAt divertedAt)
    (hc : c.submits) (now : Nat) (line : LogEntry) (deadline : Duration) :
    (enterAll [.posted t .fallback ⟨now, j.url, j.body, deadline⟩, .diverted t j, .logged line,
        .submitted t j, .called t c] l).Splits queuedAt (divertedAt ++ [l.pushes.length]) := by
  rw [enterAll_divert hc]
  constructor
  case perm => simpa [List.range_succ] using h.perm.append_right [l.pushes.length]
  case queuedInOrder => exact h.queuedInOrder
  case divertedInOrder =>
    exact pairwise_append_length h.divertedInOrder fun n hn => h.lt (List.mem_append_right _ hn)
  case accepted => exact h.accepted.imp fun n j' ⟨t', hn⟩ => ⟨t', getElem?_pushes_append hn _⟩
  case diverted =>
    refine List.rel_append ?_ (.cons (by simp) .nil)
    exact h.diverted.imp fun n push hn => getElem?_pushes_append hn _

/-! ### What the steps keep -/

/-- Only the queue matters, whether it is closed, and what the ledger says besides crashes. -/
theorem Orderly.congr (h : l.Orderly d) (hqueued : d'.queued = d.queued)
    (hclosed : d'.isClosed = d.isClosed) (crashed : Nat) : { l with crashed }.Orderly d' where
  order := hqueued ▸ h.order
  alive := hclosed ▸ h.alive
  closed := fun hd => hqueued ▸ h.closed (hclosed ▸ hd)
  deliveries := h.deliveries
  fallbacks := h.fallbacks
  calls := h.calls
  splits := h.splits.imp fun _ => .imp fun _ hs => ⟨hs.1, hs.2, hs.3, hs.4, hs.5⟩

/-- A job that is queued goes to the end of the queue. -/
theorem Orderly.queue (h : l.Orderly d) (hc : c.submits) (asks : c.Asks j)
    (hd : d.offer j = .ok d') :
    (enterAll [.queued t j, .submitted t j, .called t c] l).Orderly d' := by
  obtain ⟨queuedAt, divertedAt, hsplits⟩ := h.splits
  have hsplits' := hsplits.queue (t := t) (j := j) hc
  rw [enterAll_queue hc] at hsplits' ⊢
  exact {
    order := by
      show l.accepted ++ [j] = _
      rw [h.order, Dispatcher.queued_offer hd, List.append_assoc]
    alive := fun _ => h.alive (Dispatcher.isClosed_of_offer hd)
    closed := fun hclosed => absurd hclosed (by simp [Dispatcher.isClosed_offer hd])
    deliveries := h.deliveries
    fallbacks := h.fallbacks
    calls := List.rel_append h.calls (.cons ⟨rfl, asks⟩ .nil)
    splits := ⟨_, _, hsplits'⟩ }

/-- A job that is diverted is posted by its submitter, and the queue stays as it is. -/
theorem Orderly.divert (h : l.Orderly d) (hc : c.submits) (asks : c.Asks j) (now : Nat)
    (line : LogEntry) (deadline : Duration) :
    (enterAll [.posted t .fallback ⟨now, j.url, j.body, deadline⟩, .diverted t j, .logged line,
      .submitted t j, .called t c] l).Orderly d.countFallback := by
  obtain ⟨queuedAt, divertedAt, hsplits⟩ := h.splits
  have hsplits' := hsplits.divert (t := t) (j := j) hc now line deadline
  rw [enterAll_divert hc] at hsplits' ⊢
  exact {
    order := h.order
    alive := h.alive
    closed := h.closed
    deliveries := h.deliveries
    fallbacks := by
      show l.fallbacks ++ [(t, j)] = l.diverted ++ [(t, j)]
      rw [h.fallbacks]
    calls := List.rel_append h.calls (.cons ⟨rfl, asks⟩ .nil)
    splits := ⟨_, _, hsplits'⟩ }

/-- A worker takes the oldest job and posts it. -/
theorem Orderly.take (h : l.Orderly d) {w : Nat} (idle : d.worker? w = some .idle)
    (hd : d.seek w = (d', some j)) (q : Posting) (now : Nat) (deadline : Duration) :
    (enterAll [.posted (.worker w) .delivery ⟨now, j.url, j.body, deadline⟩, .taken w j] l).Orderly
      (d'.engage w q) := by
  obtain ⟨hqueued, -, -, hworker⟩ := d.seek_eq w
  rw [hd] at hqueued hworker
  have hdropped := h.alive (Dispatcher.isClosed_eq_false_of_worker? idle rfl)
  have hbusy := Dispatcher.worker?_engage (d := d') (w := w) (by simp [hworker, idle]) q
  have hopen := Dispatcher.isClosed_eq_false_of_worker? hbusy rfl
  exact {
    order := by
      show l.accepted = (l.taken ++ [(Task.worker w, j)]).map Prod.snd ++ l.dropped ++ _
      rw [h.order, hdropped, hqueued]
      simp
    alive := fun _ => hdropped
    closed := fun hclosed => absurd hclosed (by simp [hopen])
    deliveries := by
      show l.deliveries ++ [(.worker w, j)] = l.taken ++ [(.worker w, j)]
      rw [h.deliveries]
    fallbacks := h.fallbacks
    calls := h.calls
    splits := h.splits.imp fun _ => .imp fun _ hs => ⟨hs.1, hs.2, hs.3, hs.4, hs.5⟩ }

/-- The jobs in the queue are dropped with the last worker. -/
theorem Orderly.drop (h : l.Orderly d) (hclosed : d'.isClosed = true)
    (hqueued : d'.queued = []) : (enter (.dropped d.queued) l).Orderly d' where
  order := by
    show l.accepted = l.taken.map Prod.snd ++ (l.dropped ++ d.queued) ++ d'.queued
    rw [hqueued, h.order, List.append_nil, List.append_assoc]
  alive := fun hopen => absurd hclosed (by simp [hopen])
  closed := fun _ => hqueued
  deliveries := h.deliveries
  fallbacks := h.fallbacks
  calls := h.calls
  splits := h.splits.imp fun _ => .imp fun _ hs => ⟨hs.1, hs.2, hs.3, hs.4, hs.5⟩

/-- The POST of a worker is over. -/
theorem Orderly.finish (h : l.Orderly d) {w : Nat} {q : Posting} {reports : List Event}
    (busy : d.worker? w = some (.busy q)) (hreports : ∀ e ∈ reports, e.ofJobs = false) :
    (enterAll ((if (d.release w q).isClosed then [.dropped d.queued] else []) ++ reports
      ++ [.finished (.worker w) q]) l).Orderly (d.release w q) := by
  have alive := Dispatcher.isClosed_eq_false_of_worker? busy rfl
  have hqueued := Dispatcher.queued_release busy
  rw [List.append_assoc, enterAll_append, enterAll_finish hreports]
  split
  next hclosed =>
    rw [if_pos hclosed] at hqueued
    exact (h.congr rfl rfl _).drop hclosed hqueued
  next hopen =>
    rw [if_neg hopen] at hqueued
    exact h.congr hqueued (by simpa [alive] using hopen) _

/-! ### Where POSTs come from -/

/-- Each POST of a job has a push of its own that asked for it. -/
theorem Orderly.origins (h : l.Orderly d) : ∃ origins : List Nat, origins.Nodup
    ∧ List.Forall₂ (fun n post => ∃ t, l.pushes[n]? = some (t, post.2)) origins
      (l.deliveries ++ l.fallbacks) := by
  obtain ⟨queuedAt, divertedAt, hs⟩ := h.splits
  refine ⟨queuedAt.take l.deliveries.length ++ divertedAt, ?_, List.rel_append ?_ ?_⟩
  · have hall : (queuedAt ++ divertedAt).Nodup := hs.perm.nodup_iff.mpr List.nodup_range
    exact hall.sublist ((List.take_sublist _ _).append_right _)
  · have htaken : l.accepted.take l.deliveries.length = l.deliveries.map Prod.snd := by
      rw [h.order, h.deliveries, List.append_assoc, List.take_left' (by simp)]
    have haccepted := List.forall₂_take l.deliveries.length hs.accepted
    rw [htaken] at haccepted
    exact List.forall₂_map_right_iff.mp haccepted
  · rw [h.fallbacks]
    exact hs.diverted.imp fun n push hn => ⟨push.1, hn⟩

end Ledger

namespace Pipeline

theorem orderly_step {t : Task} {p p' : Pipeline} {h h' : Hand} (hs : Step quits t p h p' h')
    (hp : p.journal.ledger.Orderly p.dispatcher) : p'.journal.ledger.Orderly p'.dispatcher := by
  obtain ⟨es, hes, hchange⟩ := hs.jobChange
  rw [ledger_of_events hes]
  generalize p'.dispatcher = d at hchange
  have hstart := hp.congr (p.dispatcher.queued_start 0 0) (p.dispatcher.isClosed_start 0 0)
    p.journal.ledger.crashed
  cases hchange with
  | none _ hquiet => rwa [Ledger.enterAll_of_not_ofJobs hquiet]
  | start workers capacity =>
    exact hp.congr (p.dispatcher.queued_start _ _) (p.dispatcher.isClosed_start _ _) _
  | queue hc asks hd => exact hstart.queue hc asks hd
  | divert q deadline within hc asks hd => exact hstart.divert hc asks p.now _ deadline
  | @deliver q =>
    rw [Dispatcher.countOutcome_eq]
    exact hp.congr (by rfl) (by rfl) _
  | @seek w d idle hd =>
    have hqueued := (p.dispatcher.seek_eq w).1
    have hclosed := p.dispatcher.isClosed_seek w
    rw [hd] at hqueued hclosed
    exact hp.congr hqueued.symm hclosed _
  | take q within idle hd => exact hp.take idle hd q p.now _
  | finish busy hreports hooked => exact hp.finish busy hreports

theorem orderly_of_fresh {p : Pipeline} (hp : p.Fresh) :
    p.journal.ledger.Orderly p.dispatcher := by
  obtain ⟨settings, hd⟩ := hp.dispatcher
  rw [hp.ledger_eq, hd]
  exact ⟨rfl, fun _ => rfl, fun _ => rfl, rfl, rfl, .nil, [], [], ⟨.nil, .nil, .nil, .nil, .nil⟩⟩

theorem invariant_orderly : Invariant fun p _ => p.journal.ledger.Orderly p.dispatcher :=
  .of_timeless orderly_step fun _ _ _ _ _ hp => hp

end Pipeline

namespace Session

/-- At every point of every session the ledger of the dispatcher is orderly, and each POST of a job
has a push of its own that asked for it. -/
theorem ledger_orderly {s : Session} (h : s.Reachable) :
    s.journal.ledger.Orderly s.dispatcher
      ∧ ∃ origins : List Nat, origins.Nodup
        ∧ List.Forall₂ (fun n post => ∃ t, s.journal.ledger.pushes[n]? = some (t, post.2)) origins
          (s.journal.ledger.deliveries ++ s.journal.ledger.fallbacks) := by
  have horderly := h.keeps Pipeline.invariant_orderly fun _ hp => Pipeline.orderly_of_fresh hp
  exact ⟨horderly, horderly.origins⟩

/-- One worker, a queue for one job, and a hook that crashes: the first job is taken and its POST
hangs, the second one is dropped when the hook takes the worker, and the others are posted by their
submitters, one because the queue is full and one because it is closed. -/
def overrun : Session :=
  (create .partsStarted { dispatch := { workers := 1, queueCapacity := 1, hook := some .crashes } }
    {} {} [⟨"one", [.hang]⟩] {}).follow
    [.turn (.worker 0),
      .start (.background (.submit "one" (some [1]) .zero)), .turn (.caller 0), .turn (.worker 0),
      .start (.background (.submit "two" (some [2]) .zero)), .turn (.caller 1),
      .start (.background (.submit "three" (some [3]) .zero)), .turn (.caller 2),
      .elapse 3000, .turn (.worker 0),
      .start (.background (.submit "four" (some [4]) .zero)), .turn (.caller 3)]

theorem ledger_orderly_overrun :
    (overrun.journal.ledger.deliveries = [(.worker 0, ⟨"one", [1]⟩)]
      ∧ overrun.journal.ledger.dropped = [⟨"two", [2]⟩]
      ∧ overrun.journal.ledger.fallbacks
        = [(.caller 2, ⟨"three", [3]⟩), (.caller 3, ⟨"four", [4]⟩)])
    ∧ overrun.journal.ledger.Orderly overrun.dispatcher :=
  ⟨by decide +kernel, (ledger_orderly ⟨_, _, _, _, _, _, _, _, rfl⟩).1⟩

end Session

end Uplink
