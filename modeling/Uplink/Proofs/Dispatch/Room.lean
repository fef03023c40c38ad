import Uplink.Proofs.Dispatch.InFlight
import Uplink.Proofs.Session.Delivering
/-!
Room in the queue.  A job that is submitted is queued if there is room for it and a worker left, and
is posted by its submitter otherwise; the queue never holds more jobs than it has room for.
-/
namespace Uplink

namespace Dispatcher

def capacity (d : Dispatcher) : Nat := (d.pool.map Pool.capacity).getD 0

/-- Whether there is room for one more job and a worker left. -/
def HasRoom (d : Dispatcher) : Prop := d.queued.length < d.capacity ∧ 0 < d.alive

instance (d : Dispatcher) : Decidable d.HasRoom :=
  inferInstanceAs (Decidable (d.queued.length < d.capacity ∧ 0 < d.alive))

variable {d d' : Dispatcher} {w : Nat} {j : Job} {q : Posting} {o : Outcome}

@[simp] theorem capacity_seek (d : Dispatcher) (w : Nat) : (d.seek w).1.capacity = d.capacity := by
  have hjoin (p : Pool) : (p.join w).capacity = p.capacity := by
    unfold Pool.join
    split <;> rfl
  unfold seek
  split
  next => rfl
  next p hp =>
    simp only [capacity, hp, Option.map_some, Option.getD_some]
    rcases p.seek_cases w with ⟨hseek, -⟩ | ⟨line, j, jobs, -, -, hseek⟩
    · rw [hseek, hjoin]
    · rw [hseek]
      exact hjoin p

@[simp] theorem capacity_engage (d : Dispatcher) (w : Nat) (q : Posting) :
    (d.engage w q).capacity = d.capacity := by
  cases hp : d.pool <;> simp [capacity, engage, updatePool, Pool.assign, hp]

@[simp] theorem capacity_release (d : Dispatcher) (w : Nat) (q : Posting) :
    (d.release w q).capacity = d.capacity := by
  have hlose (p : Pool) : (p.lose w).capacity = p.capacity := by
    unfold Pool.lose
    dsimp only
    split <;> rfl
  rw [release_eq]
  cases hp : d.pool with
  | none => simp [capacity, hp]
  | some p =>
    simp only [capacity, hp, Option.map_some, Option.getD_some]
    split
    · exact hlose p
    · rfl

theorem alive_pos_iff {p : Pool} (hp : d.pool = some p) : 0 < d.alive ↔ p.isClosed = false := by
  unfold alive Pool.isClosed
  rw [hp, Option.map_some, Option.getD_some, List.countP_pos_iff, List.all_eq_false]
  simp

/-- A job is queued exactly if there is room for it. -/
theorem exists_offer_iff : (∃ d', d.offer j = .ok d') ↔ d.HasRoom := by
  constructor
  · rintro ⟨d', h⟩
    obtain ⟨p, hp, open', room, -⟩ := offer_eq h
    constructor
    · simpa [queued, capacity, hp] using room
    · exact (alive_pos_iff hp).mpr open'
  · rintro ⟨room, alive⟩
    cases hp : d.pool with
    | none => simp [capacity, hp] at room
    | some p =>
      have open' : p.isClosed = false := (alive_pos_iff hp).mp alive
      have room : ¬p.capacity ≤ p.jobs.length := by
        simpa [queued, capacity, hp] using room
      simp [offer, hp, Pool.offer, open', room, Except.map]

/-! ### The queue within its capacity -/

def Bounded (d : Dispatcher) : Prop := d.queued.length ≤ d.capacity

theorem Bounded.start (h : d.Bounded) (workers capacity : Nat) :
    (d.start workers capacity).Bounded := by
  obtain ⟨pool, heq, rfl | ⟨hp, n, -, c, rfl⟩⟩ := d.start_eq workers capacity
  · rw [heq]
    exact h
  · rw [heq]
    exact Nat.zero_le c

theorem Bounded.offer (h : d.offer j = .ok d') : d'.Bounded := by
  obtain ⟨p, hp, -, room, rfl⟩ := offer_eq h
  simp only [Bounded, queued, capacity, Option.map_some, Option.getD_some, List.length_append,
    List.length_singleton]
  omega

theorem Bounded.seek {job : Option Job} (h : d.Bounded) (hd : d.seek w = (d', job)) :
    d'.Bounded := by
  have taken : d.queued = job.toList ++ d'.queued := by
    have := (d.seek_eq w).1
    rwa [hd] at this
  have same : d'.capacity = d.capacity := by
    have := d.capacity_seek w
    rwa [hd] at this
  have fewer : d'.queued.length ≤ d.queued.length := by
    rw [taken, List.length_append]
    omega
  unfold Bounded
  rw [same]
  exact Nat.le_trans fewer h

theorem Bounded.release (h : d.Bounded) (busy : d.worker? w = some (.busy q)) :
    (d.release w q).Bounded := by
  unfold Bounded
  rw [capacity_release, queued_release busy]
  split
  · exact Nat.zero_le _
  · exact h

end Dispatcher

namespace Pipeline

open Dispatcher

variable {t : Task} {p p' : Pipeline} {h h' : Hand} {d : Dispatcher}

theorem JobChange.bounded {es : List Event} (hc : JobChange t p h d es h')
    (hp : p.dispatcher.Bounded) : d.Bounded := by
  cases hc with
  | none es hes hh => exact hp
  | start workers capacity => exact hp.start workers capacity
  | queue hc asks hd => exact Bounded.offer hd
  | divert q deadline within hc asks hd => exact hp.start 0 0
  | deliver =>
    rw [countOutcome_eq]
    exact hp
  | seek idle hd => exact hp.seek hd
  | @take w d _ q within idle hd =>
    have taken : d.Bounded := hp.seek hd
    unfold Dispatcher.Bounded
    rw [queued_engage, capacity_engage]
    exact taken
  | finish busy hreports hooked => exact hp.release busy

theorem invariant_bounded : Invariant fun p _ => p.dispatcher.Bounded :=
  by
  refine .of_timeless (fun hs hp => ?_) fun _ _ _ _ _ hp => hp
  obtain ⟨es, -, hc⟩ := hs.jobChange
  exact hc.bounded hp

/-! ### Submissions -/

/-- A task that submits a job has it queued: the call is over, and nothing is posted. -/
structure Queues (p : Pipeline) (j : Job) (r : Pipeline × Stage) : Prop where
  result : r.2 = .ended (.pushed (.ok ()))
  now : r.1.now = p.now
  queued : r.1.dispatcher.queued = p.dispatcher.queued ++ [j]
  totals : r.1.dispatcher.totals =
    { p.dispatcher.totals with queued := p.dispatcher.totals.queued + 1 }
  posts : r.1.journal.posts = p.journal.posts
  receiver : r.1.receiver = p.receiver

/-- A task that submits a job posts it itself, once, under its own deadline, and leaves the queue
alone. -/
structure Diverts (p : Pipeline) (j : Job) (deadline : Duration) (r : Pipeline × Stage) :
    Prop where
  now : r.1.now = p.now
  queued : r.1.dispatcher.queued = p.dispatcher.queued
  accepted : r.1.dispatcher.totals.queued = p.dispatcher.totals.queued
  fallback : r.1.dispatcher.totals.fallback = p.dispatcher.totals.fallback + 1
  posts : r.1.journal.posts = ⟨p.now, j.url, j.body, deadline⟩ :: p.journal.posts

/-- The pipeline in which a body that is submitted is offered to the queue. -/
def submitted (p : Pipeline) (t : Task) (url : String) (body : Octets) (deadline : Duration) :
    Pipeline :=
  ((p.note (.called t (.submit url (some body) deadline))).note
    (.submitted t ⟨url, body⟩)).startWorkers 0 0

variable {url : String} {body : Octets} {deadline : Duration}

theorem submits_submitted (p : Pipeline) (t : Task) (url : String) (body : Octets)
    (deadline : Duration) :
    Submits t p (.submit url (some body) deadline) ⟨url, body⟩ deadline
      (p.submitted t url body deadline) := .submit url body deadline

/-- Where there is room, the job is queued, whatever the receiver would answer. -/
theorem begin_queues (url : String) (body : Octets) (deadline : Duration) (t : Task)
    (room : (p.dispatcher.start 0 0).HasRoom) :
    p.Queues ⟨url, body⟩ (p.begin t (.submit url (some body) deadline))
      ∧ (p.begin t (.submit url (some body) deadline)).1.journal.postsOf t
        = p.journal.postsOf t := by
  obtain ⟨hevents, hstart, -, hnow, -, -⟩ :=
    (p.submits_submitted t url body deadline).noted
  have hreceiver : (p.submitted t url body deadline).receiver = p.receiver :=
    receiver_startWorkers _ 0 0
  obtain ⟨d, hd⟩ := exists_offer_iff (j := ⟨url, body⟩).mpr room
  have hqueued := queued_offer hd
  have htotals := totals_offer hd
  rw [queued_start] at hqueued
  rw [totals_start] at htotals
  have hbegin : p.begin t (.submit url (some body) deadline)
      = (({ p.submitted t url body deadline with dispatcher := d }.note
        (.queued t ⟨url, body⟩)).wakeFirst (d.line.map .worker), .ended (.pushed (.ok ()))) := by
    rw [← hstart] at hd
    show submit _ _ _ _ = _
    rw [submit]
    dsimp only
    rw [show Pipeline.startWorkers _ 0 0 = p.submitted t url body deadline from rfl, hd]
  rw [hbegin]
  refine ⟨⟨rfl, hnow, hqueued, htotals, ?_, hreceiver⟩, ?_⟩
  · show (Event.queued t ⟨url, body⟩ :: (p.submitted t url body deadline).journal.events).filterMap
      Event.post? = _
    rw [hevents]
    rfl
  · show (Event.queued t ⟨url, body⟩ :: (p.submitted t url body deadline).journal.events).filterMap
      (Event.postOf? t) = _
    rw [hevents]
    rfl

/-- A job that is not queued is posted by its submitter, who waits for the end of the POST unless it
is over at once. -/
theorem fallback_diverts (p : Pipeline) (t : Task) (j : Job) (deadline : Duration) :
    p.Diverts j deadline (p.fallback t j deadline)
      ∧ (p.fallback t j deadline).1.journal.postsOf t
        = ⟨p.now, j.url, j.body, deadline⟩ :: p.journal.postsOf t
      ∧ (p.fallback t j deadline).2.EndsWith p.now
        (p.now + ((p.receiver.answer j.url).1.verdict j.url deadline).1)
        ((p.receiver.answer j.url).1.verdict j.url deadline).2 := by
  obtain ⟨hdue, hverdict⟩ :=
    Posting.ofReply_verdict j.url p.now deadline (p.receiver.answer j.url).1
  have later : p.now ≤ (Posting.ofReply j.url p.now deadline (p.receiver.answer j.url).1).due := by
    omega
  have posted (es : List Event) : (Event.posted t .fallback ⟨p.now, j.url, j.body, deadline⟩
      :: .diverted t j :: es).filterMap (Event.postOf? t)
        = ⟨p.now, j.url, j.body, deadline⟩ :: es.filterMap (Event.postOf? t) := by
    have own : Event.postOf? t (.posted t .fallback ⟨p.now, j.url, j.body, deadline⟩)
        = some ⟨p.now, j.url, j.body, deadline⟩ := if_pos rfl
    rw [List.filterMap_cons_some own]
    rfl
  unfold fallback
  dsimp only [post, note]
  rw [← hdue, ← hverdict]
  generalize Posting.ofReply j.url p.now deadline (p.receiver.answer j.url).1 = q at later ⊢
  split
  next due =>
    rw [deliver_snd, deliver_eq, countOutcome_eq]
    refine ⟨⟨rfl, rfl, ?_, ?_, rfl⟩, posted _, Nat.le_antisymm later due, rfl⟩
    · cases q.outcome <;> rfl
    · cases q.outcome <;> rfl
  next later => exact ⟨⟨rfl, rfl, rfl, rfl, rfl⟩, posted _, Nat.lt_of_not_le later, rfl, rfl⟩

/-- Where there is none, the submitter posts the job itself, and waits for the end of the POST
unless it is over at once. -/
theorem begin_diverts (url : String) (body : Octets) (deadline : Duration) (t : Task)
    (full : ¬(p.dispatcher.start 0 0).HasRoom) :
    p.Diverts ⟨url, body⟩ deadline (p.begin t (.submit url (some body) deadline))
      ∧ (p.begin t (.submit url (some body) deadline)).1.journal.postsOf t
        = ⟨p.now, url, body, deadline⟩ :: p.journal.postsOf t
      ∧ (p.begin t (.submit url (some body) deadline)).2.EndsWith p.now
        (p.now + ((p.receiver.answer url).1.verdict url deadline).1)
        ((p.receiver.answer url).1.verdict url deadline).2 := by
  obtain ⟨hevents, hstart, -, hnow, -, -⟩ :=
    (p.submits_submitted t url body deadline).noted
  have hreceiver : (p.submitted t url body deadline).receiver = p.receiver :=
    receiver_startWorkers _ 0 0
  obtain ⟨line, hbegin⟩ : ∃ line : LogEntry, p.begin t (.submit url (some body) deadline)
      = ((p.submitted t url body deadline).note (.logged line)).fallback t ⟨url, body⟩
        deadline := by
    show ∃ _, submit _ _ _ _ = _
    rw [submit]
    dsimp only
    rw [show Pipeline.startWorkers _ 0 0 = p.submitted t url body deadline from rfl, hstart]
    cases hd : (p.dispatcher.start 0 0).offer ⟨url, body⟩ with
    | ok d => exact absurd (exists_offer_iff.mp ⟨d, hd⟩) full
    | error refusal => cases refusal <;> exact ⟨_, rfl⟩
  obtain ⟨hdiverts, hposted, hends⟩ :=
    ((p.submitted t url body deadline).note (.logged line)).fallback_diverts t ⟨url, body⟩ deadline
  rw [← hbegin] at hdiverts hposted hends
  have hlogged : ((p.submitted t url body deadline).note (.logged line)).now = p.now := hnow
  have hqueued : ((p.submitted t url body deadline).note (.logged line)).dispatcher.queued
      = p.dispatcher.queued := by
    show (p.submitted t url body deadline).dispatcher.queued = _
    rw [hstart, queued_start]
  have htotals : ((p.submitted t url body deadline).note (.logged line)).dispatcher.totals
      = p.dispatcher.totals := by
    show (p.submitted t url body deadline).dispatcher.totals = _
    rw [hstart, totals_start]
  have hposts : ((p.submitted t url body deadline).note (.logged line)).journal.posts
      = p.journal.posts := by
    show (Event.logged line :: (p.submitted t url body deadline).journal.events).filterMap _ = _
    rw [hevents]
    rfl
  have hposts' : ((p.submitted t url body deadline).note (.logged line)).journal.postsOf t
      = p.journal.postsOf t := by
    show (Event.logged line :: (p.submitted t url body deadline).journal.events).filterMap _ = _
    rw [hevents]
    rfl
  obtain ⟨-, queued, accepted, counted, posts⟩ := hdiverts
  rw [hlogged, hposts] at posts
  rw [hlogged, hposts'] at hposted
  rw [hlogged] at hends
  rw [hqueued] at queued
  rw [htotals] at accepted counted
  have hnow' := (@begin_steps False p t (.submit url (some body) deadline)).now_eq
  exact ⟨⟨hnow', queued, accepted, counted, posts⟩, hposted, hreceiver ▸ hends⟩

end Pipeline

namespace Session

open Pipeline Dispatcher

variable {s : Session}

/-- At every point of every session, the queue holds no more jobs than it can. -/
theorem Reachable.bounded (h : s.Reachable) : s.dispatcher.Bounded :=
  h.keeps invariant_bounded fun p fresh => by
    obtain ⟨settings, hd⟩ := fresh.dispatcher
    rw [hd]
    exact Nat.zero_le _

/-- The queue never holds more jobs than it can.  With room in it and a worker left, once the
default workers are started if none were, a body that is submitted is queued at once, whatever the
receiver would answer.  Otherwise the queue stays as it is and the submitter posts the body once,
under its own deadline: it is told of success exactly if the answer is one and comes no later than
the deadline, of a crash if the POST crashes, and else of the failure of this very POST, at the time
of the answer or of the deadline, whichever is first. -/
theorem push_by_room (h : s.Reachable) (url : String) (body : Octets) (deadline : Duration) :
    let c : Call := .submit url (some body) deadline
    let reply := (s.receiver.answer url).1
    s.dispatcher.queued.length ≤ s.dispatcher.capacity
    ∧ ((s.dispatcher.start 0 0).HasRoom →
      (∀ t, s.Queues ⟨url, body⟩ (s.begin t c)) ∧ s.Ends c s.now (.pushed (.ok ())) [])
    ∧ (¬(s.dispatcher.start 0 0).HasRoom →
      (∀ t, s.Diverts ⟨url, body⟩ deadline (s.begin t c))
      ∧ s.Ends c (s.now + (reply.verdict url deadline).1) (reply.verdict url deadline).2
        [⟨s.now, url, body, deadline⟩])
    ∧ ((reply.verdict url deadline).2 = .pushed (.ok ()) ↔
      ∃ status delay,
        reply = .status status delay ∧ status.isSuccess ∧ delay ≤ deadline.millis) := by
  intro c reply
  refine ⟨h.bounded, fun room => ?_, fun full => ?_, Reply.verdict_eq_ok⟩
  · refine ⟨fun t => (begin_queues url body deadline t room).1, ends_of_begin h fun t ready => ?_⟩
    obtain ⟨hqueues, hposts⟩ :=
      begin_queues (p := { s.toPipeline with ready }) url body deadline t room
    refine ⟨?_, hposts⟩
    rw [hqueues.result]
    exact ⟨rfl, rfl⟩
  · refine ⟨fun t => (begin_diverts url body deadline t full).1, ends_of_begin h fun t ready => ?_⟩
    obtain ⟨-, hposts, hends⟩ :=
      begin_diverts (p := { s.toPipeline with ready }) url body deadline t full
    exact ⟨hends, hposts⟩

/-- With the queue full and its one worker waiting for an answer that never comes, a push of two
seconds ends with them. -/
theorem push_by_room_stalled :
    ¬(stalled.dispatcher.start 0 0).HasRoom
    ∧ (stalled.perform (.call (.submit "four" (some [4]) (.ofSecs 2)))).2
      = .result (.pushed (.error (.fallbackFailed "four" (.timeout (.ofSecs 2)))))
    ∧ (stalled.perform (.call (.submit "four" (some [4]) (.ofSecs 2)))).1.now = 4999 := by
  have full : ¬(stalled.dispatcher.start 0 0).HasRoom := by decide +kernel
  have reachable : stalled.Reachable := ⟨_, _, _, _, _, _, _, _, rfl⟩
  have ends := ((push_by_room reachable "four" [4] (.ofSecs 2)).2.2.1 full).2
  obtain ⟨told, time, -⟩ := ends.operator (by decide +kernel)
  have reply : (stalled.receiver.answer "four").1 = .hang := by decide +kernel
  have now : stalled.now = 2999 := by decide +kernel
  rw [reply] at told time
  exact ⟨full, told, time.trans (congrArg (· + 2000) now)⟩

end Session

end Uplink
