import Uplink.Proofs.Kpi.Apart
import Uplink.Proofs.Service.History
import Uplink.Proofs.Session.Trace
/-!
The account of the reports of the counters: what an observer expects of them who knows how the
receiver answers, sees the counters, the clock and the identity change and the POSTs begin, and
knows which flusher is the current one.  The aggregator keeps to it.
-/
namespace Uplink

/-- A POST of a report, with the counters at its beginning and the report expected of them, and with
the answer of the receiver.  It is cancelled if its flush is given up, and then it is dismissed as
well: its flusher was stopped or replaced, or its task dropped the flush. -/
structure Attempt where
  task : Task
  entry : PostEntry
  sample : Dictionary Cell
  report : KpiReport
  reply : Reply
  cancelled : Bool := false
  dismissed : Bool := false

namespace Attempt

/-- Whether the receiver answers with success before the deadline, or at it. -/
def accepted (x : Attempt) : Bool :=
  match x.reply with
  | .status s delay => s.isSuccess && decide (delay ≤ x.entry.deadline.millis)
  | _ => false

def acknowledged (x : Attempt) : Bool := x.accepted && !x.cancelled

/-- When the POST is over. -/
def due (x : Attempt) : Nat :=
  match x.reply with
  | .status _ delay | .broken _ delay | .crash delay =>
    x.entry.time + min delay x.entry.deadline.millis
  | .hang => x.entry.time + x.entry.deadline.millis

def flight (x : Attempt) : Flight := ⟨x.sample, x.report⟩

def posting (x : Attempt) : Posting := .ofReply x.entry.url x.entry.time x.entry.deadline x.reply

theorem due_posting (x : Attempt) : x.posting.due = x.due := by
  unfold posting Posting.ofReply due
  cases x.reply with
  | hang => rfl
  | status s delay | broken reason delay | crash delay =>
    by_cases within : delay ≤ x.entry.deadline.millis
    · simp [Reply.ending?, Option.filter, within]
    · simp [Reply.ending?, Option.filter, within, Nat.min_eq_right (Nat.le_of_not_le within)]

theorem outcome_posting (x : Attempt) : x.posting.outcome = .accepted ↔ x.accepted := by
  unfold posting Posting.ofReply accepted
  cases x.reply with
  | status s delay =>
    by_cases within : delay ≤ x.entry.deadline.millis <;> cases hs : s.isSuccess <;>
      simp [Reply.ending?, Option.filter, Outcome.ofStatus, hs, within]
  | broken reason delay | crash delay =>
    by_cases within : delay ≤ x.entry.deadline.millis <;>
      simp [Reply.ending?, Option.filter, within]
  | hang => simp [Reply.ending?]

/-- The POST carries the report of a sample that is not empty, with the values of its cells, and
has so long. -/
structure Carries (timeout : Duration) (x : Attempt) : Prop where
  body : x.entry.body = Record.encode x.report
  deadline : x.entry.deadline = timeout
  sample : x.sample.isEmpty = false
  values : ∀ k, x.report.kpis.get? k = (x.sample.get? k).map fun cell => cell.amount.toDouble

end Attempt

/-- `now`, `neUid` and `granularity` complete the reports; if the system's clock stamps them,
`times` is what it is going to show to the aggregator.  `started` counts the flushers, and `current`
is the one that was neither stopped nor replaced.  `dropped` is the task that dropped a flush since
the last operation, if any.  The attempts that are over are in the order they were begun, and
`shelf` holds the reports of those that were acknowledged. -/
structure Account where
  times : Option (Nat → Int64)
  now : Int64
  neUid : String
  granularity : UInt64
  receiver : Receiver
  counters : Counters := {}
  started : Nat := 0
  current : Option Nat := none
  dropped : Option Task := none
  finished : List Attempt := []
  flight : Option Attempt := none
  shelf : Shelf KpiReport

namespace Account

def create (a : Assembly) (settings : Settings) (identity : Identity) (clock : Clock)
    (receiver : Receiver) (chance : Chance) : Account where
  times := (a.system chance.clock).map SystemClock.aggregator
  now := clock.now
  neUid := identity.neUid
  granularity := (settings.kpi.granularity.orDefault Default.granularity).secs
  receiver := receiver
  shelf := .create settings.kpi.historyCapacity

def attempts (c : Account) : List Attempt := c.finished ++ c.flight.toList

def acknowledged (c : Account) : List Attempt := c.finished.filter Attempt.acknowledged

def stamp (c : Account) : Int64 := (c.times.map (· c.attempts.length)).getD c.now

def report (c : Account) : KpiReport where
  neUid := c.neUid
  recordTime := c.stamp
  granularity := c.granularity
  kpis := Counters.values c.counters.cells

/-- Whether a task is a flusher that was stopped or replaced, or dropped its flush. -/
def dismisses (c : Account) : Task → Bool
  | .flusher id => c.current ≠ some id
  | t => c.dropped = some t

/-- A POST begins, and the receiver answers it. -/
def post (c : Account) (t : Task) (aim : Aim) (e : PostEntry) : Account :=
  let (reply, receiver) := c.receiver.answer e.url
  match aim with
  | .report =>
    let attempt := { task := t, entry := e, sample := c.counters.cells, report := c.report, reply }
    { c with receiver, flight := some attempt }
  | _ => { c with receiver }

def ended (c : Account) (x : Attempt) (cancelled : Bool) : Attempt :=
  { x with cancelled, dismissed := c.dismisses x.task }

/-- The attempt under way is over.  If it is acknowledged, its report is kept and its sample is
taken out of the counters. -/
def close (c : Account) (cancelled : Bool) : Account :=
  match c.flight with
  | none => c
  | some x =>
    let finished := c.finished ++ [c.ended x cancelled]
    if (c.ended x cancelled).acknowledged then
      { c with
        flight := none, finished
        counters := c.counters.settle x.sample
        shelf := c.shelf.push x.report }
    else { c with flight := none, finished }

/-- What an event adds to the account. -/
def hear : Event → Account → Account
  | .counted change, c => { c with counters := c.counters.apply change }
  | .clockMoved now, c => { c with now }
  | .identified i, c => { c with neUid := i.neUid }
  | .posted t aim e, c => c.post t aim e
  | .yielded _, c => c.close false
  | .withdrawn _, c => c.close true
  | _, c => c

/-- What an operation that begins adds to the account. -/
def ask (c : Account) (op : Operation) : Account :=
  let c := { c with dropped := none }
  match op with
  | .startFlushing _ => { c with current := some c.started, started := c.started + 1 }
  | .stopFlushing => { c with current := none }
  | .adjustKpiHistory n => { c with shelf := c.shelf.adjust n }
  | _ => c

def drop (c : Account) (t : Task) : Account := { c with dropped := some t }

def enter (c : Account) : Occurrence → Account
  | .asked op => c.ask op
  | .dropped t => c.drop t
  | .noted e => hear e c
  | .told _ _ => c

/-- The account of a trace, from a given beginning. -/
def read (c : Account) (trace : List Occurrence) : Account := trace.foldl enter c

def hearAll (es : List Event) (c : Account) : Account := es.foldr hear c

theorem hearAll_append (es es' : List Event) (c : Account) :
    hearAll (es ++ es') c = hearAll es (hearAll es' c) := List.foldr_append

theorem post_eq (c : Account) (t : Task) (aim : Aim) (e : PostEntry) :
    ∃ flight, c.post t aim e = { c with receiver := (c.receiver.answer e.url).2, flight } := by
  cases aim <;> exact ⟨_, rfl⟩

variable {c : Account}

theorem attempts_of_none (h : c.flight = none) : c.attempts = c.finished := by
  simp [attempts, h]

theorem close_of_none (h : c.flight = none) (cancelled : Bool) : c.close cancelled = c := by
  unfold close
  rw [h]

@[simp] theorem task_ended (c : Account) (x : Attempt) (cancelled : Bool) :
    (c.ended x cancelled).task = x.task := rfl

@[simp] theorem entry_ended (c : Account) (x : Attempt) (cancelled : Bool) :
    (c.ended x cancelled).entry = x.entry := rfl

theorem acknowledged_ended (c : Account) (x : Attempt) (cancelled : Bool) :
    (c.ended x cancelled).acknowledged = (x.accepted && !cancelled) := rfl

variable {cancelled : Bool}

theorem close_of_acknowledged {x : Attempt} (hx : c.flight = some x)
    (acknowledged : (c.ended x cancelled).acknowledged) :
    c.close cancelled = { c with
      flight := none
      finished := c.finished ++ [c.ended x cancelled]
      counters := c.counters.settle x.sample
      shelf := c.shelf.push x.report } := by
  unfold close
  rw [hx]
  exact if_pos acknowledged

theorem close_of_lost {x : Attempt} (hx : c.flight = some x)
    (lost : (c.ended x cancelled).acknowledged = false) :
    c.close cancelled
      = { c with flight := none, finished := c.finished ++ [c.ended x cancelled] } := by
  unfold close
  rw [hx]
  exact if_neg (by simp [lost])

/-- Who flushes and who does not any more. -/
def flushing (c : Account) : Option Nat × Nat × Option Task := (c.current, c.started, c.dropped)

theorem close_flushing (c : Account) (cancelled : Bool) :
    (c.close cancelled).flushing = c.flushing := by
  unfold close
  split
  next => rfl
  next =>
    dsimp only
    split <;> rfl

/-- No event tells of that. -/
theorem hear_flushing (e : Event) (c : Account) : (hear e c).flushing = c.flushing := by
  cases e with
  | posted t aim e =>
    obtain ⟨flight, heq⟩ := c.post_eq t aim e
    show (c.post t aim e).flushing = _
    rw [heq]
    rfl
  | yielded t => exact close_flushing c false
  | withdrawn t => exact close_flushing c true
  | _ => rfl

theorem hearAll_flushing (es : List Event) (c : Account) :
    (hearAll es c).flushing = c.flushing := by
  induction es with
  | nil => rfl
  | cons e es ih => exact (hear_flushing e (hearAll es c)).trans ih

theorem dismisses_hearAll (es : List Event) (c : Account) (t : Task) :
    (hearAll es c).dismisses t = c.dismisses t := by
  have hsame := hearAll_flushing es c
  simp only [flushing, Prod.mk.injEq] at hsame
  cases t <;> simp [dismisses, hsame.1, hsame.2.2]

theorem close_shelf (c : Account) (cancelled : Bool) :
    ∃ new, (c.close cancelled).acknowledged = c.acknowledged ++ new
      ∧ (c.close cancelled).shelf = (new.map Attempt.report).foldl Shelf.push c.shelf := by
  cases hx : c.flight with
  | none =>
    rw [close_of_none hx]
    exact ⟨[], (List.append_nil _).symm, rfl⟩
  | some x =>
    have hfilter : (c.finished ++ [c.ended x cancelled]).filter Attempt.acknowledged
        = c.acknowledged ++ [c.ended x cancelled].filter Attempt.acknowledged :=
      List.filter_append ..
    refine ⟨[c.ended x cancelled].filter Attempt.acknowledged, ?_⟩
    cases hack : (c.ended x cancelled).acknowledged with
    | true =>
      rw [close_of_acknowledged hx hack]
      refine ⟨hfilter, ?_⟩
      rw [List.filter_cons_of_pos hack]
      rfl
    | false =>
      rw [close_of_lost hx hack]
      refine ⟨hfilter, ?_⟩
      rw [List.filter_cons_of_neg (by simp [hack])]
      rfl

theorem hear_shelf (e : Event) (c : Account) :
    ∃ new, (hear e c).acknowledged = c.acknowledged ++ new
      ∧ (hear e c).shelf = (new.map Attempt.report).foldl Shelf.push c.shelf := by
  have hkeep {c' : Account} (hfinished : c'.finished = c.finished) (hshelf : c'.shelf = c.shelf) :
      ∃ new, c'.acknowledged = c.acknowledged ++ new
        ∧ c'.shelf = (new.map Attempt.report).foldl Shelf.push c.shelf :=
    ⟨[], by rw [acknowledged, hfinished, List.append_nil]; rfl, hshelf⟩
  cases e with
  | posted t aim e =>
    obtain ⟨flight, heq⟩ := c.post_eq t aim e
    show ∃ new, (c.post t aim e).acknowledged = _ ∧ (c.post t aim e).shelf = _
    rw [heq]
    exact hkeep rfl rfl
  | yielded t => exact c.close_shelf false
  | withdrawn t => exact c.close_shelf true
  | _ => exact hkeep rfl rfl

/-- The shelf takes in the reports that come to be acknowledged. -/
theorem hearAll_shelf (es : List Event) (c : Account) :
    ∃ new, (hearAll es c).acknowledged = c.acknowledged ++ new
      ∧ (hearAll es c).shelf = (new.map Attempt.report).foldl Shelf.push c.shelf := by
  induction es with
  | nil => exact ⟨[], (List.append_nil _).symm, rfl⟩
  | cons e es ih =>
    obtain ⟨older, hacknowledged, hshelf⟩ := ih
    obtain ⟨new, hnew, hpushed⟩ := hear_shelf e (hearAll es c)
    refine ⟨older ++ new, ?_, ?_⟩
    · rw [← List.append_assoc, ← hacknowledged]
      exact hnew
    · rw [List.map_append, List.foldl_append, ← hshelf]
      exact hpushed

end Account

namespace Event

/-- The report that landed, and whose it was. -/
def landing? : Event → Option (Task × KpiReport)
  | landed t f => some (t, f.report)
  | _ => none

def report? : Event → Option (Task × PostEntry)
  | posted t .report e => some (t, e)
  | _ => none

/-- Events that tell of reports or of what they are made of. -/
def ofReports : Event → Bool
  | counted _ | clockMoved _ | identified _ | posted _ _ _ | landed _ _ | yielded _
  | withdrawn _ => true
  | _ => false

end Event

namespace Occurrence

def report? : Occurrence → Option (Task × PostEntry)
  | noted e => e.report?
  | _ => none

end Occurrence

namespace Journal

def landings (j : Journal) : List (Task × KpiReport) := j.events.reverse.filterMap Event.landing?

def reports (j : Journal) : List (Task × PostEntry) := j.events.reverse.filterMap Event.report?

variable {j j' : Journal} {es : List Event}

theorem landings_append (h : j'.events = es ++ j.events) :
    j'.landings = j.landings ++ es.reverse.filterMap Event.landing? := by
  simp [landings, h]

theorem reports_append (h : j'.events = es ++ j.events) :
    j'.reports = j.reports ++ es.reverse.filterMap Event.report? := by
  simp [reports, h]

theorem landings_eq (h : j'.events = es ++ j.events)
    (hes : es.reverse.filterMap Event.landing? = []) : j'.landings = j.landings := by
  rw [landings_append h, hes, List.append_nil]

theorem reports_eq (h : j'.events = es ++ j.events)
    (hes : es.reverse.filterMap Event.report? = []) : j'.reports = j.reports := by
  rw [reports_append h, hes, List.append_nil]

end Journal

end Uplink
