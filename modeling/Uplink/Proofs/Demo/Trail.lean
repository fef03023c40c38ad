import Mathlib.Data.List.Enum
import Uplink.Proofs.Kpi.Sound
import Uplink.Proofs.Session.Delivering
/-!
The trail of the rounds of synthetic records.  A round calls for its five pushes one after the
other, whatever they are answered, and then counts; it stops at a push that waits, and goes on
there.
-/
namespace Uplink

/-- What rounds are made of: calls, what a push is answered, changes of counters, and reports of the
counters that land. -/
inductive Mark where
  | called (c : Call)
  | answered (r : CallResult)
  | counted (c : Change)
  | landed (f : Flight)

namespace Event

/-- A push has its answer once its job is queued, or else when its own POST of the job is over. -/
def mark? : Event → Option Mark
  | called _ c => some (.called c)
  | queued _ _ => some (.answered (.pushed (.ok ())))
  | finished (.worker _) _ => none
  | finished _ q => some (.answered q.verdict)
  | counted c => some (.counted c)
  | landed _ f => some (.landed f)
  | _ => none

end Event

namespace Journal

def trail (j : Journal) : List Mark := (j.events.filterMap Event.mark?).reverse

theorem trail_add (j : Journal) (e : Event) : (j.add e).trail = j.trail ++ e.mark?.toList := by
  unfold trail add
  rw [List.filterMap_cons]
  cases e.mark? <;> simp

theorem trail_addAll {es : List Event} (hes : ∀ e ∈ es, e.mark? = none) (j : Journal) :
    (j.addAll es).trail = j.trail := by
  have hnone : es.reverse.filterMap Event.mark? = [] :=
    List.filterMap_eq_nil_iff.mpr fun e he => hes e (List.mem_reverse.mp he)
  unfold trail addAll
  rw [List.filterMap_append, hnone, List.nil_append]

end Journal

namespace CallResult

/-- Whether the submitter of a job had to post it and failed. -/
def isFallbackFailed : CallResult → Bool
  | .pushed (.error (.fallbackFailed _ _)) => true
  | _ => false

/-- What a push is answered unless its POST crashes. -/
inductive OfPush : CallResult → Prop
  | ok : OfPush (.pushed (.ok ()))
  | failed (url : String) (e : PostError) : OfPush (.pushed (.error (.fallbackFailed url e)))

end CallResult

theorem Posting.verdict_ofPush {q : Posting} (h : q.outcome ≠ .crashed) : q.verdict.OfPush := by
  unfold verdict
  split
  next => exact .ok
  next => exact .failed _ _
  next hcrash => exact absurd hcrash h

namespace Demo

def failures (answers : List CallResult) : Nat := answers.countP (·.isFallbackFailed)

theorem failures_append (answers answers' : List CallResult) :
    failures (answers ++ answers') = failures answers + failures answers' := List.countP_append

/-- The push of a record of a round, to the endpoint of its kind. -/
def call (c : AgentConfig) (r : Report) : Call :=
  .push (c.endpoint r.kind.path) (.ok r) c.pushTimeout

def pushes (c : AgentConfig) (records : List Report) (answers : List CallResult) : List Mark :=
  (records.zip answers).flatMap fun x => [.called (call c x.1), .answered x.2]

def counts (failures : Nat) : List Mark :=
  .counted (.increment "DEMO.Rounds") :: .counted (.addOf "DEMO.Records" (.ofNat 5))
    :: if failures = 0 then [] else [.counted (.addOf "DEMO.PushFailures" (.ofNat failures))]

/-- A round by its number: its five pushes with their answers, and an account of them. -/
def round (c : AgentConfig) (n : Nat) (answers : List CallResult) : List Mark :=
  pushes c (records (.ofNat n)) answers ++ counts (failures answers)

def rounds (c : AgentConfig) (answers : List (List CallResult)) : List Mark :=
  (answers.zipIdx 1).flatMap fun x => round c x.2 x.1

theorem pushes_append_singleton (c : AgentConfig) {records : List Report}
    {answers : List CallResult} (h : answers.length = records.length) (r : Report)
    (a : CallResult) :
    pushes c (records ++ [r]) (answers ++ [a])
      = pushes c records answers ++ [.called (call c r), .answered a] := by
  unfold pushes
  rw [List.zip_append h.symm, List.flatMap_append]
  rfl

theorem rounds_append_singleton (c : AgentConfig) (before : List (List CallResult))
    (answers : List CallResult) :
    rounds c (before ++ [answers]) = rounds c before ++ round c (before.length + 1) answers := by
  unfold rounds
  rw [List.zipIdx_append, List.flatMap_append, Nat.add_comm 1]
  simp

end Demo

namespace Pipeline

variable {t : Task} {p p' : Pipeline} {q : Posting}

theorem trail_note (p : Pipeline) (e : Event) :
    (p.note e).journal.trail = p.journal.trail ++ e.mark?.toList := p.journal.trail_add e

theorem trail_of_events (h : p'.journal.events = p.journal.events) :
    p'.journal.trail = p.journal.trail := by
  unfold Journal.trail
  rw [h]

theorem trail_post (p : Pipeline) (t : Task) (aim : Aim) (url : String) (body : Octets)
    (deadline : Duration) : (p.post t aim url body deadline).1.journal.trail = p.journal.trail := by
  rw [post, trail_note]
  exact List.append_nil _

theorem trail_moveTo (p : Pipeline) (now : Nat) :
    (p.moveTo now).journal.trail = p.journal.trail := by rw [journal_moveTo]

/-! ### Workers -/

theorem trail_finishJob (p : Pipeline) (w : Nat) (q : Posting) :
    (p.finishJob w q).journal.trail = p.journal.trail := by
  refine Journal.trail_addAll (fun e he => ?_) p.journal
  rcases mem_finish he with rfl | ⟨l, rfl⟩ | ⟨k, crashed, rfl⟩ | rfl <;> rfl

theorem trail_seekJob (p : Pipeline) (w : Nat) :
    (p.seekJob w).journal.trail = p.journal.trail := by
  unfold seekJob
  split
  · split
    next => rfl
    next d job _ =>
      have hpost : (((({ p with dispatcher := d }.note (.taken w job)).wakeFirst
          (d.line.map .worker)).post (.worker w) .delivery job.url job.body
            d.workerTimeout).1).journal.trail = p.journal.trail := by
        rw [trail_post]
        exact (trail_note _ (.taken w job)).trans (List.append_nil _)
      dsimp only
      split
      next => exact (trail_finishJob _ w _).trans hpost
      next => exact hpost
  · rfl

theorem trail_workerTurn (p : Pipeline) (w : Nat) :
    (p.workerTurn w).journal.trail = p.journal.trail := by
  unfold workerTurn
  split
  · split
    next => exact (trail_seekJob _ w).trans (trail_finishJob p w _)
    next => rfl
  · exact trail_seekJob p w

/-! ### One push -/

/-- A push that left a trail behind is answered, or waits for its own POST to end in time. -/
inductive Pushes (trail : List Mark) (last : Nat) : Pipeline × Stage → Prop
  | answered {p : Pipeline} {a : CallResult} (ofPush : a.OfPush)
    (htrail : p.journal.trail = trail ++ [.answered a]) : Pushes trail last (p, .ended a)
  | waits {p : Pipeline} {q : Posting} (calm : q.outcome ≠ .crashed) (due : q.due ≤ last)
    (htrail : p.journal.trail = trail) : Pushes trail last (p, .delivering q)

/-- The submitter of a job is no worker. -/
theorem mark?_finished (ht : ∀ w, t ≠ .worker w) (q : Posting) :
    (Event.finished t q).mark? = some (.answered q.verdict) := by
  cases t with
  | worker w => exact absurd rfl (ht w)
  | _ => rfl

theorem deliver_pushes (ht : ∀ w, t ≠ .worker w) (calm : q.outcome ≠ .crashed) (p : Pipeline)
    (last : Nat) :
    Pushes p.journal.trail last ((p.deliver t q).1, .ended (p.deliver t q).2) := by
  rw [deliver_snd]
  refine .answered (Posting.verdict_ofPush calm) ?_
  rw [deliver_eq, trail_note, mark?_finished ht]
  rfl

theorem fallback_pushes (ht : ∀ w, t ≠ .worker w) (sound : p.receiver.Sound) (j : Job)
    (deadline : Duration) :
    Pushes p.journal.trail (p.now + deadline.millis) (p.fallback t j deadline) := by
  have hdivert (d : Dispatcher) :
      ({ p with dispatcher := d }.note (.diverted t j)).journal.trail = p.journal.trail :=
    (trail_note _ _).trans (List.append_nil _)
  have calm : (Posting.ofReply j.url p.now deadline (p.receiver.answer j.url).1).outcome
      ≠ .crashed := Posting.outcome_ofReply (sound.answer j.url).1
  unfold fallback
  dsimp only
  rw [← hdivert p.dispatcher.countFallback, ← trail_post _ t .fallback j.url j.body deadline]
  split
  next => exact deliver_pushes ht calm _ _
  next => exact .waits calm (Posting.due_ofReply_le _ _ _ _) rfl

theorem submit_pushes (ht : ∀ w, t ≠ .worker w) (sound : p.receiver.Sound) (j : Job)
    (deadline : Duration) :
    Pushes p.journal.trail (p.now + deadline.millis) (p.submit t j deadline) := by
  have hstart : ((p.note (.submitted t j)).startWorkers 0 0).journal.trail = p.journal.trail := by
    rw [journal_startWorkers, trail_note]
    exact List.append_nil _
  have hreceiver : ((p.note (.submitted t j)).startWorkers 0 0).receiver.Sound := by
    rwa [receiver_startWorkers]
  have hnow : ((p.note (.submitted t j)).startWorkers 0 0).now = p.now := startWorkers_now _ 0 0
  have hlogged (p : Pipeline) (sound : p.receiver.Sound) (l : LogEntry) :
      Pushes p.journal.trail (p.now + deadline.millis)
        ((p.note (.logged l)).fallback t j deadline) := by
    have hl : (p.note (.logged l)).journal.trail = p.journal.trail :=
      (trail_note _ _).trans (List.append_nil _)
    exact hl ▸ fallback_pushes (p := p.note (.logged l)) ht sound j deadline
  unfold submit
  dsimp only
  rw [← hstart, ← hnow]
  generalize (p.note (.submitted t j)).startWorkers 0 0 = p at hreceiver ⊢
  split
  next d _ => exact .answered .ok (trail_note { p with dispatcher := d } (.queued t j))
  next => exact hlogged p hreceiver _
  next => exact hlogged p hreceiver _

end Pipeline

/-- How long a push of a round may wait for its own POST. -/
def AgentConfig.patience (c : AgentConfig) : Nat :=
  (c.pushTimeout.orDefault Default.pushTimeout).millis

namespace Pipeline

variable {t : Task} {p : Pipeline} {q : Posting} {c : AgentConfig}

theorem begin_pushes (ht : ∀ w, t ≠ .worker w) (sound : p.receiver.Sound) (r : Report) :
    Pushes (p.journal.trail ++ [.called (Demo.call c r)]) (p.now + c.patience)
      (p.begin t (Demo.call c r)) := by
  have hcalled := trail_note p (.called t (Demo.call c r))
  exact hcalled ▸ submit_pushes (p := { p.note (.called t (Demo.call c r)) with
    services := (p.services.push (p.stamp r.kind) p.identity.neUid r).1
    system := p.system.map (SystemClock.readBy · r.kind) }) ht sound _ _

theorem proceed_pushes (ht : ∀ w, t ≠ .worker w) (calm : q.outcome ≠ .crashed) {last : Nat}
    (due : q.due ≤ last) : Pushes p.journal.trail last (p.proceed t (.delivering q)) := by
  unfold proceed
  dsimp only
  split
  next => exact deliver_pushes ht calm p last
  next => exact .waits calm due rfl

/-! ### A round -/

/-- Where the round after those before stands: it is over, or it waits at the push of a record, with
the answers of the records done and the rest of the records to come. -/
inductive Halts (c : AgentConfig) (before : List (List CallResult)) (p : Pipeline) :
    RoundStage → Prop
  | ended {answers} (five : answers.length = 5)
    (htrail : p.journal.trail = Demo.rounds c (before ++ [answers])) :
    Halts c before p (.ended (Demo.failures answers))
  | under {done r rest answers} {q : Posting}
    (hrecords : Demo.records (.ofNat (before.length + 1)) = done ++ r :: rest)
    (hlength : answers.length = done.length)
    (htrail : p.journal.trail
      = Demo.rounds c before ++ Demo.pushes c done answers ++ [.called (Demo.call c r)])
    (calm : q.outcome ≠ .crashed) (due : q.due ≤ p.now + c.patience) :
    Halts c before p (.under ⟨.delivering q, r.kind, rest, Demo.failures answers⟩)

variable {before : List (List CallResult)}

/-- While a round waits, others may add to anything but the trail, and time may pass. -/
theorem Halts.congr {p' : Pipeline} {stage : RoundStage} (h : Halts c before p stage)
    (htrail : p'.journal.trail = p.journal.trail) (hnow : p.now ≤ p'.now) :
    Halts c before p' stage := by
  cases h with
  | ended five h => exact .ended five (htrail.trans h)
  | under hrecords hlength h calm due =>
    exact .under hrecords hlength (htrail.trans h) calm (Nat.le_trans due (by omega))

/-- The answer to the push of a record is noted.  The push is done, and makes for one failure more
or for none. -/
theorem notePush_pushes {a : CallResult} (ofPush : a.OfPush) {done : List Report}
    {answers : List CallResult} (hlength : answers.length = done.length) {r : Report}
    (htrail : p.journal.trail = Demo.rounds c before ++ Demo.pushes c done answers
      ++ [.called (Demo.call c r)] ++ [.answered a]) :
    ∃ p', p.notePush r.kind a (Demo.failures answers)
        = (p', some (Demo.failures (answers ++ [a])))
      ∧ p'.journal.trail = Demo.rounds c before ++ Demo.pushes c (done ++ [r]) (answers ++ [a])
      ∧ p'.receiver = p.receiver := by
  have hpushes : p.journal.trail
      = Demo.rounds c before ++ Demo.pushes c (done ++ [r]) (answers ++ [a]) := by
    rw [htrail, Demo.pushes_append_singleton c hlength]
    simp
  rw [Demo.failures_append]
  cases ofPush with
  | ok => exact ⟨p, rfl, hpushes, rfl⟩
  | failed url e =>
    exact ⟨p.warn _, rfl, (trail_note _ _).trans ((List.append_nil _).trans hpushes), rfl⟩

theorem trail_countRound (p : Pipeline) (failures : Nat) :
    (p.countRound failures).journal.trail = p.journal.trail ++ Demo.counts failures := by
  have hcount (p : Pipeline) (change : Change) :
      (p.count change).journal.trail = p.journal.trail ++ [.counted change] := by
    rw [count, trail_note]
    rfl
  unfold countRound Demo.counts
  dsimp only
  split
  · simp [hcount]
  · simp [hcount]

/-- The pushes that are left are made one after the other. -/
theorem pushRecords_halts (ht : ∀ w, t ≠ .worker w) (sound : p.receiver.Sound)
    {done rest : List Report} {answers : List CallResult}
    (hrecords : Demo.records (.ofNat (before.length + 1)) = done ++ rest)
    (hlength : answers.length = done.length)
    (htrail : p.journal.trail = Demo.rounds c before ++ Demo.pushes c done answers) :
    Halts c before (p.pushRecords t c rest (Demo.failures answers)).1
      (p.pushRecords t c rest (Demo.failures answers)).2 := by
  induction rest generalizing p done answers with
  | nil =>
    rw [List.append_nil] at hrecords
    refine .ended (hlength.trans (hrecords ▸ rfl)) ?_
    show (p.countRound _).journal.trail = _
    rw [trail_countRound, htrail, Demo.rounds_append_singleton, Demo.round, hrecords,
      List.append_assoc]
  | cons r rest ih =>
    have hsteps := @begin_steps False p t (Demo.call c r)
    have hpushes := begin_pushes (c := c) ht sound r
    have hsound := hsteps.preserves (I := fun p _ => p.receiver.Sound)
      (fun hs => hs.receiver_sound) sound
    have hnow := hsteps.now_eq
    have hcall : p.begin t (.push (c.endpoint r.kind.path) (.ok r) c.pushTimeout)
        = p.begin t (Demo.call c r) := rfl
    unfold pushRecords
    dsimp only
    rw [hcall]
    generalize p.begin t (Demo.call c r) = b at hpushes hsound hnow ⊢
    cases hpushes with
    | @answered p₁ a ofPush h =>
      obtain ⟨p₂, hnote, hpushes, hreceiver⟩ :=
        notePush_pushes ofPush hlength (h.trans (by rw [htrail]))
      dsimp only
      rw [hnote]
      exact ih (hreceiver ▸ hsound) (hrecords.trans (List.append_cons ..))
        (by simp [hlength]) hpushes
    | @waits p₁ q calm due h =>
      refine .under hrecords hlength (h.trans (by rw [htrail])) calm ?_
      exact hnow ▸ due

/-- A round goes on from where it waited. -/
theorem Halts.proceedRound (ht : ∀ w, t ≠ .worker w) (sound : p.receiver.Sound) {r : Round}
    (h : Halts c before p (.under r)) :
    Halts c before (p.proceedRound t c r).1 (p.proceedRound t c r).2 := by
  cases h with
  | @under done r rest answers q hrecords hlength htrail calm due =>
    have hsteps := @proceed_steps False p t (.delivering q)
    have hpushes := proceed_pushes (p := p) ht calm due
    have hsound := hsteps.preserves (I := fun p _ => p.receiver.Sound)
      (fun hs => hs.receiver_sound) sound
    have hnow := hsteps.now_eq
    unfold Pipeline.proceedRound
    dsimp only
    generalize p.proceed t (.delivering q) = b at hpushes hsound hnow ⊢
    cases hpushes with
    | @answered p₁ a ofPush h =>
      obtain ⟨p₂, hnote, hpushes, hreceiver⟩ :=
        notePush_pushes ofPush hlength (h.trans (by rw [htrail]))
      dsimp only
      rw [hnote]
      exact pushRecords_halts ht (hreceiver ▸ hsound) (hrecords.trans (List.append_cons ..))
        (by simp [hlength]) hpushes
    | @waits p₁ q' calm' due' h =>
      exact .under hrecords hlength (h.trans htrail) calm' (hnow ▸ due')

theorem beginRound_halts (ht : ∀ w, t ≠ .worker w) (sound : p.receiver.Sound) {g : Generator}
    (hrounds : g.rounds = .ofNat before.length)
    (htrail : p.journal.trail = Demo.rounds g.config before) :
    Halts g.config before (p.beginRound t g).1 (p.beginRound t g).2.2 := by
  have hnext : g.rounds + 1 = .ofNat (before.length + 1) := by
    rw [hrounds, UInt64.ofNat_add]
    rfl
  show Halts _ _ (p.pushRecords t g.config (Demo.records (g.rounds + 1)) 0).1
    (p.pushRecords t g.config (Demo.records (g.rounds + 1)) 0).2
  have hrecords : Demo.records (.ofNat (before.length + 1)) = [] ++ Demo.records (g.rounds + 1) :=
    hnext ▸ rfl
  have hlength : ([] : List CallResult).length = ([] : List Report).length := rfl
  exact pushRecords_halts ht sound hrecords hlength (htrail.trans (List.append_nil _).symm)

/-! ### How much of a round is left -/

/-- Of the records to push one waits, so fewer are left. -/
theorem length_rest_pushRecords {records : List Report} {failures : Nat} {r : Round}
    (h : (p.pushRecords t c records failures).2 = .under r) : r.rest.length < records.length := by
  induction records generalizing p failures with
  | nil => cases h
  | cons r rest ih =>
    unfold pushRecords at h
    dsimp only at h
    split at h
    next =>
      split at h
      next => exact Nat.lt_succ_of_lt (ih h)
      next => cases h
    next =>
      cases h
      exact Nat.lt_succ_self _

theorem length_rest_beginRound {g : Generator} {r : Round}
    (h : (p.beginRound t g).2.2 = .under r) : r.rest.length < 5 := by
  have hpush : (p.pushRecords t g.config (Demo.records (g.rounds + 1)) 0).2 = .under r := h
  exact length_rest_pushRecords hpush

/-- Once the push that waits is over, fewer are left. -/
theorem length_rest_proceedRound {r r' : Round} (hstage : r.stage = .delivering q)
    (due : q.due ≤ p.now) (h : (p.proceedRound t c r).2 = .under r') :
    r'.rest.length < r.rest.length := by
  unfold proceedRound proceed at h
  rw [hstage] at h
  dsimp only at h
  simp only [if_pos due] at h
  split at h
  next => exact length_rest_pushRecords h
  next => cases h

end Pipeline

end Uplink
