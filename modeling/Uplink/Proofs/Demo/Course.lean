import Uplink.Proofs.Demo.Trail
/-!
The course of rounds that the operator asks for.  Each of them is made to its end, however many of
its pushes fail or wait, and the operator is told how many of them failed.
-/
namespace Uplink

namespace Session

open Pipeline

variable {c : AgentConfig} {s : Session} {t : Task} {n : Nat}

/-- The operator and the workers have the session to themselves, no POST is going to crash, and so
many rounds have begun. -/
structure Alone (c : AgentConfig) (begun : Nat) (s : Session) : Prop where
  config : s.generator.config = c
  idle : s.generator.stage = .idle
  begun : s.generator.rounds = .ofNat begun
  callers : s.callers = []
  flushers : s.flushers = []
  sound : s.receiver.Sound

/-- All other tasks but workers have nothing to do, and workers leave the trail. -/
theorem Alone.turn_eq (h : s.Alone c n) (ht : t ≠ .operator) :
    ∃ p : Pipeline, s.turn t = { s with toPipeline := p } ∧ p.journal.trail = s.journal.trail
      ∧ p.now = s.now ∧ p.receiver.Sound := by
  have hself (hs : s.turn t = s) :
      ∃ p : Pipeline, s.turn t = { s with toPipeline := p } ∧ p.journal.trail = s.journal.trail
        ∧ p.now = s.now ∧ p.receiver.Sound := ⟨s.toPipeline, hs, rfl, rfl, h.sound⟩
  cases t with
  | operator => exact absurd rfl ht
  | caller id =>
    refine hself ?_
    show s.callerTurn id = s
    simp [callerTurn, h.callers]
  | worker w =>
    have hsteps := @workerTurn_steps False s.toPipeline w
    exact ⟨s.workerTurn w, rfl, trail_workerTurn _ w, hsteps.now_eq,
      hsteps.preserves (I := fun p _ => p.receiver.Sound) (fun hs => hs.receiver_sound) h.sound⟩
  | flusher id =>
    refine hself ?_
    show s.flusherTurn id = s
    simp [flusherTurn, h.flushers]
  | generator =>
    refine hself ?_
    show s.generatorTurn = s
    simp [generatorTurn, h.idle]

theorem Alone.congr {p : Pipeline} (h : s.Alone c n) (sound : p.receiver.Sound) :
    Alone c n { s with toPipeline := p } :=
  ⟨h.config, h.idle, h.begun, h.callers, h.flushers, sound⟩

theorem Alone.stand (h : s.Alone c n) (o : Operator) : Alone c n { s with operator := o } :=
  ⟨h.config, h.idle, h.begun, h.callers, h.flushers, h.sound⟩

/-! ### The rounds of one request -/

/-- Where the operator stands with a request for rounds, after those before: it has made some of
them and waits in the next one, or it has made them all and knows how many pushes failed. -/
inductive Plays (c : AgentConfig) (before : List (List CallResult)) (rounds : Nat) (s : Session) :
    Prop
  | generating {made r left} (ho : s.operator = .generating r left (Demo.failures made.flatten))
    (five : ∀ answers ∈ made, answers.length = 5) (hrounds : made.length + 1 + left = rounds)
    (alone : s.Alone c (before.length + made.length + 1))
    (halts : Halts c (before ++ made) s.toPipeline (.under r))
  | generated (made) (ho : s.operator = .generated (some (Demo.failures made.flatten)))
    (five : ∀ answers ∈ made, answers.length = 5) (hrounds : made.length = rounds)
    (alone : s.Alone c (before.length + made.length))
    (htrail : s.journal.trail = Demo.rounds c (before ++ made))

variable {before made : List (List CallResult)} {rounds : Nat}

theorem Alone.beginRound (h : s.Alone c before.length)
    (htrail : s.journal.trail = Demo.rounds c before) :
    let b := s.beginRound .operator s.generator
    Alone c (before.length + 1) { s with toPipeline := b.1, generator := b.2.1 }
      ∧ b.1.Halts c before b.2.2 := by
  intro b
  have hhalts := beginRound_halts (t := .operator) (p := s.toPipeline) (g := s.generator)
    (by simp) h.sound h.begun (h.config.symm ▸ htrail)
  refine ⟨⟨h.config, h.idle, ?_, h.callers, h.flushers, ?_⟩, h.config ▸ hhalts⟩
  · show s.generator.rounds + 1 = _
    rw [h.begun, UInt64.ofNat_add]
    rfl
  · exact (@beginRound_steps False s.toPipeline .operator s.generator).preserves
      (I := fun p _ => p.receiver.Sound) (fun hs => hs.receiver_sound) h.sound

/-- One round is over and the others follow, each of them as far as it comes. -/
theorem afterOwnRound_plays {left : Nat} {stage : RoundStage}
    (five : ∀ answers ∈ made, answers.length = 5) (hrounds : made.length + 1 + left = rounds)
    (alone : s.Alone c (before.length + made.length + 1))
    (halts : Halts c (before ++ made) s.toPipeline stage) :
    (s.afterOwnRound left (Demo.failures made.flatten) stage).Plays c before rounds := by
  induction left generalizing s made stage with
  | zero =>
    cases halts with
    | @ended answers hfive htrail =>
      have alone := alone.stand
        (.generated (some (Demo.failures made.flatten + Demo.failures answers)))
      refine .generated (made ++ [answers]) ?_ ?_ ?_ ?_ ?_
      · rw [List.flatten_append, Demo.failures_append, List.flatten_singleton]
        rfl
      · simpa [or_imp, forall_and] using ⟨five, hfive⟩
      · simpa using hrounds
      · rw [List.length_append]
        exact alone
      · rw [← List.append_assoc]
        exact htrail
    | under hrecords hlength htrail calm due =>
      exact .generating rfl five hrounds (alone.stand _)
        (.under hrecords hlength htrail calm due)
  | succ left ih =>
    cases halts with
    | @ended answers hfive htrail =>
      have hlength : (before ++ (made ++ [answers])).length = before.length + made.length + 1 := by
        simp [Nat.add_assoc]
      rw [List.append_assoc] at htrail
      obtain ⟨halone, hhalts⟩ := (hlength ▸ alone).beginRound htrail
      have hfailures : Demo.failures made.flatten + Demo.failures answers
          = Demo.failures (made ++ [answers]).flatten := by
        rw [List.flatten_append, Demo.failures_append, List.flatten_singleton]
      unfold afterOwnRound
      dsimp only
      rw [hfailures]
      refine ih ?_ ?_ ?_ hhalts
      · simpa [or_imp, forall_and] using ⟨five, hfive⟩
      · simp only [List.length_append, List.length_singleton]
        omega
      · simpa [Nat.add_assoc] using halone
    | under hrecords hlength htrail calm due =>
      exact .generating rfl five hrounds (alone.stand _)
        (.under hrecords hlength htrail calm due)

theorem Plays.operatorTurn (h : s.Plays c before rounds) :
    s.operatorTurn.Plays c before rounds := by
  cases h with
  | @generating made r left ho five hrounds alone halts =>
    have hhalts := halts.proceedRound (t := .operator) (by simp) alone.sound
    have hsound := (@proceedRound_steps False s.toPipeline .operator c r).preserves
      (I := fun p _ => p.receiver.Sound) (fun hs => hs.receiver_sound) alone.sound
    unfold Session.operatorTurn
    rw [ho]
    dsimp only
    rw [alone.config]
    exact afterOwnRound_plays five hrounds ((alone.congr hsound).stand _) hhalts
  | generated made ho five hrounds alone htrail =>
    have hself : s.operatorTurn = s := by
      unfold Session.operatorTurn
      rw [ho]
    rw [hself]
    exact .generated made ho five hrounds alone htrail

theorem Plays.congr {p : Pipeline} (h : s.Plays c before rounds)
    (htrail : p.journal.trail = s.journal.trail) (hnow : s.now ≤ p.now)
    (sound : p.receiver.Sound) : Plays c before rounds { s with toPipeline := p } := by
  cases h with
  | generating ho five hrounds alone halts =>
    exact .generating ho five hrounds (alone.congr sound) (halts.congr htrail hnow)
  | generated made ho five hrounds alone h =>
    exact .generated made ho five hrounds (alone.congr sound) (htrail.trans h)

theorem Plays.alone (h : s.Plays c before rounds) : ∃ n, s.Alone c n := by
  cases h with
  | generating _ _ _ alone _ => exact ⟨_, alone⟩
  | generated _ _ _ _ alone _ => exact ⟨_, alone⟩

theorem lasts_plays (c : AgentConfig) (before : List (List CallResult)) (rounds : Nat) :
    Lasts (Plays c before rounds) where
  turn {s} ready t h := by
    have hplays : Plays c before rounds { s with ready } :=
      h.congr rfl (Nat.le_refl _) h.alone.choose_spec.sound
    by_cases ht : t = .operator
    · exact ht ▸ hplays.operatorTurn
    · obtain ⟨p, hp, htrail, hnow, sound⟩ := hplays.alone.choose_spec.turn_eq ht
      rw [hp]
      exact hplays.congr htrail (Nat.le_of_eq hnow.symm) sound
  elapse {s} now h := by
    refine h.congr (trail_moveTo s.toPipeline now) ?_ ?_
    · exact now_moveTo s now ▸ Nat.le_max_left _ _
    · rw [receiver_moveTo]
      exact h.alone.choose_spec.sound

/-! ### How long the operator waits -/

/-- The operator waits in the round in which it waited, or in a later one. -/
theorem afterOwnRound_left {left failures left' failures' : Nat} {stage : RoundStage} {r : Round}
    (h : (s.afterOwnRound left failures stage).operator = .generating r left' failures') :
    (stage = .under r ∧ left' = left) ∨ (r.rest.length < 5 ∧ left' < left) := by
  induction left generalizing s failures stage with
  | zero =>
    cases stage <;> cases h
    exact .inl ⟨rfl, rfl⟩
  | succ left ih =>
    cases stage with
    | under r =>
      cases h
      exact .inl ⟨rfl, rfl⟩
    | crashed => cases h
    | ended more =>
      refine .inr ?_
      have hbegins : (afterOwnRound { s with
          toPipeline := (s.beginRound .operator s.generator).1
          generator := (s.beginRound .operator s.generator).2.1 } left (failures + more)
        (s.beginRound .operator s.generator).2.2).operator = .generating r left' failures' := h
      rcases ih hbegins with ⟨hbegin, rfl⟩ | ⟨hrest, hleft⟩
      · exact ⟨length_rest_beginRound hbegin, Nat.lt_succ_self _⟩
      · exact ⟨hrest, Nat.lt_succ_of_lt hleft⟩

/-- The POST that the operator waits for, and all that may still follow it, end by a time. -/
def Waits (last : Nat) (s : Session) : Prop :=
  ∀ r left failures q, s.operator = .generating r left failures → r.stage = .delivering q →
    max s.now q.due + s.generator.config.patience * (r.rest.length + 5 * left) ≤ last

variable {last : Nat}

theorem Plays.due_le {r : Round} {left failures : Nat} {q : Posting} (h : s.Plays c before rounds)
    (ho : s.operator = .generating r left failures) (hq : r.stage = .delivering q) :
    q.due ≤ s.now + s.generator.config.patience ∧ r.rest.length < 5 := by
  cases h with
  | generating ho' _ _ alone halts =>
    cases ho.symm.trans ho'
    cases halts with
    | @under done _ rest _ _ hrecords _ _ _ due =>
      cases hq
      have hlength := congrArg List.length hrecords.symm
      rw [List.length_append, List.length_cons] at hlength
      change _ = 5 at hlength
      exact ⟨alone.config ▸ due, by dsimp only; omega⟩
  | generated _ ho' => cases ho.symm.trans ho'

/-- The operator goes on at the end of its POST, and has less to wait for then. -/
theorem Waits.operatorTurn (hs : s.Waits last) (h : s.Plays c before rounds) :
    s.operatorTurn.Waits last := by
  intro r' left' failures' q' ho' hq'
  have hplays := h.operatorTurn
  have hconfig : s.operatorTurn.generator.config = s.generator.config := by
    rw [hplays.alone.choose_spec.config, h.alone.choose_spec.config]
  have hnow : s.operatorTurn.now = s.now := (@leads_operatorTurn False s).steps.now_eq
  obtain ⟨hdue', -⟩ := hplays.due_le ho' hq'
  rw [hconfig, hnow] at hdue' ⊢
  cases h with
  | @generating made r left ho _ _ alone halts =>
    cases halts with
    | @under done record rest answers q _ _ _ _ _ =>
      have hlast := hs _ _ _ q ho rfl
      unfold Session.operatorTurn at ho'
      rw [ho] at ho'
      dsimp only at ho' hlast
      by_cases due : q.due ≤ s.now
      · have hfewer : r'.rest.length + 5 * left' + 1 ≤ rest.length + 5 * left := by
          rcases afterOwnRound_left ho' with ⟨hstage, rfl⟩ | ⟨hrest, hleft⟩
          · have hlt := length_rest_proceedRound rfl due hstage
            dsimp only at hlt
            omega
          · omega
        have hmul := Nat.mul_le_mul_left s.generator.config.patience hfewer
        rw [Nat.mul_succ] at hmul
        omega
      · have hstays : s.proceedRound .operator s.generator.config
              ⟨.delivering q, record.kind, rest, Demo.failures answers⟩
            = (s.toPipeline, .under ⟨.delivering q, record.kind, rest, Demo.failures answers⟩) := by
          unfold Pipeline.proceedRound proceed
          simp only [if_neg due]
        rw [hstays] at ho'
        have hsame : r' = ⟨.delivering q, record.kind, rest, Demo.failures answers⟩
            ∧ left' = left := by
          cases left <;> cases ho' <;> exact ⟨rfl, rfl⟩
        obtain ⟨rfl, rfl⟩ := hsame
        cases hq'
        exact hlast
  | generated _ ho =>
    unfold Session.operatorTurn at ho'
    rw [ho] at ho'
    cases ho.symm.trans ho'

theorem Waits.turns (n : Nat) (hs : s.Waits last) (h : s.Plays c before rounds) :
    (s.turns n).Waits last := by
  induction n generalizing s with
  | zero => exact hs
  | succ n ih =>
    unfold Session.turns
    split
    next => exact hs
    next t ready _ =>
      have hplays : Plays c before rounds { s with ready } :=
        h.congr rfl (Nat.le_refl _) h.alone.choose_spec.sound
      have hwaits : Waits last { s with ready } := hs
      refine ih ?_ ((lasts_plays c before rounds).turn ready t h)
      by_cases ht : t = .operator
      · exact ht ▸ hwaits.operatorTurn hplays
      · obtain ⟨p, hp, -, hnow, -⟩ := hplays.alone.choose_spec.turn_eq ht
        rw [hp]
        intro r left failures q ho hq
        exact hnow ▸ hs r left failures q ho hq

/-- Where no task can go on, the end of the POST that the operator waits for is to come. -/
theorem Plays.exists_timer (h : s.Plays c before rounds) (reachable : s.Reachable)
    (hready : s.ready = []) (waiting : s.operator.isWaiting) :
    ∃ r left failures q, s.operator = .generating r left failures ∧ r.stage = .delivering q
      ∧ (q.due, .operator) ∈ s.timers := by
  cases h with
  | generating ho _ _ _ halts =>
    cases halts with
    | @under _ _ _ _ q _ _ _ _ _ =>
      have hhand : s.hand .operator = .waiting (.delivering q) := by
        simp [hand, ho, Operator.hand, Hand.ofStage]
      exact ⟨_, _, _, q, ho, rfl, (reachable.awaits.later hready (by rw [hhand]; rfl)).2⟩
  | generated _ ho => simp [ho, Operator.isWaiting] at waiting

theorem Waits.moveTo (hs : s.Waits last) (h : s.Plays c before rounds) (reachable : s.Reachable)
    (hready : s.ready = []) {due : Nat} (hdue : s.nextDue? = some due) :
    (s.moveTo due).Waits last := by
  intro r left failures q ho hq
  have hlast := hs r left failures q ho hq
  obtain ⟨_, _, _, _, ho', hq', htimer⟩ :=
    h.exists_timer reachable hready (by rw [show s.operator = _ from ho]; rfl)
  cases ho'.symm.trans ho
  cases hq'.symm.trans hq
  have hle := earliest_le hdue _ htimer
  have hnow := now_moveTo s due
  have hconfig : (s.moveTo due).generator.config = s.generator.config := rfl
  rw [hnow, hconfig]
  dsimp only at hle
  omega

/-- The operator has made all its rounds when it has waited for them. -/
theorem Plays.finish (h : s.Plays c before rounds) (reachable : s.Reachable) :
    s.finish.Plays c before rounds ∧ s.finish.operator.isWaiting = false := by
  unfold Session.finish
  split
  next waiting =>
    cases ho : s.operator with
    | generating r left failures =>
      obtain ⟨last, hlast⟩ : ∃ last,
          s.now + 5 * (left + 1) * s.generator.config.patience = last := ⟨_, rfl⟩
      have hwaits : s.Waits last := by
        intro r' left' failures' q ho' hq
        obtain ⟨hdue, hrest⟩ := h.due_le ho' hq
        cases ho.symm.trans ho'
        have hfive := Nat.mul_le_mul_left s.generator.config.patience
          (show r.rest.length + 5 * left + 1 ≤ 5 * (left + 1) by omega)
        rw [Nat.mul_succ, Nat.mul_comm _ (5 * (left + 1))] at hfive
        omega
      have hpatience : s.patience = 5 * (left + 1) * s.generator.config.patience + 1 := by
        simp only [patience, ho]
        rfl
      obtain ⟨⟨hplays, -⟩, hends⟩ := await_ends
        (P := fun s => s.Plays c before rounds ∧ s.Waits last) last
        (fun {s} _ hs => ⟨(lasts_plays c before rounds).settle hs.1, hs.2.turns s.work hs.1⟩)
        (fun hr hready hdue hs =>
          ⟨(lasts_plays c before rounds).elapse _ hs.1, hs.2.moveTo hs.1 hr hready hdue⟩)
        (fun hr hready hwaiting hs => by
          obtain ⟨r, left, failures, q, ho, hq, htimer⟩ := hs.1.exists_timer hr hready hwaiting
          have hlast := hs.2 r left failures q ho hq
          exact ⟨_, htimer, by dsimp only; omega⟩)
        s.patience reachable ⟨h, hwaits⟩ (by omega) (by omega)
      exact ⟨hplays, hends⟩
    | _ =>
      cases h with
      | generating ho' => cases ho.symm.trans ho'
      | generated _ ho' => simp [ho', Operator.isWaiting] at waiting
  next waiting => exact ⟨h, by simpa using waiting⟩

end Session

namespace Operation

/-- Whether an operation pushes nothing of its own, neither flushes nor changes a counter, and does
not let the source of synthetic records run by itself. -/
def standsBack : Operation → Bool
  | call _ | background _ | setCounter _ _ | addCounter _ _ | increment _ | decrement _
  | deleteCounter _ | startFlushing _ | startGenerator _ => false
  | _ => true

def rounds : Operation → Nat
  | generate n => n
  | _ => 0

/-- What an operation answers, with what the pushes of its rounds are answered: it is told how many
of them failed. -/
structure Tells (x : Operation × Answer) (made : List (List CallResult)) : Prop where
  rounds : made.length = x.1.rounds
  five : ∀ answers ∈ made, answers.length = 5
  number : ∀ n, x.1 = .generate n → x.2 = .number (Demo.failures made.flatten)

end Operation

namespace Session

open Pipeline

variable {c : AgentConfig} {before : List (List CallResult)} {s : Session} {op : Operation}

structure Rests (c : AgentConfig) (before : List (List CallResult)) (s : Session) : Prop where
  free : s.operator.isFree
  alone : s.Alone c before.length
  trail : s.journal.trail = Demo.rounds c before

theorem Rests.congr {p : Pipeline} (h : s.Rests c before)
    (htrail : p.journal.trail = s.journal.trail) (sound : p.receiver.Sound) :
    Rests c before { s with toPipeline := p } :=
  ⟨h.free, h.alone.congr sound, htrail.trans h.trail⟩

theorem lasts_rests (c : AgentConfig) (before : List (List CallResult)) :
    Lasts (Rests c before) where
  turn {s} ready t h := by
    have hrests : Rests c before { s with ready } := h.congr rfl h.alone.sound
    by_cases ht : t = .operator
    · subst ht
      have hself : ({ s with ready } : Session).turn .operator = { s with ready } := by
        have hfree := h.free
        show operatorTurn { s with ready } = _
        unfold operatorTurn
        split <;> simp_all [Operator.isFree]
      rw [hself]
      exact hrests
    · obtain ⟨p, hp, htrail, -, sound⟩ := hrests.alone.turn_eq ht
      rw [hp]
      exact hrests.congr htrail sound
  elapse {s} now h := by
    refine h.congr (trail_moveTo s.toPipeline now) ?_
    rw [receiver_moveTo]
    exact h.alone.sound

/-- An operation that stands back begins with nothing that the trail tells of. -/
theorem Rests.start (h : s.Rests c before) (hop : op.standsBack)
    (hrounds : ∀ n, op ≠ .generate n) : (s.start op).1.Rests c before := by
  have hnote (p : Pipeline) (hp : p.journal = s.journal) (hr : p.receiver = s.receiver) (e : Event)
      (he : e.mark? = none) : Rests c before { s with toPipeline := p.note e } := by
    refine h.congr ?_ (hr ▸ h.alone.sound)
    rw [trail_note, hp, he]
    exact List.append_nil _
  have hshow (j : Journal) (hj : j.events = s.journal.events) :
      Rests c before { s with journal := j } :=
    h.congr (p := { s.toPipeline with journal := j }) (trail_of_events hj) h.alone.sound
  cases op with
  | join id =>
    have hself : s.join id = (s, .pending) := by simp [join, h.alone.callers]
    show (s.join id).1.Rests c before
    rw [hself]
    exact h
  | startWorkers workers capacity =>
    refine h.congr (by rw [journal_startWorkers]) ?_
    rw [receiver_startWorkers]
    exact h.alone.sound
  | adjustHistory k n =>
    exact hnote { s.toPipeline with services := s.services.update (·.adjust n) k } rfl rfl
      (.adjusted k n) rfl
  | adjustKpiHistory n => exact h.congr rfl h.alone.sound
  | identify i =>
    exact hnote { s.toPipeline with identity := i.getD s.identity } rfl rfl (.identified _) rfl
  | setClock now =>
    exact hnote { s.toPipeline with clock := s.clock.set now } rfl rfl (.clockMoved _) rfl
  | advanceClock millis =>
    exact hnote { s.toPipeline with clock := s.clock.advance millis } rfl rfl (.clockMoved _) rfl
  | posts => exact hshow s.journal.showPosts rfl
  | hooks => exact hshow s.journal.showHooks rfl
  | logs => exact hshow s.journal.showLogs rfl
  | stopFlushing =>
    show (s.stopFlushing).Rests c before
    unfold stopFlushing cancelFlusher
    have halone := h.alone
    split
    next => exact ⟨h.free, ⟨halone.config, halone.idle, halone.begun, halone.callers,
        halone.flushers, halone.sound⟩, h.trail⟩
    next id _ => exact ⟨h.free, ⟨halone.config, halone.idle, halone.begun, halone.callers,
        by simp [halone.flushers], halone.sound⟩, h.trail⟩
  | stopGenerator =>
    show (s.stopGenerator).Rests c before
    have halone := h.alone
    unfold stopGenerator
    simp only [halone.idle]
    exact ⟨h.free, ⟨halone.config, rfl, halone.begun, halone.callers, halone.flushers,
      halone.sound⟩, h.trail⟩
  | generate n => exact absurd rfl (hrounds n)
  | call _ => cases hop
  | background _ => cases hop
  | setCounter _ _ => cases hop
  | addCounter _ _ => cases hop
  | increment _ => cases hop
  | decrement _ => cases hop
  | deleteCounter _ => cases hop
  | startFlushing _ => cases hop
  | startGenerator _ => cases hop
  | _ => exact h

theorem Rests.conclude (h : s.Rests c before) (hop : op.standsBack)
    (hrounds : ∀ n, op ≠ .generate n) (a : Answer) : (s.conclude a op).1.Rests c before := by
  unfold Session.conclude
  split
  next => cases hop
  next n => exact absurd rfl (hrounds n)
  next => exact (lasts_rests c before).settle h
  next => cases hop
  next => exact (lasts_rests c before).settle h
  next millis =>
    dsimp only
    exact (lasts_rests c before).advance millis h
  next => exact h

/-- The operator that begins rounds is on its way through them. -/
theorem Rests.enterRounds (h : s.Rests c before) (n : Nat) :
    (s.enterRounds n).Plays c before n := by
  have hself : s.enterRounds n = s.afterOwnRound n 0 (.ended 0) := by
    unfold Session.enterRounds
    rw [h.alone.idle]
  rw [hself]
  cases n with
  | zero =>
    refine .generated [] rfl (by simp) rfl (h.alone.stand _) ?_
    rw [List.append_nil]
    exact h.trail
  | succ left =>
    obtain ⟨halone, hhalts⟩ := h.alone.beginRound h.trail
    rw [← List.append_nil before] at hhalts
    have five : ∀ answers ∈ ([] : List (List CallResult)), answers.length = 5 := by simp
    have hrounds : ([] : List (List CallResult)).length + 1 + left = left + 1 := by
      rw [List.length_nil]
      omega
    exact afterOwnRound_plays (s := { s with
        toPipeline := (s.beginRound .operator s.generator).1
        generator := (s.beginRound .operator s.generator).2.1 }) five hrounds halone hhalts

theorem perform_generate (reachable : s.Reachable) (h : s.Rests c before) (n : Nat) :
    ∃ made : List (List CallResult), made.length = n ∧ (∀ answers ∈ made, answers.length = 5)
      ∧ (s.perform (.generate n)).2 = .number (Demo.failures made.flatten)
      ∧ (s.perform (.generate n)).1.Rests c (before ++ made) := by
  have hstart : s.ComesTo (s.enterRounds n) := by
    have hm : s.move (.start (.generate n)) = s.enterRounds n := if_pos h.free
    exact hm ▸ comesTo_move s (.start (.generate n))
  obtain ⟨hplays, hends⟩ := (h.enterRounds n).finish (reachable.comesTo hstart)
  have hperform : s.perform (.generate n) = (s.enterRounds n).finish.collect := by
    unfold perform
    rw [if_pos h.free]
    rfl
  rw [hperform]
  cases hplays with
  | generating ho => simp [ho, Operator.isWaiting] at hends
  | generated made ho five hrounds alone htrail =>
    have hcollect : (s.enterRounds n).finish.collect
        = ({ (s.enterRounds n).finish with operator := .free },
          .number (Demo.failures made.flatten)) := by
      unfold collect
      rw [ho]
    rw [hcollect]
    refine ⟨made, hrounds, five, rfl, rfl, ?_, htrail⟩
    rw [List.length_append]
    exact alone.stand .free

/-- An operation that stands back is answered, and adds its rounds to the trail. -/
theorem perform_rests (reachable : s.Reachable) (h : s.Rests c before) (hop : op.standsBack) :
    ∃ made, Operation.Tells (op, (s.perform op).2) made
      ∧ (s.perform op).1.Rests c (before ++ made) := by
  by_cases hrounds : ∃ n, op = .generate n
  · obtain ⟨n, rfl⟩ := hrounds
    obtain ⟨made, hlength, five, hnumber, hrests⟩ := perform_generate reachable h n
    exact ⟨made, ⟨hlength, five, fun _ _ => hnumber⟩, hrests⟩
  · have hnot (n : Nat) : op ≠ .generate n := fun hn => hrounds ⟨n, hn⟩
    have hstart := h.start hop hnot
    refine ⟨[], ⟨?_, by simp, fun n hn => absurd hn (hnot n)⟩, ?_⟩
    · cases op <;> first | rfl | exact absurd rfl (hnot _)
    · rw [List.append_nil]
      unfold perform
      rw [if_pos h.free]
      exact hstart.conclude hop hnot _

def performAll (s : Session) : List Operation → Session × List (Operation × Answer)
  | [] => (s, [])
  | op :: ops =>
    let (s, a) := s.perform op
    let (s, rest) := s.performAll ops
    (s, (op, a) :: rest)

/-- It is a run in which each operation is performed once. -/
theorem run_eq_performAll (s : Session) (ops : List Operation) :
    (s.run (ops.map (·, 1))).map Prod.snd = (s.performAll ops).2.map Prod.snd := by
  induction ops generalizing s with
  | nil => rfl
  | cons op ops ih => exact congrArg ((s.perform op).2 :: ·) (ih _)

theorem comesTo_performAll (s : Session) (ops : List Operation) :
    s.ComesTo (s.performAll ops).1 := by
  induction ops generalizing s with
  | nil => exact .refl s
  | cons op ops ih => exact (comesTo_perform s op).trans (ih _)

/-- A run of operations that stand back makes all their rounds, one after the other. -/
theorem performAll_rests {ops : List Operation} (reachable : s.Reachable) (h : s.Rests c before)
    (hops : ∀ op ∈ ops, op.standsBack) :
    ∃ made, List.Forall₂ Operation.Tells (s.performAll ops).2 made
      ∧ (s.performAll ops).1.Rests c (before ++ made.flatten) := by
  induction ops generalizing s before with
  | nil =>
    refine ⟨[], .nil, ?_⟩
    rw [List.flatten_nil, List.append_nil]
    exact h
  | cons op ops ih =>
    obtain ⟨made, htells, hrests⟩ := perform_rests reachable h (hops op List.mem_cons_self)
    obtain ⟨rest, htold, hlast⟩ := ih (reachable.comesTo (comesTo_perform s op)) hrests
      fun op hop => hops op (List.mem_cons_of_mem _ hop)
    refine ⟨made :: rest, .cons htells htold, ?_⟩
    rw [List.flatten_cons, ← List.append_assoc]
    exact hlast

theorem create_rests (a : Assembly) (settings : Settings) (identity : Identity) (clock : Clock)
    {receiver : Receiver} (sound : receiver.Sound) (demo : AgentConfig) (chance : Chance) :
    (create a settings identity clock receiver demo chance).Rests demo [] := by
  have hfirst : (create a settings identity clock receiver demo chance).journal.trail = []
      ∧ (create a settings identity clock receiver demo chance).receiver.Sound := by
    refine create_of_startWorkers (P := fun p => p.journal.trail = [] ∧ p.receiver.Sound)
      ⟨rfl, sound⟩ fun p workers capacity hp => ?_
    rwa [journal_startWorkers, receiver_startWorkers]
  rw [create_eq] at hfirst ⊢
  exact ⟨rfl, ⟨rfl, rfl, rfl, rfl, rfl, hfirst.2⟩, hfirst.1⟩

end Session

end Uplink
