import Uplink.Proofs.Kpi.Tended
import Uplink.Proofs.Session.Patience
/-!
Flushers that wait for something that is still to come.  Where no task can go on, the current
flusher does, and so it does between the operations of a session.  It waits on while other tasks
have their turns, and a flusher that is cancelled meanwhile only gives up what it waits for.
-/
namespace Uplink

theorem Hand.eq_of_ofStage {stage stage' : Stage} (h : Hand.ofStage stage = .waiting stage') :
    stage = stage' := by
  cases stage with
  | ended r => cases h
  | _ => exact Hand.waiting.inj h

theorem Pipeline.proceed_early {q : Posting} (p : Pipeline) (later : p.now < q.due) (t : Task) :
    p.proceed t (.flushing q) = (p, .flushing q) :=
  if_neg (Nat.not_le_of_lt later)

theorem Pipeline.proceedRound_early {q : Posting} (p : Pipeline) (later : p.now < q.due) {r : Round}
    (hr : Hand.ofStage r.stage = .waiting (.flushing q)) (t : Task) (c : AgentConfig) :
    p.proceedRound t c r = (p, .under r) := by
  unfold proceedRound
  rw [Hand.eq_of_ofStage hr, proceed_early p later]
  simp only [← Hand.eq_of_ofStage hr]

namespace Session

open Pipeline

variable {s s' : Session} {id : Nat} {f : Flusher} {t : Task} {stage : FlusherStage} {m : Move}
  {op : Operation}

/-- A flusher that sleeps or waits for a POST, its own or that of the first in line, is suspended
until the end of its sleep or of the POST.  One that did not begin waits for nothing else. -/
inductive Suspends (s : Session) : FlusherStage → Prop
  | fresh : s.Suspends .fresh
  | asleep {due : Nat} (later : s.now < due) : s.Suspends (.asleep due)
  | queueing {url : String} {t : Task} {q : Posting} (head : s.line.head? = some t)
    (other : ∀ i, t ≠ .flusher i) (waits : s.hand t = .waiting (.flushing q))
    (later : s.now < q.due) : s.Suspends (.queueing url)
  | flushing {q : Posting} (later : s.now < q.due) : s.Suspends (.flushing q)
  | ended : s.Suspends .ended

/-! ### Turns before the time -/

/-- Nothing comes of the turn of a task whose POST is not over. -/
theorem turn_early {q : Posting} (ht : ∀ i, t ≠ .flusher i)
    (waits : s.hand t = .waiting (.flushing q)) (later : s.now < q.due) :
    (s.turn t).toPipeline = s.toPipeline ∧ (s.turn t).hand t = s.hand t := by
  have hproceed := proceed_early s.toPipeline later
  cases t with
  | operator =>
    show s.operatorTurn.toPipeline = _ ∧ s.operatorTurn.hand .operator = _
    cases ho : s.operator with
    | calling stage =>
      have hstage : stage = .flushing q :=
        Hand.eq_of_ofStage ((hand_of_calling ho).symm.trans waits)
      unfold operatorTurn
      rw [waits, ho, hstage]
      dsimp only
      rw [hproceed]
      exact ⟨rfl, rfl⟩
    | generating r left failures =>
      have hr : Hand.ofStage r.stage = .waiting (.flushing q) := by
        simpa [hand, ho, Operator.hand] using waits
      unfold operatorTurn
      rw [waits, ho]
      dsimp only
      rw [proceedRound_early _ later hr]
      cases left <;> exact ⟨rfl, hr⟩
    | _ => simp [hand, ho, Operator.hand] at waits
  | caller id =>
    show (s.callerTurn id).toPipeline = _ ∧ (s.callerTurn id).hand (.caller id) = _
    cases hc : s.callers[id]? with
    | none => simp [hand, hc] at waits
    | some c =>
      cases c with
      | under stage =>
        have hstage : stage = .flushing q :=
          Hand.eq_of_ofStage (by simpa [hand, hc, Caller.hand] using waits)
        obtain ⟨hid, -⟩ := List.getElem?_eq_some_iff.mp hc
        unfold callerTurn
        rw [waits, hc, hstage]
        dsimp only
        rw [hproceed]
        exact ⟨rfl, by simp [hand, hid, Caller.hand, Hand.ofStage]⟩
      | _ => simp [hand, hc, Caller.hand] at waits
  | worker w => simp [hand] at waits
  | flusher id => exact absurd rfl (ht id)
  | generator =>
    show s.generatorTurn.toPipeline = _ ∧ s.generatorTurn.hand .generator = _
    cases hg : s.generator.stage with
    | pushing r next =>
      have hr : Hand.ofStage r.stage = .waiting (.flushing q) := by
        simpa [hand, hg, GeneratorStage.hand] using waits
      unfold generatorTurn
      dsimp only
      rw [waits, hg]
      dsimp only
      rw [proceedRound_early _ later hr]
      exact ⟨rfl, hr⟩
    | _ => simp [hand, hg, GeneratorStage.hand] at waits

/-! ### What leaves a flusher suspended -/

/-- A task leaves flushers suspended unless it ends the flush they wait for. -/
theorem Suspends.leads {quits : Prop} {h : Hand} (hs : s.Suspends stage) (hl : Leads quits t h s s')
    (hown : (∀ i, t ≠ .flusher i) → ∀ q, s.hand t = .waiting (.flushing q) → s.now < q.due →
      s'.toPipeline = s.toPipeline ∧ s'.hand t = s.hand t) : s'.Suspends stage := by
  have hnow : s'.now = s.now := hl.steps.now_eq
  cases hs with
  | fresh => exact .fresh
  | asleep later => exact .asleep (hnow ▸ later)
  | @queueing _ u q head other waits later =>
    by_cases hu : u = t
    · subst hu
      obtain ⟨hpipeline, hhand⟩ := hown other q waits later
      exact .queueing (congrArg Pipeline.line hpipeline ▸ head) other (hhand.trans waits)
        (hnow ▸ later)
    · exact .queueing (hl.steps.head?_line hu head) other ((hl.others u hu).trans waits)
        (hnow ▸ later)
  | flushing later => exact .flushing (hnow ▸ later)
  | ended => exact .ended

theorem Suspends.of_hand_eq (hs : s.Suspends stage) (hnow : s'.now = s.now)
    (hline : s'.line = s.line) (hhand : s'.hand = s.hand) : s'.Suspends stage := by
  cases hs with
  | fresh => exact .fresh
  | asleep later => exact .asleep (hnow ▸ later)
  | queueing head other waits later =>
    exact .queueing (hline ▸ head) other (hhand ▸ waits) (hnow ▸ later)
  | flushing later => exact .flushing (hnow ▸ later)
  | ended => exact .ended

/-- Flushers stay suspended until time moves or a flush is dropped. -/
theorem Suspends.move (hs : s.Suspends stage) (helapse : ∀ now, m ≠ .elapse now)
    (hdrop : ∀ t, m ≠ .drop t) : (s.move m).Suspends stage := by
  have hm := s.moves_move m
  generalize s.move m = s' at hm ⊢
  cases hm with
  | stays => exact hs
  | start op free =>
    have hfree := hand_operator_of_isFree free
    exact hs.leads (leads_start s op free) fun _ q waits _ => by simp [hfree] at waits
  | collect =>
    exact hs.of_hand_eq (congrArg Pipeline.now (toPipeline_collect s))
      (congrArg Pipeline.line (toPipeline_collect s)) (hand_collect s)
  | turn t _ =>
    have herased : ({ s with ready := s.ready.erase t } : Session).Suspends stage :=
      hs.of_hand_eq rfl rfl rfl
    exact herased.leads (leads_turn _ t) fun other q waits later => turn_early other waits later
  | elapse now => exact absurd rfl (helapse now)
  | dropOwn => exact absurd rfl (hdrop .operator)
  | @drop id => exact absurd rfl (hdrop (.caller id))
  | discard =>
    exact hs.of_hand_eq (leads_stopFlushing s).steps.now_eq (line_cancelFlusher s)
      (hand_cancelFlusher s)

/-! ### The current flusher -/

/-- The current flusher is suspended. -/
def Calm (s : Session) : Prop :=
  ∀ id f, s.current = some id → s.flushers[id]? = some f → s.Suspends f.stage

/-- Where no task can go on, the current flusher is suspended. -/
theorem Reachable.calm (h : s.Reachable) (hready : s.ready = []) : s.Calm := by
  intro id f hid hf
  have tended := h.tended
  have hactive : f.cancelled = false := (tended.active id f hf).mpr hid
  have hhand : s.hand (.flusher id) = f.stage.hand := by simp [hand, hf]
  cases hs : f.stage with
  | fresh => exact .fresh
  | asleep due =>
    have hroused := h.roused id f hf fun finished =>
      Bool.noConfusion (hactive.symm.trans finished.1)
    refine .asleep ?_
    rcases hroused.2 due hs with htimer | ⟨-, hmem⟩
    · exact h.now_lt _ htimer
    · simp [hready] at hmem
  | queueing url =>
    have hmem : .flusher id ∈ s.line := (h.lined.mem_line _).mpr (by rw [hhand, hs]; rfl)
    obtain ⟨t, ht⟩ : ∃ t, s.line.head? = some t := by
      cases hl : s.line with
      | nil => simp [hl] at hmem
      | cons t line => exact ⟨t, rfl⟩
    obtain ⟨q, hq⟩ := h.heeded.flushing hready ht
    refine .queueing ht (fun i hi => ?_) hq (h.awaits.later hready (by rw [hq]; rfl)).1
    subst hi
    -- it would be another flusher, which was cancelled, and so has nothing in hand any more
    cases hi : s.flushers[i]? with
    | none => simp [hand, hi] at hq
    | some f' =>
      cases hc : f'.cancelled with
      | false =>
        obtain rfl : id = i := Option.some_inj.mp (hid.symm.trans ((tended.active i f' hi).mp hc))
        rw [hhand, hs] at hq
        cases hq
      | true =>
        rcases tended.leaving i f' hi hc with hended | hmem
        · simp [hand, hi, hended, FlusherStage.hand] at hq
        · simp [hready] at hmem
  | flushing q => exact .flushing (h.awaits.later hready (by rw [hhand, hs]; rfl)).1
  | ended => exact .ended

theorem Calm.of_flushing_eq (hs : s.Calm)
    (hsuspends : ∀ stage, s.Suspends stage → s'.Suspends stage)
    (hflushing : s'.flushing = s.flushing) : s'.Calm := by
  intro id f hid hf
  have hcurrent : s'.current = s.current := congrArg (·.2.1) hflushing
  exact hsuspends _ (hs id f (hcurrent ▸ hid) (getElem?_of_flushing hflushing ▸ hf))

/-- The flusher that is started by an operation did not begin yet, and any other stays suspended. -/
theorem Calm.start (hs : s.Calm) (free : s.operator.isFree) (op : Operation) :
    (s.start op).1.Calm := by
  have hmove : s.move (.start op) = (s.start op).1 := if_pos free
  have hsuspends (stage : FlusherStage) (hs : s.Suspends stage) : (s.start op).1.Suspends stage :=
    hmove ▸ hs.move (by simp) (by simp)
  cases op with
  | startFlushing url =>
    intro id f hid hf
    have hnew : s.cancelFlusher.flushers.length = id := Option.some_inj.mp hid
    have hlast : (s.cancelFlusher.flushers ++ [({ url } : Flusher)])[id]? = some f := hf
    rw [← hnew, List.getElem?_concat_length] at hlast
    obtain rfl := Option.some_inj.mp hlast
    exact .fresh
  | stopFlushing =>
    intro id f hid
    have hnone : s.cancelFlusher.current = some id := hid
    simp [current_cancelFlusher] at hnone
  | _ =>
    exact hs.of_flushing_eq hsuspends
      (flushing_start s _ (fun _ => Operation.noConfusion) Operation.noConfusion)

theorem Calm.collect (hs : s.Calm) : s.collect.1.Calm :=
  hs.of_flushing_eq (fun _ hs => hs.move (m := .collect) (by simp) (by simp)) (flushing_collect s)

/-! ### Operations -/

/-- A session after operations, the last of which is done. -/
inductive Performed : Session → Prop
  | create (a : Assembly) (settings : Settings) (identity : Identity) (clock : Clock)
    (receiver : Receiver) (demo : AgentConfig) (chance : Chance) :
    Performed (create a settings identity clock receiver demo chance)
  | perform {s : Session} (hs : Performed s) (op : Operation)
    (free : (s.perform op).1.operator.isFree) : Performed (s.perform op).1

theorem Performed.reachable (hs : Performed s) : s.Reachable := by
  induction hs with
  | create => exact reachable_create _ _ _ _ _ _ _
  | perform _ op _ ih => exact ih.comesTo (comesTo_perform _ op)

theorem Performed.isFree (hs : Performed s) : s.operator.isFree := by
  cases hs with
  | create =>
    rw [create_eq]
    rfl
  | perform _ _ free => exact free

/-- When the operator has what it waited for, no task can go on. -/
theorem ready_await (n : Nat) (h : s.Reachable) (waited : s.operator.isWaiting)
    (done : (s.await n).operator.isWaiting = false) : (s.await n).ready = [] := by
  induction n generalizing s with
  | zero => exact absurd (waited.symm.trans done) Bool.noConfusion
  | succ n ih =>
    unfold await at done ⊢
    dsimp only at done ⊢
    by_cases waiting : s.settle.operator.isWaiting
    · rw [if_pos waiting] at done ⊢
      cases hdue : s.settle.nextDue? with
      | none => simp [hdue, waiting] at done
      | some due =>
        simp only [hdue] at done
        exact ih (h.comesTo ((comesTo_settle s).trans (comesTo_moveTo _ due))) waiting done
    · rw [if_neg waiting]
      exact h.ready_settle

theorem Calm.finish (h : s.Reachable) (hs : s.Calm) (done : s.finish.operator.isWaiting = false) :
    s.finish.Calm := by
  unfold Session.finish at done ⊢
  split at done
  next waiting =>
    rw [if_pos waiting]
    exact (h.comesTo (comesTo_await _ s)).calm (ready_await _ h waiting done)
  next waiting =>
    rw [if_neg waiting]
    exact hs

theorem isWaiting_of_collect (free : s.collect.1.operator.isFree) :
    s.operator.isWaiting = false := by
  unfold collect at free
  split at free
  next ho => simp [ho, Operator.isWaiting]
  next ho => simp [ho, Operator.isWaiting]
  next ho => simp [ho, Operator.isWaiting]
  next ho => simp [ho, Operator.isWaiting]
  next hfree _ _ _ => cases ho : s.operator <;> simp_all [Operator.isFree]

theorem Calm.conclude (h : s.Reachable) (hs : s.Calm) (a : Answer)
    (free : (s.conclude a op).1.operator.isFree) : (s.conclude a op).1.Calm := by
  have hsettle : s.settle.Calm := (h.comesTo (comesTo_settle s)).calm h.ready_settle
  cases op with
  | call c => exact (hs.finish h (isWaiting_of_collect free)).collect
  | generate rounds => exact (hs.finish h (isWaiting_of_collect free)).collect
  | settle => exact hsettle
  | startGenerator period => exact hsettle
  | stopGenerator => exact hsettle
  | advance millis =>
    unfold Session.conclude
    dsimp only
    exact (h.comesTo (comesTo_advance s millis)).calm (advance_spec h millis).2.1
  | _ => exact hs

/-- Between operations the current flusher is suspended. -/
theorem Performed.calm (hs : Performed s) : s.Calm := by
  induction hs with
  | create =>
    rw [create_eq]
    intro id f hid
    simp at hid
  | @perform s hs op free ih =>
    have hperform : s.perform op = (s.start op).1.conclude (s.start op).2 op := if_pos hs.isFree
    have hstart : s.ComesTo (s.start op).1 :=
      (if_pos hs.isFree : s.move (.start op) = (s.start op).1) ▸ comesTo_move s (.start op)
    rw [hperform] at free ⊢
    exact (ih.start hs.isFree op).conclude (hs.reachable.comesTo hstart) _ free

/-! ### Cancelled flushers -/

/-- A flusher that is suspended goes no further. -/
theorem Suspends.pursue (hs : s.Suspends f.stage) (id : Nat) :
    (s.pursue id f).journal = s.journal ∧ (s.pursue id f).kpi = s.kpi
      ∧ (s.pursue id f).line = s.line := by
  unfold Session.pursue
  dsimp only
  generalize hf : f.stage = stage at hs
  cases hs with
  | fresh =>
    dsimp only
    unfold sleep
    split <;> exact ⟨rfl, rfl, rfl⟩
  | asleep later =>
    dsimp only
    rw [if_neg (Nat.not_le_of_lt later)]
    exact ⟨rfl, rfl, rfl⟩
  | queueing head other waits later =>
    dsimp only
    have hne : s.line.head? ≠ some (.flusher id) := fun hid =>
      other id (Option.some_inj.mp (head.symm.trans hid))
    rw [show s.proceed (.flusher id) (.queueing _) = (s.toPipeline, .queueing _) from if_neg hne]
    exact ⟨rfl, rfl, rfl⟩
  | @flushing q later =>
    dsimp only
    rw [show s.proceed (.flusher id) (.flushing q) = (s.toPipeline, .flushing q) from
      if_neg (Nat.not_le_of_lt later)]
    exact ⟨rfl, rfl, rfl⟩
  | ended => exact ⟨rfl, rfl, rfl⟩

/-- A flusher that was cancelled while it was suspended. -/
def Stilled (s : Session) (id : Nat) : Prop :=
  ∃ f, s.flushers[id]? = some f ∧ f.cancelled ∧ s.Suspends f.stage

theorem Over.stilled (ho : s.Over id) : s.Stilled id := by
  obtain ⟨f, hf, cancelled, ended⟩ := ho
  exact ⟨f, hf, cancelled, ended ▸ .ended⟩

/-- It stays so until its turn, before which time does not move. -/
theorem Stilled.move (hs : s.Stilled id) (tended : s.Tended) (hm : m.Prompt s)
    (hdrop : ∀ t, m ≠ .drop t) : (s.move m).Stilled id := by
  obtain ⟨f, hf, cancelled, hsuspends⟩ := hs
  have hover (ended : f.stage = .ended) : (s.move m).Stilled id :=
    (Over.move ⟨f, hf, cancelled, ended⟩ m).stilled
  by_cases ht : m = .turn (.flusher id)
  · subst ht
    rcases tended.leaving id f hf cancelled with ended | ready
    · exact hover ended
    · exact (Cancelled.isOver ⟨f, hf, cancelled⟩ ready).stilled
  · by_cases he : ∃ now, m = .elapse now
    · obtain ⟨now, rfl⟩ := he
      exact hover ((tended.leaving id f hf cancelled).resolve_right (by simp [hm.1]))
    · have hown : m.task? ≠ some (.flusher id) := by
        cases m <;> simp_all [Move.task?]
      obtain ⟨f', hf', left⟩ := flusher_move hf m
      refine ⟨f', hf', left.cancelled cancelled, left.stage hown ▸ ?_⟩
      exact hsuspends.move (fun now h => he ⟨now, h⟩) hdrop

/-- In its turn it gives up what it waits for, and does nothing else. -/
theorem Stilled.turn (hs : s.Stilled id) :
    (∃ es, (s.move (.turn (.flusher id))).journal.events = es ++ s.journal.events
      ∧ ∀ e ∈ es, s.line.head? = some (.flusher id) ∧ e = .withdrawn (.flusher id))
    ∧ (s.move (.turn (.flusher id))).kpi.counters = s.kpi.counters
    ∧ (s.move (.turn (.flusher id))).kpi.history = s.kpi.history := by
  by_cases ready : .flusher id ∈ s.ready
  · obtain ⟨f, hf, cancelled, hsuspends⟩ := hs
    obtain ⟨s₁, hmove, hj, hk, hline⟩ : ∃ s₁ : Session,
        s.move (.turn (.flusher id)) = s₁.quitFlusher id
        ∧ s₁.journal = s.journal ∧ s₁.kpi = s.kpi ∧ s₁.line = s.line := by
      have herased : ({ s with ready := s.ready.erase (.flusher id) } : Session).Suspends f.stage :=
        hsuspends.of_hand_eq rfl rfl rfl
      have hpursue := herased.pursue id
      have hturn := flusherTurn_of_cancelled
        (s := { s with ready := s.ready.erase (.flusher id) }) hf cancelled
      refine ⟨_, (if_pos ready).trans hturn, ?_⟩
      split
      · exact hpursue
      · exact ⟨rfl, rfl, rfl⟩
    have hquit : (s₁.quitFlusher id).toPipeline = s₁.withdraw (.flusher id) := rfl
    rw [hmove, hquit, events_withdraw, hj, ← hk]
    refine ⟨⟨_, rfl, fun e he => ?_⟩, ?_⟩
    · exact hline ▸ mem_yields.mp he
    · unfold withdraw
      rw [kpi_leave]
      split <;> exact ⟨rfl, rfl⟩
  · rw [show s.move (.turn (.flusher id)) = s from if_neg ready]
    exact ⟨⟨[], rfl, by simp⟩, rfl, rfl⟩

end Session

end Uplink
