import Uplink.Proofs.Session.Move
import Uplink.Proofs.Session.Work
/-!
What each task of a session has in hand between its turns, and how a move of the session is a run
of steps of one task that leaves alone what the others have in hand.
-/
namespace Uplink

def Operator.hand : Operator → Hand
  | .calling stage => .ofStage stage
  | .generating r _ _ => .ofStage r.stage
  | _ => .free

def Caller.hand : Caller → Hand
  | .under stage => .ofStage stage
  | _ => .free

def FlusherStage.hand : FlusherStage → Hand
  | .queueing url => .waiting (.queueing url)
  | .flushing q => .waiting (.flushing q)
  | _ => .free

def GeneratorStage.hand : GeneratorStage → Hand
  | .pushing r _ => .ofStage r.stage
  | _ => .free

theorem Duration.millis_pos {d : Duration} (h : 0 < d.nanos) : 0 < d.millis := by
  unfold millis
  omega

/-- The wait before the next attempt is no shorter than the granularity. -/
theorem nanos_le_backoff {g d : Duration} {failures : UInt32} (h : backoff? g failures = some d) :
    g.nanos ≤ d.nanos := by
  have hfactor : 0 < backoffFactor failures := by
    unfold backoffFactor
    split
    · decide
    · split <;> decide
  unfold backoff? Duration.times? Duration.ofNanos? at h
  split at h
  next fits =>
    cases h
    exact Nat.le_mul_of_pos_right _ hfactor
  next => exact absurd h (by simp)

namespace Session

open Pipeline

/-- What a task has in hand while it waits.  A worker holds nothing but the POST it is busy with. -/
def hand (s : Session) : Task → Hand
  | .operator => s.operator.hand
  | .caller id => (s.callers[id]?.map Caller.hand).getD .free
  | .worker _ => .free
  | .flusher id => (s.flushers[id]?.map fun f => f.stage.hand).getD .free
  | .generator => s.generator.stage.hand

/-- A task that had `h` in hand when a session was at `s` takes it to `s'` by steps of its own. -/
structure Leads (quits : Prop) (t : Task) (h : Hand) (s s' : Session) : Prop where
  steps : Steps quits t s.toPipeline h s'.toPipeline (s'.hand t)
  others : ∀ u, u ≠ t → s'.hand u = s.hand u

variable {quits : Prop} {s s' s'' : Session} {t : Task} {h h' : Hand} {p : Pipeline}

theorem Leads.refl (t : Task) (s : Session) : Leads quits t (s.hand t) s s :=
  ⟨.refl _ _, fun _ _ => rfl⟩

theorem Leads.trans (hs : Leads quits t h s s') (hs' : Leads quits t (s'.hand t) s' s'') :
    Leads quits t h s s'' :=
  ⟨hs.steps.trans hs'.steps, fun u hu => (hs'.others u hu).trans (hs.others u hu)⟩

/-- Steps come before whatever a task does to the session with them. -/
theorem Leads.after (hp : Steps quits t s.toPipeline h p h')
    (hs : Leads quits t h' { s with toPipeline := p } s') : Leads quits t h s s' :=
  ⟨hp.trans hs.steps, hs.others⟩

theorem Leads.hand_eq (hs : Leads quits t h s s') :
    s'.hand = Function.update s.hand t (s'.hand t) := by
  funext u
  by_cases hu : u = t
  · rw [hu, Function.update_self]
  · rw [Function.update_of_ne hu, hs.others u hu]

/-! ### Calls in the background -/

theorem leads_setCaller {id : Nat} (hid : id < s.callers.length) (c : Caller) :
    Leads quits (.caller id) c.hand s { s with callers := s.callers.set id c } := by
  constructor
  · simpa [hand, hid] using Steps.refl _ _
  · intro u hu
    cases u with
    | caller i =>
      have hi : i ≠ id := fun hi => hu (hi ▸ rfl)
      simp [hand, List.getElem?_set_ne hi.symm]
    | _ => rfl

theorem leads_callerTurn (s : Session) (id : Nat) :
    Leads quits (.caller id) (s.hand (.caller id)) s (s.callerTurn id) := by
  unfold callerTurn
  dsimp only
  split
  next c hc =>
    obtain ⟨hid, _⟩ := List.getElem?_eq_some_iff.mp hc
    have hh : s.hand (.caller id) = .free := by simp [hand, hc, Caller.hand]
    exact hh ▸ .after (begin_steps _ _ c) (leads_setCaller (by exact hid) (.under _))
  next stage hc =>
    obtain ⟨hid, _⟩ := List.getElem?_eq_some_iff.mp hc
    have hh : s.hand (.caller id) = .ofStage stage := by simp [hand, hc, Caller.hand]
    exact hh ▸ .after (proceed_steps _ _ stage) (leads_setCaller (by exact hid) (.under _))
  next => exact .refl _ _

/-! ### Periodic flushes -/

theorem leads_setFlusher {id : Nat} (hid : id < s.flushers.length) (f : Flusher) :
    Leads quits (.flusher id) f.stage.hand s (s.setFlusher id f) := by
  constructor
  · simpa [hand, hid, setFlusher] using Steps.refl _ _
  · intro u hu
    cases u with
    | flusher i =>
      have hi : i ≠ id := fun hi => hu (hi ▸ rfl)
      simp [hand, setFlusher, List.getElem?_set_ne hi.symm]
    | _ => rfl

theorem leads_sleep {id : Nat} (hid : id < s.flushers.length) (f : Flusher) :
    Leads quits (.flusher id) .free s (s.sleep id f) := by
  unfold sleep
  split
  next => exact leads_setFlusher hid { f with stage := .ended }
  next d hd =>
    have later : 0 < s.kpi.granularity.nanos → s.now < s.now + d.millis := by
      intro hg
      have := Duration.millis_pos (Nat.lt_of_lt_of_le hg (nanos_le_backoff hd))
      omega
    exact .after (Step.setTimer _ later).steps
      (leads_setFlusher (by exact hid) { f with stage := .asleep (s.now + d.millis) })

theorem leads_afterFlush {id : Nat} (hid : id < s.flushers.length) (f : Flusher)
    {r : Pipeline × Stage} (hf : r.2.ofFlush)
    (hr : Steps quits (.flusher id) s.toPipeline h r.1 (.ofStage r.2)) :
    Leads quits (.flusher id) h s (s.afterFlush id f r) := by
  refine .after hr ?_
  obtain ⟨p, stage⟩ := r
  cases stage with
  | ended result =>
    cases result with
    | flushed o => exact leads_sleep (by exact hid) _
    | _ => exact leads_setFlusher (by exact hid) { f with stage := .ended }
  | queueing url => exact leads_setFlusher (by exact hid) { f with stage := .queueing url }
  | flushing q => exact leads_setFlusher (by exact hid) { f with stage := .flushing q }
  | _ => exact absurd hf (by simp [Stage.ofFlush])

theorem leads_pursue {id : Nat} {f : Flusher} (hf : s.flushers[id]? = some f) :
    Leads quits (.flusher id) (s.hand (.flusher id)) s (s.pursue id f) := by
  obtain ⟨hid, _⟩ := List.getElem?_eq_some_iff.mp hf
  have hh : s.hand (.flusher id) = f.stage.hand := by simp [hand, hf]
  rw [hh]
  unfold pursue
  dsimp only
  split
  next hs => exact hs ▸ leads_sleep hid _
  next due hs =>
    split
    next => exact hs ▸ leads_afterFlush hid _ (flush_ofFlush _ _ _) (flush_steps _ _ _)
    next => exact hh ▸ .refl _ _
  next url hs =>
    exact hs ▸ leads_afterFlush hid f (proceed_ofFlush _ _ rfl) (proceed_steps _ _ (.queueing url))
  next q hs =>
    exact hs ▸ leads_afterFlush hid f (proceed_ofFlush _ _ rfl) (proceed_steps _ _ (.flushing q))
  next => exact hh ▸ .refl _ _

theorem hand_flusher_flushes (s : Session) (id : Nat) :
    s.hand (.flusher id) = .free ∨ (s.hand (.flusher id)).flushes := by
  simp only [hand]
  cases s.flushers[id]? with
  | none => exact .inl rfl
  | some f =>
    show f.stage.hand = .free ∨ f.stage.hand.flushes
    cases f.stage <;> simp [FlusherStage.hand, Hand.flushes, Hand.isFlushing]

theorem hand_quitFlusher (s : Session) (id : Nat) :
    (s.quitFlusher id).hand (.flusher id) = .free := by
  cases hf : s.flushers[id]? <;> simp [hand, quitFlusher, hf, FlusherStage.hand]

theorem leads_quitFlusher (s : Session) (id : Nat) (hq : quits) :
    Leads quits (.flusher id) (s.hand (.flusher id)) s (s.quitFlusher id) := by
  constructor
  · exact hand_quitFlusher s id ▸ (Step.withdraw (hand_flusher_flushes s id) hq).steps
  · intro u hu
    cases u with
    | flusher i =>
      have hi : id ≠ i := fun hi => hu (hi ▸ rfl)
      simp [hand, quitFlusher, hi]
    | _ => rfl

/-- Only flushers that were cancelled quit in their turns. -/
def Quits (s : Session) (t : Task) : Prop :=
  ∃ id f, t = .flusher id ∧ s.flushers[id]? = some f ∧ f.cancelled

theorem leads_flusherTurn (s : Session) (id : Nat) :
    Leads (s.Quits (.flusher id)) (.flusher id) (s.hand (.flusher id)) s (s.flusherTurn id) := by
  unfold flusherTurn
  split
  next => exact .refl _ _
  next f hf =>
    split
    next cancelled =>
      have hq : s.Quits (.flusher id) := ⟨id, f, rfl, hf, cancelled⟩
      split
      next => exact (leads_pursue hf).trans (leads_quitFlusher _ id hq)
      next => exact leads_quitFlusher s id hq
    next => exact leads_pursue hf

/-! ### Synthetic records -/

theorem leads_setGenerator (s : Session) (g : Generator) (stage : GeneratorStage) :
    Leads quits .generator stage.hand s (s.setGenerator g stage) := by
  constructor
  · exact .refl _ _
  · intro u hu
    cases u with
    | generator => exact absurd rfl hu
    | _ => rfl

/-- A generator that waits for a round changes nothing but itself and when it can go on. -/
theorem awaitRound_eq (s : Session) (g : Generator) (due : Nat) :
    ∃ ready timers stage, s.awaitRound g due
        = { s with ready, timers, generator := { g with stage } }
      ∧ stage.hand = .free := by
  unfold awaitRound
  split
  · exact ⟨_, _, _, rfl, rfl⟩
  · split <;> exact ⟨_, _, _, rfl, rfl⟩

theorem leads_awaitRound (s : Session) (g : Generator) (due : Nat) :
    Leads quits .generator .free s (s.awaitRound g due) := by
  unfold awaitRound
  split
  next => exact .after Step.resume.steps (leads_setGenerator _ g (.waiting due))
  next later =>
    split
    next => exact leads_setGenerator _ g .ended
    next =>
      exact .after (Step.setTimer due fun _ => Nat.lt_of_not_le later).steps
        (leads_setGenerator _ g (.waiting due))

theorem leads_afterRound (s : Session) (g : Generator) (next : Nat) (r : RoundStage) :
    Leads quits .generator r.hand s (s.afterRound g next r) := by
  cases r with
  | ended failures => exact leads_awaitRound s g next
  | crashed => exact leads_setGenerator s g .ended
  | under r => exact leads_setGenerator s g (.pushing r next)

theorem leads_runRound (s : Session) (g : Generator) (due : Nat) :
    Leads quits .generator .free s (s.runRound g due) :=
  .after (beginRound_steps _ _ g) (leads_afterRound _ _ _ _)

theorem leads_generatorTurn (s : Session) :
    Leads quits .generator (s.hand .generator) s s.generatorTurn := by
  have hfree {stage : GeneratorStage} (hs : s.generator.stage = stage) (hf : stage.hand = .free) :
      s.hand .generator = .free := by rw [← hf, ← hs]; rfl
  unfold generatorTurn
  dsimp only
  split
  next hs =>
    rw [hfree hs rfl]
    split
    · exact leads_setGenerator s s.generator .ended
    · exact leads_runRound s s.generator _
  next due hs =>
    split
    next =>
      rw [hfree hs rfl]
      exact leads_runRound s s.generator due
    next =>
      split
      next =>
        rw [hfree hs rfl]
        exact .after Step.dropTimers.steps (leads_setGenerator _ s.generator .ended)
      next => exact .refl _ _
  next r next hs =>
    have hh : s.hand .generator = .ofStage r.stage := by
      show s.generator.stage.hand = _
      rw [hs]
      rfl
    exact hh ▸ .after (proceedRound_steps _ _ _ r) (leads_afterRound _ _ _ _)
  next => exact .refl _ _
  next => exact .refl _ _

/-! ### The operator -/

theorem leads_setOperator (s : Session) (o : Operator) :
    Leads quits .operator o.hand s { s with operator := o } := by
  constructor
  · exact .refl _ _
  · intro u hu
    cases u with
    | operator => exact absurd rfl hu
    | _ => rfl

theorem leads_afterOwnRound (s : Session) (left failures : Nat) (r : RoundStage) :
    Leads quits .operator r.hand s (s.afterOwnRound left failures r) := by
  induction left generalizing s failures r with
  | zero =>
    cases r with
    | ended more => exact leads_setOperator s (.generated (some (failures + more)))
    | crashed => exact leads_setOperator s (.generated none)
    | under r => exact leads_setOperator s (.generating r 0 failures)
  | succ left ih =>
    cases r with
    | ended more =>
      have hbegin := @beginRound_steps quits s.toPipeline .operator s.generator
      obtain ⟨p, generator, r, hr⟩ : ∃ p generator r,
          s.beginRound .operator s.generator = (p, generator, r) := ⟨_, _, _, rfl⟩
      have hstage : generator.stage = s.generator.stage := by
        rw [show generator = (s.beginRound .operator s.generator).2.1 by rw [hr]]
        rfl
      have hsame (u : Task) : hand { s with toPipeline := p, generator } u = s.hand u := by
        cases u with
        | generator => exact congrArg GeneratorStage.hand hstage
        | _ => rfl
      rw [hr] at hbegin
      have hrest := ih { s with toPipeline := p, generator } (failures + more) r
      unfold afterOwnRound
      dsimp only
      rw [hr]
      exact ⟨hbegin.trans hrest.steps, fun u hu => (hrest.others u hu).trans (hsame u)⟩
    | crashed => exact leads_setOperator s (.generated none)
    | under r => exact leads_setOperator s (.generating r (left + 1) failures)

theorem leads_operatorTurn (s : Session) :
    Leads quits .operator (s.hand .operator) s s.operatorTurn := by
  unfold operatorTurn
  split
  next stage ho =>
    have hh : s.hand .operator = .ofStage stage := by simp [hand, ho, Operator.hand]
    exact hh ▸ .after (proceed_steps _ _ stage) (leads_setOperator _ (.calling _))
  next r left failures ho =>
    have hh : s.hand .operator = .ofStage r.stage := by simp [hand, ho, Operator.hand]
    exact hh ▸ .after (proceedRound_steps _ _ _ r) (leads_afterOwnRound _ left failures _)
  next => exact .refl _ _

/-! ### Moves -/

/-- The turn of a task is a run of steps of its own. -/
theorem leads_turn (s : Session) (t : Task) : Leads (s.Quits t) t (s.hand t) s (s.turn t) := by
  cases t with
  | operator => exact leads_operatorTurn s
  | caller id => exact leads_callerTurn s id
  | worker w => exact ⟨workerTurn_steps _ w, fun _ _ => rfl⟩
  | flusher id => exact leads_flusherTurn s id
  | generator => exact leads_generatorTurn s

theorem hand_operator_of_isFree (free : s.operator.isFree) : s.hand .operator = .free := by
  cases ho : s.operator <;> simp_all [hand, Operator.hand, Operator.isFree]

/-- The operator acts on the pipeline, and all tasks keep what they have in hand. -/
theorem leads_of_hand_eq (free : s.hand .operator = .free)
    (hs : Steps quits .operator s.toPipeline .free s'.toPipeline .free) (hh : s'.hand = s.hand) :
    Leads quits .operator .free s s' :=
  ⟨by rw [hh, free]; exact hs, fun u _ => congrFun hh u⟩

/-- One more task with nothing in hand changes nothing for the others. -/
theorem hand_append {β : Type} {f : β → Hand} {x : β} (hx : f x = .free) (l : List β) (i : Nat) :
    ((l ++ [x])[i]?.map f).getD .free = (l[i]?.map f).getD .free := by
  rcases Nat.lt_or_ge i l.length with hi | hi
  · rw [List.getElem?_append_left hi]
  · rw [List.getElem?_append_right hi, List.getElem?_eq_none hi]
    cases i - l.length <;> simp [hx]

theorem hand_appendCaller (s : Session) (p : Pipeline) (c : Call) :
    hand { s with toPipeline := p, callers := s.callers ++ [.fresh c] } = s.hand := by
  funext u
  cases u with
  | caller i => exact hand_append rfl s.callers i
  | _ => rfl

theorem hand_join (s : Session) (id : Nat) : (s.join id).1.hand = s.hand := by
  unfold join
  split
  next r hc =>
    obtain ⟨hid, _⟩ := List.getElem?_eq_some_iff.mp hc
    funext u
    cases u with
    | caller i =>
      by_cases hi : i = id
      · subst hi
        simp only [hand, List.getElem?_set_self hid, hc, Option.map_some, Option.getD_some]
        rfl
      · simp [hand, List.getElem?_set_ne (Ne.symm hi)]
    | _ => rfl
  next => rfl

theorem hand_cancelFlusher (s : Session) : s.cancelFlusher.hand = s.hand := by
  unfold cancelFlusher
  split
  next => rfl
  next id _ =>
    funext u
    cases u with
    | flusher i =>
      by_cases hi : id = i
      · subst hi
        cases hf : s.flushers[id]? <;> simp [hand, hf]
      · simp [hand, hi]
    | _ => rfl

@[simp] theorem line_cancelFlusher (s : Session) : s.cancelFlusher.line = s.line := by
  unfold cancelFlusher
  split <;> rfl

@[simp] theorem timers_cancelFlusher (s : Session) : s.cancelFlusher.timers = s.timers := by
  unfold cancelFlusher
  split <;> rfl

theorem cancelFlusher_steps (s : Session) (h : Hand) :
    Steps False .operator s.toPipeline h s.cancelFlusher.toPipeline h := by
  unfold cancelFlusher
  split
  next => exact .refl _ _
  next => exact (Step.wake _).steps

theorem hand_startFlushing (s : Session) (url : String) : (s.startFlushing url).hand = s.hand := by
  rw [← hand_cancelFlusher s]
  generalize hs : s.cancelFlusher = s'
  unfold startFlushing
  rw [hs]
  funext u
  cases u with
  | flusher i => exact hand_append rfl s'.flushers i
  | _ => rfl

theorem startFlushing_steps (s : Session) (url : String) :
    Steps False .operator s.toPipeline .free (s.startFlushing url).toPipeline .free :=
  (cancelFlusher_steps s .free).tail (.wake _)

theorem hand_setGenerator_of_eq {stage : GeneratorStage} (p : Pipeline) (g : Generator)
    (hs : stage.hand = s.generator.stage.hand) :
    hand ({ s with toPipeline := p }.setGenerator g stage) = s.hand := by
  funext u
  cases u with
  | generator => exact hs
  | _ => rfl

/-- The beginning of an operation is a run of steps of the operator. -/
theorem leads_start (s : Session) (op : Operation) (free : s.operator.isFree) :
    Leads False .operator .free s (s.start op).1 := by
  have hfree := hand_operator_of_isFree free
  have hsame {s' : Session} (hs : Steps False .operator s.toPipeline .free s'.toPipeline .free)
      (hh : s'.hand = s.hand) : Leads False .operator .free s s' := leads_of_hand_eq hfree hs hh
  have hself : Leads False .operator .free s s := hsame (.refl _ _) rfl
  cases op with
  | call c => exact .after (begin_steps _ _ c) (leads_setOperator _ (.calling _))
  | background c => exact hsame (Step.wake _).steps (hand_appendCaller s _ c)
  | join id =>
    refine hsame ?_ (hand_join s id)
    show Steps False _ _ _ (s.join id).1.toPipeline _
    unfold join
    split <;> exact .refl _ _
  | startWorkers workers capacity => exact hsame (Step.start workers capacity).steps rfl
  | adjustHistory k n => exact hsame (Step.adjust k n).steps rfl
  | setCounter key x => exact hsame (Step.count _).steps rfl
  | addCounter key x => exact hsame (Step.count _).steps rfl
  | increment key => exact hsame (Step.count _).steps rfl
  | decrement key => exact hsame (Step.count _).steps rfl
  | deleteCounter key => exact hsame (Step.count _).steps rfl
  | adjustKpiHistory n => exact hsame (Step.adjustReports n).steps rfl
  | startFlushing url => exact hsame (startFlushing_steps s url) (hand_startFlushing s url)
  | stopFlushing =>
    exact hsame (cancelFlusher_steps s .free) (hand_cancelFlusher s)
  | identify i => exact hsame (Step.identify _).steps rfl
  | setClock now => exact hsame (Step.moveClock _).steps rfl
  | advanceClock millis => exact hsame (Step.moveClock _).steps rfl
  | posts => exact hsame (Step.shown s.journal.showPosts rfl).steps rfl
  | hooks => exact hsame (Step.shown s.journal.showHooks rfl).steps rfl
  | logs => exact hsame (Step.shown s.journal.showLogs rfl).steps rfl
  | generate rounds =>
    show Leads False _ _ s (s.enterRounds rounds)
    unfold enterRounds
    split
    · exact leads_afterOwnRound s rounds 0 (.ended 0)
    · exact hself
  | startGenerator period =>
    show Leads False _ _ s (s.startGenerator period)
    unfold startGenerator
    split
    next hs => exact hsame (Step.wake _).steps (hand_setGenerator_of_eq _ _ (by rw [hs]; rfl))
    next => exact hself
  | stopGenerator =>
    show Leads False _ _ s s.stopGenerator
    unfold stopGenerator
    have hh : hand (s.setGenerator { s.generator with cancelled := true } s.generator.stage)
        = s.hand := hand_setGenerator_of_eq s.toPipeline _ rfl
    dsimp only
    split
    · exact hsame (Step.wake _).steps hh
    · exact hsame (.refl _ _) hh
  | _ => exact hself

/-! ### Flushes that are dropped -/

theorem flushes_ofStage {stage : Stage} : (Hand.ofStage stage).flushes = stage.flushes := by
  cases stage <;> rfl

theorem leads_dropOwn {stage : Stage} (calling : s.operator = .calling stage)
    (flushes : stage.flushes) :
    Leads True .operator (s.hand .operator) s
      { s with toPipeline := s.withdraw .operator, operator := .free } := by
  have hh : s.hand .operator = .ofStage stage := by simp [hand, calling, Operator.hand]
  exact .after (Step.withdraw (.inr (by rw [hh, flushes_ofStage, flushes])) trivial).steps
    (leads_setOperator _ .free)

theorem leads_drop {id : Nat} {stage : Stage} (calling : s.callers[id]? = some (.under stage))
    (flushes : stage.flushes) :
    Leads True (.caller id) (s.hand (.caller id)) s
      { s with toPipeline := s.withdraw (.caller id), callers := s.callers.set id .answered } := by
  obtain ⟨hid, _⟩ := List.getElem?_eq_some_iff.mp calling
  have hh : s.hand (.caller id) = .ofStage stage := by simp [hand, calling, Caller.hand]
  exact .after (Step.withdraw (.inr (by rw [hh, flushes_ofStage, flushes])) trivial).steps
    (leads_setCaller (by exact hid) .answered)

/-- Whatever the operator has in hand, it can stop flushing. -/
theorem leads_stopFlushing (s : Session) :
    Leads False .operator (s.hand .operator) s s.stopFlushing :=
  ⟨(congrFun (hand_cancelFlusher s) .operator).symm ▸ cancelFlusher_steps s _,
    fun u _ => congrFun (hand_cancelFlusher s) u⟩

theorem toPipeline_collect (s : Session) : s.collect.1.toPipeline = s.toPipeline := by
  unfold collect
  split <;> rfl

theorem hand_collect (s : Session) : s.collect.1.hand = s.hand := by
  unfold collect
  split <;> funext u <;> cases u <;> simp_all [hand, Operator.hand, Hand.ofStage]

end Session

end Uplink
