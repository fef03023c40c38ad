import Uplink.Proofs.Kpi.Line
import Uplink.Proofs.Session.Load
import Uplink.Proofs.Session.Timers
/-!
Settling.  The turn of a task leaves less work than it finds, so a session that settles comes to
where no task can go on.
-/
namespace Uplink

/-- A round that the operator waits for is a small one. -/
def Operator.Small : Operator → Prop
  | .generating r _ _ => r.Small
  | _ => True

/-- A generator under way has a period, and a round that it waits for is a small one. -/
def Generator.Paced (g : Generator) : Prop :=
  match g.stage with
  | .waiting _ => 0 < g.period.nanos
  | .pushing r _ => 0 < g.period.nanos ∧ r.Small
  | _ => True

theorem Generator.Paced.congr {g g' : Generator} (hstage : g'.stage = g.stage)
    (hperiod : g'.period = g.period) (hg : g.Paced) : g'.Paced := by
  unfold Paced at *
  rwa [hstage, hperiod]

namespace Session

open Pipeline

structure Steady (s : Session) : Prop where
  operator : s.operator.Small
  generator : s.generator.Paced

variable {s s' : Session} {t u : Task} {W : Task → Nat}

/-! ### Weights -/

theorem work_eq (s : Session) : s.work = s.load s.weight := by
  have hfoldl (tasks : List Task) (n : Nat) :
      tasks.foldl (fun n t => n + s.weight t) n = n + (tasks.map s.weight).sum := by
    induction tasks generalizing n with
    | nil => rfl
    | cons t tasks ih =>
      rw [List.foldl_cons, ih, List.map_cons, List.sum_cons, Nat.add_assoc]
  unfold work load
  rw [hfoldl, Nat.zero_add]

theorem weight_pos (s : Session) (t : Task) : 0 < s.weight t := by
  unfold weight
  split
  · split <;> omega
  all_goals omega

theorem weight_worker (s : Session) (w : Nat) : s.weight (.worker w) = 1 := rfl

/-- Only the operator and the generator weigh more or less as they go on. -/
theorem weight_le (ho : s'.weight .operator ≤ s.weight .operator)
    (hg : s'.weight .generator ≤ s.weight .generator) (u : Task) : s'.weight u ≤ s.weight u := by
  cases u with
  | operator => exact ho
  | generator => exact hg
  | _ => exact Nat.le_refl _

theorem weight_operator (h : s'.operator = s.operator) :
    s'.weight .operator = s.weight .operator := by
  unfold weight
  rw [h]

theorem weight_generator (hstage : s'.generator.stage = s.generator.stage)
    (hnow : s'.now = s.now) : s'.weight .generator = s.weight .generator := by
  unfold weight roundsDue roundsFrom
  rw [hstage, hnow]

theorem flushes_eq_false_of_delivers {h : Hand} (hd : h.delivers) : h.flushes = false := by
  cases h with
  | free => rfl
  | waiting stage =>
    cases stage with
    | delivering q => rfl
    | _ => exact absurd hd (by simp [Hand.delivers])

/-- Who stands in line is no round of synthetic records. -/
theorem Steady.weight_le (hs : s.Steady) (lined : s.toPipeline.Lined s.hand) :
    ∀ u ∈ s.line, s.weight u ≤ 8 := by
  intro u hu
  have hflushes := (lined.mem_line u).mp hu
  cases u with
  | operator =>
    cases ho : s.operator with
    | generating r left failures =>
      have hsmall : r.Small := by
        have := hs.operator
        rwa [ho] at this
      have hh : s.hand .operator = .ofStage r.stage := by simp [hand, ho, Operator.hand]
      simp [hh, flushes_eq_false_of_delivers hsmall.delivers] at hflushes
    | _ => simp [weight, ho]
  | generator =>
    have hh : s.hand .generator = s.generator.stage.hand := rfl
    cases hg : s.generator.stage with
    | pushing r next =>
      have hsmall : r.Small := by
        have := hs.generator
        unfold Generator.Paced at this
        rw [hg] at this
        exact this.2
      have hh : s.hand .generator = .ofStage r.stage := by rw [hh, hg]; rfl
      simp [hh, flushes_eq_false_of_delivers hsmall.delivers] at hflushes
    | _ => simp [hh, hg, GeneratorStage.hand, Hand.flushes, Hand.isFlushing] at hflushes
  | worker w => exact Nat.le_of_lt (by rw [weight_worker]; decide)
  | _ => exact Nat.le_refl 8

/-! ### Turns -/

/-- A task takes a session from `s` to `s'` and leaves less to be done than its turn weighed. -/
structure Spends (t : Task) (s s' : Session) : Prop where
  steady : s'.Steady
  weight : ∀ u, s'.weight u ≤ s.weight u
  load : s'.load s'.weight < s.load s.weight + s.weight t

structure Within (W : Task → Nat) (n : Nat) (s s' : Session) : Prop where
  operator : s'.operator = s.operator
  generator : s'.generator = s.generator
  load : s'.load W ≤ n

theorem Within.spends {n : Nat} (h : Within s.weight n s s') (hs : s.Steady)
    (hnow : s'.now = s.now) (hn : n < s.load s.weight + s.weight t) : Spends t s s' := by
  have hweight := Session.weight_le (Nat.le_of_eq (weight_operator h.operator))
    (Nat.le_of_eq (weight_generator (h.generator ▸ rfl) hnow))
  exact ⟨⟨h.operator ▸ hs.operator, h.generator ▸ hs.generator⟩, hweight,
    Nat.lt_of_le_of_lt (Nat.le_trans (load_mono hweight _) h.load) hn⟩

theorem Spends.refl (hs : s.Steady) (t : Task) : Spends t s s :=
  Within.spends ⟨rfl, rfl, Nat.le_refl _⟩ hs rfl (Nat.lt_add_of_pos_right (weight_pos s t))

theorem workerTurn_spends (hs : s.Steady) (w : Nat) :
    Spends (.worker w) s { s with toPipeline := s.workerTurn w } :=
  Within.spends ⟨rfl, rfl, load_workerTurn_le (weight_worker s) s.toPipeline w⟩ hs
    (@workerTurn_steps False s.toPipeline w).now_eq (Nat.lt_succ_self _)

theorem callerTurn_within (hline : ∀ u ∈ s.line, s.weight u ≤ 8) (id : Nat) :
    Within s.weight (s.load s.weight + 7) s (s.callerTurn id) := by
  unfold callerTurn
  dsimp only
  split
  next c hc =>
    exact ⟨rfl, rfl, load_begin_le (t := .caller id) (weight_worker s) (Nat.le_refl 8)
      s.toPipeline c⟩
  next stage hc =>
    exact ⟨rfl, rfl, Nat.le_trans (load_proceed_le hline _ stage)
      (Nat.add_le_add_left (by decide) _)⟩
  next => exact ⟨rfl, rfl, Nat.le_add_right _ 7⟩

theorem callerTurn_spends (hs : s.Steady) (hline : ∀ u ∈ s.line, s.weight u ≤ 8) (id : Nat) :
    Spends (.caller id) s (s.callerTurn id) :=
  (callerTurn_within hline id).spends hs (@leads_callerTurn False s id).steps.now_eq
    (Nat.lt_succ_self _)

/-! ### Flushers -/

theorem sleep_within {n : Nat} (h : Within W n s s') (id : Nat) (f : Flusher) :
    Within W n s (s'.sleep id f) := by
  unfold sleep
  split <;> exact ⟨h.operator, h.generator, h.load⟩

theorem afterFlush_within {n : Nat} (s : Session) (id : Nat) (f : Flusher)
    {r : Pipeline × Stage} (hn : r.1.load W ≤ n) : Within W n s (s.afterFlush id f r) := by
  unfold afterFlush
  dsimp only
  split
  · exact sleep_within (⟨rfl, rfl, hn⟩ : Within W n s { s with toPipeline := r.1 }) id _
  all_goals exact ⟨rfl, rfl, hn⟩

theorem pursue_within (hline : ∀ u ∈ s.line, s.weight u ≤ 8) (id : Nat) (f : Flusher) :
    Within s.weight (s.load s.weight + 7) s (s.pursue id f) := by
  have hproceed (stage : Stage) :
      (s.proceed (.flusher id) stage).1.load s.weight ≤ s.load s.weight + 7 :=
    Nat.le_trans (load_proceed_le hline _ stage) (Nat.add_le_add_left (by decide) _)
  have hself : Within s.weight (s.load s.weight + 7) s s := ⟨rfl, rfl, Nat.le_add_right _ 7⟩
  unfold pursue
  dsimp only
  split
  next => exact sleep_within hself id _
  next due hstage =>
    split
    next =>
      exact afterFlush_within s id _
        (load_flush_le (t := .flusher id) (Nat.le_refl 8) s.toPipeline f.url)
    next => exact hself
  next url hstage => exact afterFlush_within s id f (hproceed _)
  next q hstage => exact afterFlush_within s id f (hproceed _)
  next => exact hself

theorem quitFlusher_within {n : Nat} (id : Nat) (ho : s'.operator = s.operator)
    (hg : s'.generator = s.generator) (hn : (s'.withdraw (.flusher id)).load W ≤ n) :
    Within W n s (s'.quitFlusher id) := ⟨ho, hg, hn⟩

/-- A flusher that goes on with a flush sets at most a timer in addition. -/
theorem toPipeline_afterFlush (s : Session) (id : Nat) (f : Flusher) (r : Pipeline × Stage) :
    ∃ timers, (s.afterFlush id f r).toPipeline = { r.1 with timers } := by
  unfold afterFlush
  dsimp only
  split
  next =>
    unfold sleep
    split <;> exact ⟨_, rfl⟩
  all_goals exact ⟨_, rfl⟩

theorem afterFlush_quit_within {n : Nat} (s : Session) (id : Nat) (f : Flusher)
    {r : Pipeline × Stage} (hn : (r.1.withdraw (.flusher id)).load W ≤ n) :
    Within W n s ((s.afterFlush id f r).quitFlusher id) := by
  have hafter := afterFlush_within (W := W) s id f (Nat.le_refl (r.1.load W))
  obtain ⟨timers, heq⟩ := toPipeline_afterFlush s id f r
  refine quitFlusher_within id hafter.operator hafter.generator ?_
  have hload : (withdraw { r.1 with timers } (.flusher id)).load W
      = (r.1.withdraw (.flusher id)).load W := by
    unfold withdraw leave
    by_cases turn : r.1.line.head? = some (.flusher id)
    · rw [if_pos (by exact turn), if_pos (by exact turn)]
      rfl
    · rw [if_neg (by exact turn), if_neg (by exact turn)]
      rfl
  exact heq ▸ Nat.le_trans (Nat.le_of_eq hload) hn

/-- A flusher that goes on and then ends leaves no more to be done than one that goes on. -/
theorem pursue_quit_within (hline : ∀ u ∈ s.line, s.weight u ≤ 8) {id : Nat} {f : Flusher}
    (absent : f.stage.hand = .free → .flusher id ∉ s.line) :
    Within s.weight (s.load s.weight + 7) s ((s.pursue id f).quitFlusher id) := by
  have hwithdraw {p : Pipeline} (hp : p.load s.weight ≤ s.load s.weight + 1)
      (hsub : ∀ u ∈ p.line, s.weight u ≤ 8) :
      (p.withdraw (.flusher id)).load s.weight ≤ s.load s.weight + 7 := by
    have := load_withdraw_le hsub (.flusher id)
    omega
  have hself : Within s.weight (s.load s.weight + 7) s (s.quitFlusher id) :=
    quitFlusher_within id rfl rfl (hwithdraw (Nat.le_succ _) hline)
  have hproceed (stage : Stage) :
      ((s.proceed (.flusher id) stage).1.withdraw (.flusher id)).load s.weight
        ≤ s.load s.weight + 7 :=
    hwithdraw (load_proceed_le hline _ stage) fun u hu =>
      ((@proceed_steps False _ _ stage).mem_line hu).elim (hline u) fun own => own ▸ Nat.le_refl 8
  unfold pursue
  dsimp only
  split
  next =>
    unfold sleep
    split <;> exact quitFlusher_within id rfl rfl (hwithdraw (Nat.le_succ _) hline)
  next due hstage =>
    split
    next =>
      exact afterFlush_quit_within s id _
        (load_flush_withdraw_le (Nat.le_refl 8) (absent (by rw [hstage]; rfl)) f.url)
    next => exact hself
  next => exact afterFlush_quit_within s id f (hproceed _)
  next => exact afterFlush_quit_within s id f (hproceed _)
  next => exact hself

theorem flusherTurn_within (hline : ∀ u ∈ s.line, s.weight u ≤ 8) (id : Nat)
    (absent : s.hand (.flusher id) = .free → .flusher id ∉ s.line) :
    Within s.weight (s.load s.weight + 7) s (s.flusherTurn id) := by
  unfold flusherTurn
  split
  next => exact ⟨rfl, rfl, Nat.le_add_right _ 7⟩
  next f hf =>
    have hhand : s.hand (.flusher id) = f.stage.hand := by simp [hand, hf]
    split
    next =>
      split
      next => exact pursue_quit_within hline (hhand ▸ absent)
      next =>
        have hload := load_withdraw_le hline (.flusher id)
        exact quitFlusher_within id rfl rfl (by omega)
    next => exact pursue_within hline id f

theorem flusherTurn_spends (hs : s.Steady) (lined : s.toPipeline.Lined s.hand)
    (hline : ∀ u ∈ s.line, s.weight u ≤ 8) (id : Nat) :
    Spends (.flusher id) s (s.flusherTurn id) :=
  (flusherTurn_within hline id lined.not_mem_line).spends hs
    (leads_flusherTurn s id).steps.now_eq (Nat.lt_succ_self _)

/-! ### The generator -/

/-- The round after one that is due is due for fewer rounds. -/
theorem roundsFrom_nextRound_lt (s : Session) {due period : Nat} (hdue : due ≤ s.now)
    (hperiod : 0 < period) : s.roundsFrom (nextRound s.now due period) < s.roundsFrom due := by
  unfold roundsFrom nextRound
  split <;> split <;> (try split) <;> omega

/-- A round adds less to the load than the generator weighs less afterwards. -/
theorem generator_spends {p : Pipeline} (hs : s.Steady) (ho : s'.operator = s.operator)
    (hg : s'.generator.Paced) (hrounds : s'.roundsDue ≤ s.roundsDue)
    (hp : p.load s.weight ≤ s.load s.weight + 12)
    (hload : s'.load s'.weight ≤ p.load s'.weight + 16 * s.roundsDue) : Spends .generator s s' := by
  have hgenerator (s : Session) : s.weight .generator = 16 * (s.roundsDue + 1) := rfl
  have hweight := Session.weight_le (Nat.le_of_eq (weight_operator ho))
    (Nat.mul_le_mul_left 16 (Nat.succ_le_succ hrounds))
  have hmono := load_mono hweight p
  refine ⟨⟨ho ▸ hs.operator, hg⟩, hweight, ?_⟩
  rw [hgenerator]
  omega

theorem afterRound_spends {p : Pipeline} {g : Generator} {next : Nat} {r : RoundStage}
    (hs : s.Steady) (hnow : p.now = s.now) (hp : p.load s.weight ≤ s.load s.weight + 12)
    (hg : 0 < g.period.nanos) (hr : r.Small) (hnext : s.roundsFrom next < s.roundsDue) :
    Spends .generator s (afterRound { s with toPipeline := p } g next r) := by
  have hfrom {s' : Session} (h : s'.now = p.now) : s'.roundsFrom next = s.roundsFrom next := by
    unfold roundsFrom
    rw [h, hnow]
  cases r with
  | ended failures =>
    show Spends .generator s (awaitRound { s with toPipeline := p } g next)
    unfold awaitRound
    dsimp only
    split
    next =>
      refine generator_spends hs rfl hg (Nat.le_of_lt ?_) hp ?_
      · exact Nat.lt_of_le_of_lt (Nat.le_of_eq (hfrom rfl)) hnext
      · refine Nat.le_trans (Nat.le_of_eq (load_resumeFirst _ p .generator)) ?_
        refine Nat.add_le_add_left (Nat.mul_le_mul_left 16 (Nat.succ_le_of_lt ?_)) _
        exact Nat.lt_of_le_of_lt (Nat.le_of_eq (hfrom rfl)) hnext
    next =>
      split
      next =>
        exact generator_spends hs rfl trivial (Nat.zero_le _) hp (Nat.le_add_right _ _)
      next =>
        refine generator_spends hs rfl hg (Nat.le_of_lt ?_) hp (Nat.le_add_right _ _)
        exact Nat.lt_of_le_of_lt (Nat.le_of_eq (hfrom rfl)) hnext
  | crashed => exact generator_spends hs rfl trivial (Nat.zero_le _) hp (Nat.le_add_right _ _)
  | under r =>
    refine generator_spends hs rfl ⟨hg, hr⟩ ?_ hp (Nat.le_add_right _ _)
    exact Nat.succ_le_of_lt (Nat.lt_of_le_of_lt (Nat.le_of_eq (hfrom rfl)) hnext)

theorem runRound_spends (hs : s.Steady) (hperiod : 0 < s.generator.period.nanos) {due : Nat}
    (hdue : due ≤ s.now) (hrounds : s.roundsDue = s.roundsFrom due) :
    Spends .generator s (s.runRound s.generator due) := by
  obtain ⟨hload, hsmall⟩ :=
    beginRound_bounded (weight_worker s) s.toPipeline .generator s.generator
  have hspare := s.spare_le
  have hp : (s.beginRound .generator s.generator).1.load s.weight ≤ s.load s.weight + 12 := by
    omega
  refine afterRound_spends hs (@beginRound_steps False s.toPipeline .generator s.generator).now_eq
    hp hperiod hsmall ?_
  rw [hrounds]
  exact roundsFrom_nextRound_lt s hdue (Duration.millis_pos hperiod)

theorem generatorTurn_spends (hs : s.Steady) : Spends .generator s s.generatorTurn := by
  have hpaced := hs.generator
  have hended {p : Pipeline} (hload : ∀ W, p.load W = s.load W) :
      Spends .generator s (setGenerator { s with toPipeline := p } s.generator .ended) :=
    generator_spends hs rfl trivial (Nat.zero_le _) (Nat.le_add_right _ 12)
      (Nat.le_trans (Nat.le_of_eq (hload _)) (Nat.le_add_right _ _))
  unfold Generator.Paced at hpaced
  unfold generatorTurn
  dsimp only
  split
  next hstage =>
    split
    next => exact hended fun _ => rfl
    next hc =>
      refine runRound_spends hs (by simp at hc; omega) (Nat.le_refl _) ?_
      unfold roundsDue roundsFrom
      rw [hstage]
      dsimp only
      split <;> omega
  next due hstage =>
    rw [hstage] at hpaced
    split
    next hdue =>
      have hle : due ≤ s.now := of_decide_eq_true (Bool.and_eq_true_iff.mp hdue).1
      exact runRound_spends hs hpaced hle (by rw [roundsDue, hstage])
    next =>
      split
      next => exact hended fun _ => rfl
      next => exact .refl hs _
  next r next hstage =>
    rw [hstage] at hpaced
    obtain ⟨hload, hsmall⟩ := proceedRound_bounded (weight_worker s) s.toPipeline .generator
      s.generator.config hpaced.2
    have hspare := s.spare_le
    have hp : (s.proceedRound .generator s.generator.config r).1.load s.weight
        ≤ s.load s.weight + 12 := by omega
    refine afterRound_spends hs (@proceedRound_steps False s.toPipeline .generator _ r).now_eq
      hp hpaced.1 hsmall ?_
    rw [roundsDue, hstage]
    exact Nat.lt_succ_self _
  next => exact .refl hs _
  next => exact .refl hs _

/-! ### The operator -/

/-- What the rounds of the operator leave, with so many more to come. -/
structure Generates (W : Task → Nat) (left : Nat) (s s' : Session) : Prop where
  operator : s'.operator.Small
  stage : s'.generator.stage = s.generator.stage
  period : s'.generator.period = s.generator.period
  weight : s'.weight .operator ≤ 16 * (left + 1)
  load : s'.load W + s'.spare ≤ s.load W + s.spare + 10 * left

theorem afterOwnRound_generates (hworker : ∀ w, W (.worker w) = 1) (left failures : Nat)
    (s : Session) {r : RoundStage} (hr : r.Small) :
    Generates W left s (s.afterOwnRound left failures r) := by
  have hstop {left : Nat} {s : Session} {o : Operator} (ho : o.Small)
      (hweight : weight { s with operator := o } .operator ≤ 16 * (left + 1)) :
      Generates W left s { s with operator := o } :=
    ⟨ho, rfl, rfl, hweight, Nat.le_add_right _ _⟩
  have hgenerated {left : Nat} {s : Session} (failures : Option Nat) :
      Generates W left s { s with operator := .generated failures } :=
    hstop trivial (by show 8 ≤ _; omega)
  induction left generalizing s failures r with
  | zero =>
    cases r with
    | ended more => exact hgenerated _
    | crashed => exact hgenerated _
    | under r => exact hstop hr (Nat.le_refl _)
  | succ left ih =>
    cases r with
    | ended more =>
      obtain ⟨hload, hsmall⟩ := beginRound_bounded hworker s.toPipeline .operator s.generator
      have hrest := ih (failures + more) { s with
        toPipeline := (s.beginRound .operator s.generator).1
        generator := (s.beginRound .operator s.generator).2.1 } hsmall
      have hbound := hrest.load
      dsimp only at hbound
      exact {
        operator := hrest.operator
        stage := hrest.stage
        period := hrest.period
        weight := Nat.le_trans hrest.weight (by omega)
        load := Nat.le_trans hbound (by omega) }
    | crashed => exact hgenerated _
    | under r => exact hstop hr (Nat.le_refl _)

theorem operatorTurn_spends (hs : s.Steady) (hline : ∀ u ∈ s.line, s.weight u ≤ 8) :
    Spends .operator s s.operatorTurn := by
  have hnow := (@leads_operatorTurn False s).steps.now_eq
  have hsmall := hs.operator
  unfold operatorTurn at hnow ⊢
  split at hnow
  next stage ho =>
    have hload := load_proceed_le hline .operator stage
    have hweight : s.weight .operator = 8 := by simp [weight, ho]
    have hle : ∀ u, weight { s with
        toPipeline := (s.proceed .operator stage).1
        operator := .calling (s.proceed .operator stage).2 } u ≤ s.weight u :=
      Session.weight_le (Nat.le_of_eq hweight.symm) (Nat.le_of_eq (weight_generator rfl hnow))
    refine ⟨⟨trivial, hs.generator⟩, hle, Nat.lt_of_le_of_lt (load_mono hle _) ?_⟩
    rw [hweight]
    exact Nat.lt_of_le_of_lt hload (Nat.add_lt_add_left (by decide) _)
  next r left failures ho =>
    rw [ho] at hsmall
    have hweight : s.weight .operator = 16 * (left + 1) := by simp [weight, ho]
    obtain ⟨hload, hround⟩ := proceedRound_bounded (weight_worker s) s.toPipeline .operator
      s.generator.config hsmall
    have hrest := afterOwnRound_generates (weight_worker s) left failures
      { s with toPipeline := (s.proceedRound .operator s.generator.config r).1 } hround
    have hspare := s.spare_le
    have hbound := hrest.load
    have hle := Session.weight_le (s := s) (hweight ▸ hrest.weight)
      (Nat.le_of_eq (weight_generator hrest.stage hnow))
    dsimp only at hbound hle ⊢
    refine ⟨⟨hrest.operator, hs.generator.congr hrest.stage hrest.period⟩, hle,
      Nat.lt_of_le_of_lt (load_mono hle _) ?_⟩
    rw [hweight]
    omega
  next => exact .refl hs _

/-! ### All tasks -/

/-- The turn of a task leaves less to be done than it weighed. -/
theorem turn_spends (hs : s.Steady) (lined : s.toPipeline.Lined s.hand) (t : Task) :
    Spends t s (s.turn t) := by
  have hline := hs.weight_le lined
  cases t with
  | operator => exact operatorTurn_spends hs hline
  | caller id => exact callerTurn_spends hs hline id
  | worker w => exact workerTurn_spends hs w
  | flusher id => exact flusherTurn_spends hs lined hline id
  | generator => exact generatorTurn_spends hs

/-! ### Moves -/

theorem Steady.congr (hs : s.Steady) (ho : s'.operator = s.operator)
    (hg : s'.generator = s.generator) : s'.Steady := ⟨ho ▸ hs.operator, hg ▸ hs.generator⟩

theorem Steady.start (hs : s.Steady) (op : Operation) : (s.start op).1.Steady := by
  have hcancel : s.cancelFlusher.Steady := by
    unfold cancelFlusher
    split <;> exact hs.congr rfl rfl
  cases op with
  | call c => exact ⟨trivial, hs.generator⟩
  | join id =>
    show (s.join id).1.Steady
    unfold join
    split <;> exact hs.congr rfl rfl
  | startFlushing url => exact hcancel.congr rfl rfl
  | stopFlushing => exact hcancel.congr rfl rfl
  | generate rounds =>
    show (s.enterRounds rounds).Steady
    unfold enterRounds
    split
    · have hrest := afterOwnRound_generates (r := .ended 0) (weight_worker s) rounds 0 s trivial
      exact ⟨hrest.operator, hs.generator.congr hrest.stage hrest.period⟩
    · exact hs
  | startGenerator period =>
    show (s.startGenerator period).Steady
    unfold startGenerator
    split
    · exact ⟨hs.operator, trivial⟩
    · exact hs
  | stopGenerator =>
    show s.stopGenerator.Steady
    unfold stopGenerator
    dsimp only
    split <;> exact ⟨hs.operator, hs.generator.congr rfl rfl⟩
  | _ => exact hs.congr rfl rfl

theorem Steady.collect (hs : s.Steady) : s.collect.1.Steady := by
  unfold Session.collect
  split
  · exact hs
  · exact ⟨trivial, hs.generator⟩
  · exact ⟨trivial, hs.generator⟩
  · exact ⟨trivial, hs.generator⟩
  · exact hs

/-- At every point of every session, the tasks stand in line as they should and rounds are small. -/
theorem Reachable.lined_steady (h : s.Reachable) : s.toPipeline.Lined s.hand ∧ s.Steady := by
  refine ⟨h.lined, h.by_moves (fun a settings identity clock receiver demo chance => ?_)
    fun s m h hs => ?_⟩
  · rw [create_eq]
    exact ⟨trivial, trivial⟩
  · have hm := s.moves_move m
    generalize s.move m = s' at hm ⊢
    cases hm with
    | stays => exact hs
    | start op _ => exact hs.start op
    | collect => exact hs.collect
    | turn t _ =>
      exact (turn_spends (s := { s with ready := s.ready.erase t }) (hs.congr rfl rfl)
        (invariant_lined.erase t h.lined) t).steady
    | elapse now => exact hs.congr rfl rfl
    | dropOwn => exact ⟨trivial, hs.generator⟩
    | drop => exact hs.congr rfl rfl
    | discard => exact hs.start .stopFlushing

/-- Each turn leaves less work than it finds. -/
theorem work_turn_lt (h : s.Reachable) {ready : List Task} (hready : s.ready = t :: ready) :
    ({ s with ready }.turn t).work < s.work := by
  obtain ⟨lined, steady⟩ := h.lined_steady
  have hload : load s.weight { s.toPipeline with ready } + s.weight t = s.load s.weight := by
    simp only [load, hready, List.map_cons, List.sum_cons]
    omega
  have herase : s.ready.erase t = ready := by simp [hready]
  have hspends := turn_spends (s := { s with ready }) (steady.congr rfl rfl)
    (herase ▸ invariant_lined.erase t lined) t
  rw [work_eq, work_eq, ← hload]
  exact hspends.load

theorem ready_turns {n : Nat} (h : s.Reachable) (hn : s.work ≤ n) : (s.turns n).ready = [] := by
  induction n generalizing s with
  | zero =>
    cases hready : s.ready with
    | nil => exact hready
    | cons t ready =>
      have hlt := work_turn_lt h hready
      omega
  | succ n ih =>
    unfold turns
    split
    next hready => exact hready
    next t ready hready =>
      have hm : s.move (.turn t) = { s with ready }.turn t := by simp [move, hready]
      have hlt := work_turn_lt h hready
      exact ih (h.comesTo (hm ▸ comesTo_move s (.turn t))) (by omega)

/-- A session that settles comes to where no task can go on. -/
theorem Reachable.ready_settle (h : s.Reachable) : s.settle.ready = [] :=
  ready_turns h (Nat.le_refl _)

end Session

end Uplink
