import Uplink.Proofs.Kpi.Deeds
import Uplink.Proofs.Kpi.Exclusion
/-!
Flushes that are not sent leave no trace.  Whatever keeps a flush from being sent, its own steps
leave the counters and the history of the reports as they are, and when it is over it neither has
the turn to flush nor waits for it.  So a run comes to the same counters and the same history
without the flushes that were not sent.
-/
namespace Uplink

theorem Hand.flushes_of_delivers {h : Hand} (hd : h.delivers) : h.flushes = false := by
  unfold delivers at hd
  split at hd
  next => rfl
  next => cases hd

namespace Pipeline

/-- What a flush changes if its report is sent. -/
def holdings (p : Pipeline) : Counters × Ring KpiReport := (p.kpi.counters, p.kpi.history)

/-- A call that comes so far leaves the counters and the history as they are, unless it ends with a
report that was sent. -/
def Withholds (p p' : Pipeline) (stage : Stage) : Prop :=
  (∀ r, stage.result? ≠ some (.flushed (.sent r))) → p'.holdings = p.holdings

variable {t : Task} {p p' : Pipeline} {stage : Stage}

theorem withholds_of_eq (h : p'.holdings = p.holdings) : Withholds p p' stage := fun _ => h

@[simp] theorem holdings_leave (p : Pipeline) (t : Task) (e : Event) :
    (p.leave t e).holdings = p.holdings := by
  unfold holdings
  rw [kpi_leave]
  split <;> rfl

theorem land_withholds (p : Pipeline) (t : Task) (q : Posting) :
    Withholds p (p.land t q).1 (.ended (p.land t q).2) := by
  unfold land
  split
  next => exact withholds_of_eq (holdings_leave p t _)
  next f hf =>
    split
    next => exact fun unsent => absurd rfl (unsent f.report)
    next => exact withholds_of_eq (holdings_leave _ t _)
    next => exact withholds_of_eq (holdings_leave p t _)

theorem depart_withholds (p : Pipeline) (t : Task) (url : String) :
    Withholds p (p.depart t url).1 (p.depart t url).2 := by
  unfold depart
  split
  next => exact withholds_of_eq (holdings_leave p t _)
  next f hf =>
    dsimp only
    split
    next => exact fun unsent => land_withholds _ t _ unsent
    next => exact withholds_of_eq rfl

theorem flush_withholds (p : Pipeline) (t : Task) (url : String) :
    Withholds p (p.flush t url).1 (p.flush t url).2 := by
  unfold flush
  dsimp only
  split
  · exact depart_withholds { p with line := p.line ++ [t] } t url
  · exact withholds_of_eq rfl

theorem begin_flush_withholds (p : Pipeline) (t : Task) (url : String) :
    Withholds p (p.begin t (.flush url)).1 (p.begin t (.flush url)).2 :=
  flush_withholds (p.note (.called t (.flush url))) t url

/-- A flush that is taken up again, from where it waited. -/
theorem proceed_withholds (p : Pipeline) (t : Task) (flushes : (Hand.waiting stage).flushes) :
    Withholds p (p.proceed t stage).1 (p.proceed t stage).2 := by
  cases stage with
  | queueing url =>
    unfold proceed
    dsimp only
    split
    · exact depart_withholds p t url
    · exact withholds_of_eq rfl
  | flushing q =>
    unfold proceed
    dsimp only
    split
    · exact land_withholds p t q
    · exact withholds_of_eq rfl
  | _ => simp [Hand.flushes, Hand.isFlushing] at flushes

end Pipeline

namespace Session

open Pipeline Aggregator

variable {s s' : Session} {t : Task} {m : Move} {id : Nat} {f : Flusher} {stage : Stage}

/-- A task leaves the counters and the history as they are, unless it adds to its results that a
report was sent. -/
def Withheld (t : Task) (s s' : Session) : Prop :=
  (∀ r, .flushed (.sent r) ∉ Journal.fresh (s'.results t) (s.results t).length) →
    s'.holdings = s.holdings

theorem withheld_of_eq (h : s'.holdings = s.holdings) : Withheld t s s' := fun _ => h

/-- The call of a task that was not over before. -/
theorem withheld_of_stage (h : Withholds s.toPipeline s'.toPipeline stage)
    (hbefore : s.results t = []) (hafter : s'.results t = stage.result?.toList) :
    Withheld t s s' := by
  intro unsent
  refine h fun r hr => unsent r ?_
  rw [hafter, hbefore, hr, List.length_nil, Journal.fresh_zero]
  exact List.mem_singleton.mpr rfl

theorem exists_of_flushes (flushes : (Hand.ofStage stage).flushes) :
    stage.result? = none ∧ (Hand.waiting stage).flushes := by
  cases stage with
  | ended r => simp [Hand.ofStage, Hand.flushes, Hand.isFlushing] at flushes
  | _ => exact ⟨rfl, flushes⟩

/-! ### Turns -/

theorem callerTurn_withheld (hflush : (∃ url, s.callers[id]? = some (.fresh (.flush url)))
    ∨ (s.hand (.caller id)).flushes) : Withheld (.caller id) s (s.callerTurn id) := by
  unfold callerTurn
  dsimp only
  split
  next c hc =>
    obtain ⟨hid, -⟩ := List.getElem?_eq_some_iff.mp hc
    rcases hflush with ⟨url, hurl⟩ | flushes
    · obtain rfl : c = .flush url := Caller.fresh.inj (Option.some_inj.mp (hc.symm.trans hurl))
      exact withheld_of_stage (begin_flush_withholds _ _ url)
        (by simp [results, hc, Caller.results])
        (by simp [results, hid, Caller.results])
    · simp [hand, hc, Caller.hand, Hand.flushes, Hand.isFlushing] at flushes
  next stage hc =>
    obtain ⟨hid, -⟩ := List.getElem?_eq_some_iff.mp hc
    rcases hflush with ⟨url, hurl⟩ | flushes
    · exact absurd (hc.symm.trans hurl) (by simp)
    · have hstage : (Hand.ofStage stage).flushes := by simpa [hand, hc, Caller.hand] using flushes
      obtain ⟨waits, flushes⟩ := exists_of_flushes hstage
      exact withheld_of_stage (proceed_withholds _ _ flushes)
        (by simp [results, hc, Caller.results, waits]) (by simp [results, hid, Caller.results])
  next => exact withheld_of_eq rfl

/-- The operator waits for a flush of its own only while it makes a call. -/
theorem operatorTurn_withheld (hs : s.Steady) (flushes : (s.hand .operator).flushes) :
    Withheld .operator s s.operatorTurn := by
  unfold operatorTurn
  split
  next stage ho =>
    have hstage : (Hand.ofStage stage).flushes := by simpa [hand, ho, Operator.hand] using flushes
    obtain ⟨waits, flushes⟩ := exists_of_flushes hstage
    exact withheld_of_stage (proceed_withholds _ _ flushes)
      (by simp [results, ho, Operator.results, waits]) rfl
  next r left failures ho =>
    have hsmall : r.Small := by
      have hoperator := hs.operator
      rwa [ho] at hoperator
    rw [show s.hand .operator = .ofStage r.stage by simp [hand, ho, Operator.hand],
      Hand.flushes_of_delivers hsmall.delivers] at flushes
    cases flushes
  next => exact withheld_of_eq rfl

/-- The generator makes no flushes. -/
theorem flushes_generator (hs : s.Steady) : (s.hand .generator).flushes = false := by
  have hgenerator := hs.generator
  unfold Generator.Paced at hgenerator
  show s.generator.stage.hand.flushes = false
  cases hstage : s.generator.stage with
  | pushing r next =>
    rw [hstage] at hgenerator
    exact Hand.flushes_of_delivers hgenerator.2.delivers
  | _ => rfl

theorem holdings_sleep (s : Session) (id : Nat) (f : Flusher) :
    (s.sleep id f).holdings = s.holdings := by
  unfold sleep
  split <;> rfl

/-- A flusher that goes on after its flush has the outcome of it among its results. -/
theorem afterFlush_withheld (hid : id < s.flushers.length)
    (hbefore : s.results (.flusher id) = f.results) {r : Pipeline × Stage}
    (hr : Withholds s.toPipeline r.1 r.2) : Withheld (.flusher id) s (s.afterFlush id f r) := by
  obtain ⟨p, stage⟩ := r
  cases stage with
  | ended result =>
    cases result with
    | flushed o =>
      have hresults : (s.afterFlush id f (p, .ended (.flushed o))).results (.flusher id)
          = [.flushed o] ++ f.results := (sleep_files (by exact hid) _).2
      intro unsent
      rw [hresults, hbefore, Journal.fresh_append] at unsent
      refine (holdings_sleep _ id _).trans (hr fun x hx => unsent x ?_)
      rw [← Option.some_inj.mp hx]
      exact List.mem_singleton.mpr rfl
    | _ => exact withheld_of_eq (hr nofun)
  | _ => exact withheld_of_eq (hr nofun)

theorem pursue_withheld (hf : s.flushers[id]? = some f) :
    Withheld (.flusher id) s (s.pursue id f) := by
  obtain ⟨hid, -⟩ := List.getElem?_eq_some_iff.mp hf
  have hbefore : s.results (.flusher id) = f.results := by simp [results, hf]
  unfold pursue
  dsimp only
  split
  next => exact withheld_of_eq (holdings_sleep s id _)
  next =>
    split
    next => exact afterFlush_withheld hid (by exact hbefore) (flush_withholds _ _ _)
    next => exact withheld_of_eq rfl
  next => exact afterFlush_withheld hid hbefore (proceed_withholds _ _ rfl)
  next => exact afterFlush_withheld hid hbefore (proceed_withholds _ _ rfl)
  next => exact withheld_of_eq rfl

theorem Withheld.quit (h : Withheld (.flusher id) s s') :
    Withheld (.flusher id) s (s'.quitFlusher id) := by
  intro unsent
  rw [results_quitFlusher] at unsent
  exact (holdings_leave _ _ _).trans (h unsent)

theorem flusherTurn_withheld (s : Session) (id : Nat) :
    Withheld (.flusher id) s (s.flusherTurn id) := by
  unfold flusherTurn
  split
  next => exact withheld_of_eq rfl
  next f hf =>
    split
    next =>
      split
      next => exact (pursue_withheld hf).quit
      next => exact Withheld.quit (withheld_of_eq rfl)
    next => exact pursue_withheld hf

theorem holdings_cancelFlusher (s : Session) : s.cancelFlusher.holdings = s.holdings := by
  unfold cancelFlusher
  split <;> rfl

theorem holdings_drop (s : Session) (t : Task) : (s.move (.drop t)).holdings = s.holdings := by
  have hm := s.moves_move (.drop t)
  generalize s.move (.drop t) = s' at hm ⊢
  cases hm with
  | stays => rfl
  | dropOwn => exact holdings_leave _ _ _
  | drop => exact holdings_leave _ _ _

/-! ### The steps of a flush -/

/-- A move that is a step of a flush of a task: a call begins, goes on or is dropped, a flusher has
its turn, or it is stopped or replaced, or goes with the aggregator. -/
inductive FlushStep (s : Session) : Move → Task → Prop
  | call (free : s.operator.isFree) (url : String) :
    FlushStep s (.start (.call (.flush url))) .operator
  | background {id : Nat} {url : String} (hc : s.callers[id]? = some (.fresh (.flush url))) :
    FlushStep s (.turn (.caller id)) (.caller id)
  | resume {t : Task} (flushes : (s.hand t).flushes) : FlushStep s (.turn t) t
  | periodic (id : Nat) : FlushStep s (.turn (.flusher id)) (.flusher id)
  | stop {id : Nat} (current : s.current = some id) :
    FlushStep s (.start .stopFlushing) (.flusher id)
  | replace {id : Nat} (current : s.current = some id) (url : String) :
    FlushStep s (.start (.startFlushing url)) (.flusher id)
  | drop {t : Task} (flushes : (s.hand t).flushes) : FlushStep s (.drop t) t
  | discard {id : Nat} (current : s.current = some id) : FlushStep s .discard (.flusher id)

/-- The move tells the task that its report was sent. -/
def TellsSent (s : Session) (m : Move) (t : Task) : Prop := ∃ r, (t, .flushed (.sent r)) ∈ s.told m

theorem mem_told {r : CallResult} :
    (t, r) ∈ s.told m ↔ m.task? = some t
      ∧ r ∈ Journal.fresh ((s.move m).results t) (s.results t).length := by
  unfold told
  split
  next u hm => by_cases hut : u = t <;> simp [hm, hut]
  next hm => simp [hm]

theorem Withheld.of_not_tellsSent (h : Withheld t s (s.move m)) (hm : m.task? = some t)
    (unsent : ¬ s.TellsSent m t) : (s.move m).holdings = s.holdings :=
  h fun r hr => unsent ⟨r, mem_told.mpr ⟨hm, hr⟩⟩

/-- A task has its turn in the session in which it is not ready any more. -/
theorem Withheld.move_turn (h : ∀ s' : Session, s' = { s with ready := s.ready.erase t } →
    Withheld t s' (s'.turn t)) (unsent : ¬ s.TellsSent (.turn t) t) :
    (s.move (.turn t)).holdings = s.holdings := by
  by_cases ready : t ∈ s.ready
  · refine Withheld.of_not_tellsSent (t := t) ?_ rfl unsent
    rw [show s.move (.turn t) = Session.turn { s with ready := s.ready.erase t } t from
      if_pos ready]
    exact h _ rfl
  · rw [show s.move (.turn t) = s from if_neg ready]

/-- A step of a flush leaves the counters and the history as they are, unless it tells that the
report was sent. -/
theorem FlushStep.holdings_eq (hstep : s.FlushStep m t) (hs : s.Steady)
    (unsent : ¬ s.TellsSent m t) : (s.move m).holdings = s.holdings := by
  cases hstep with
  | call free url =>
    refine Withheld.of_not_tellsSent (t := .operator) ?_ rfl unsent
    rw [show s.move (.start (.call (.flush url))) = s.enter (.flush url) from if_pos free]
    have hbefore : s.results .operator = [] := by
      cases ho : s.operator <;> simp_all [results, Operator.results, Operator.isFree]
    exact withheld_of_stage (begin_flush_withholds _ _ url) hbefore rfl
  | background hc =>
    refine Withheld.move_turn (fun s' hs' => ?_) unsent
    exact callerTurn_withheld (.inl ⟨_, by rw [hs']; exact hc⟩)
  | resume flushes =>
    refine Withheld.move_turn (fun s' hs' => ?_) unsent
    have hhand : s'.hand t = s.hand t := by rw [hs']; rfl
    rw [← hhand] at flushes
    have hsteady : s'.Steady := by rw [hs']; exact hs.congr rfl rfl
    cases t with
    | operator => exact operatorTurn_withheld hsteady flushes
    | caller id => exact callerTurn_withheld (.inr flushes)
    | worker w => cases flushes
    | flusher id => exact flusherTurn_withheld s' id
    | generator =>
      rw [flushes_generator hsteady] at flushes
      cases flushes
  | periodic id => exact Withheld.move_turn (fun s' _ => flusherTurn_withheld s' id) unsent
  | stop current =>
    simp only [move]
    split
    · exact holdings_cancelFlusher s
    · rfl
  | replace current url =>
    simp only [move]
    split
    · exact holdings_cancelFlusher s
    · rfl
  | drop flushes => exact holdings_drop s t
  | discard current => exact holdings_cancelFlusher s

/-! ### Flushes that are over -/

/-- A task whose result is there has nothing in hand. -/
theorem hand_of_results (ht : ∀ id, t ≠ .flusher id) (h : s.results t ≠ []) : s.hand t = .free := by
  have hstage {stage : Stage} (h : stage.result?.toList ≠ []) : Hand.ofStage stage = .free := by
    cases stage <;> simp_all [Stage.result?, Hand.ofStage]
  cases t with
  | operator =>
    simp only [results, hand] at h ⊢
    cases ho : s.operator with
    | calling stage => exact hstage (by simpa [ho, Operator.results] using h)
    | _ => simp [ho, Operator.results] at h
  | caller id =>
    simp only [results, hand] at h ⊢
    cases hc : s.callers[id]? with
    | none => rfl
    | some c =>
      cases c with
      | under stage => exact hstage (by simpa [hc, Caller.results] using h)
      | _ => rfl
  | flusher id => exact absurd rfl (ht id)
  | worker w => rfl
  | generator => simp [results] at h

/-- A flusher that comes to an outcome has nothing in hand. -/
theorem afterFlush_over (hid : id < s.flushers.length) (f : Flusher) (r : Pipeline × Stage) :
    (s.afterFlush id f r).results (.flusher id) = f.results
      ∨ (s.afterFlush id f r).hand (.flusher id) = .free := by
  have hkeep (p : Pipeline) (stage : FlusherStage) :
      ({ s with toPipeline := p }.setFlusher id { f with stage }).results (.flusher id)
        = f.results := results_setFlusher (by exact hid) _
  obtain ⟨p, stage⟩ := r
  cases stage with
  | ended result =>
    cases result with
    | flushed o =>
      right
      show (sleep _ id _).hand _ = _
      unfold sleep
      split <;> simp [hand, setFlusher, hid, FlusherStage.hand]
    | _ => exact .inl (hkeep p .ended)
  | queueing url => exact .inl (hkeep p (.queueing url))
  | flushing q => exact .inl (hkeep p (.flushing q))
  | _ => exact .inl (hkeep p .ended)

theorem flusherTurn_over (s : Session) (id : Nat) :
    (s.flusherTurn id).results (.flusher id) = s.results (.flusher id)
      ∨ (s.flusherTurn id).hand (.flusher id) = .free := by
  unfold flusherTurn
  split
  next => exact .inl rfl
  next f hf =>
    obtain ⟨hid, -⟩ := List.getElem?_eq_some_iff.mp hf
    have hbefore : s.results (.flusher id) = f.results := by simp [results, hf]
    split
    next => exact .inr (hand_quitFlusher _ id)
    next =>
      rw [hbefore]
      unfold pursue
      dsimp only
      split
      next => exact .inl (sleep_files hid _).2
      next =>
        split
        next => exact afterFlush_over hid (f.note s.now .wakes) _
        next => exact .inl hbefore
      next => exact afterFlush_over hid f _
      next => exact afterFlush_over hid f _
      next => exact .inl hbefore

/-- A task that is told a result has nothing in hand any more. -/
theorem hand_of_told {r : CallResult} (h : (t, r) ∈ s.told m) : (s.move m).hand t = .free := by
  obtain ⟨hm, hr⟩ := mem_told.mp h
  by_cases ht : ∃ id, t = .flusher id
  · obtain ⟨id, rfl⟩ := ht
    obtain rfl : m = .turn (.flusher id) := by
      cases m with
      | drop t =>
        obtain rfl := Option.some_inj.mp hm
        rw [show s.move (.drop (.flusher id)) = s from rfl, Journal.fresh_self] at hr
        cases hr
      | _ => simp_all [Move.task?]
    by_cases ready : .flusher id ∈ s.ready
    · rw [show s.move (.turn (.flusher id))
        = flusherTurn { s with ready := s.ready.erase (.flusher id) } id from if_pos ready] at hr ⊢
      refine (flusherTurn_over { s with ready := s.ready.erase (.flusher id) } id).resolve_left
        fun hsame => ?_
      rw [hsame, show results { s with ready := s.ready.erase (.flusher id) } (.flusher id)
        = s.results (.flusher id) from rfl, Journal.fresh_self] at hr
      cases hr
    · rw [show s.move (.turn (.flusher id)) = s from if_neg ready, Journal.fresh_self] at hr
      cases hr
  · refine hand_of_results (fun id hid => ht ⟨id, hid⟩) fun hnil => ?_
    rw [hnil] at hr
    simp [Journal.fresh] at hr

/-- A task that drops its flush has none in hand any more. -/
theorem hand_of_drop (hs : s.Steady) (ht : ∀ id, t ≠ .flusher id) :
    ((s.move (.drop t)).hand t).flushes = false := by
  cases t with
  | operator =>
    show ((s.drop .operator).hand .operator).flushes = false
    unfold Session.drop
    cases ho : s.operator with
    | calling stage =>
      dsimp only
      split
      next => rfl
      next hother =>
        rw [hand_of_calling ho, flushes_ofStage]
        simpa using hother
    | generating r left failures =>
      have hsmall : r.Small := by
        have hoperator := hs.operator
        rwa [ho] at hoperator
      show (s.hand .operator).flushes = false
      rw [show s.hand .operator = .ofStage r.stage by simp [hand, ho, Operator.hand]]
      exact Hand.flushes_of_delivers hsmall.delivers
    | _ => simp [hand, ho, Operator.hand, Hand.flushes, Hand.isFlushing]
  | caller id =>
    show ((s.drop (.caller id)).hand (.caller id)).flushes = false
    unfold Session.drop
    cases hc : s.callers[id]? with
    | none => simp [hand, hc, Hand.flushes, Hand.isFlushing]
    | some c =>
      cases c with
      | under stage =>
        obtain ⟨hid, -⟩ := List.getElem?_eq_some_iff.mp hc
        dsimp only
        rw [hc]
        dsimp only
        split
        next => simp [hand, hid, Caller.hand, Hand.flushes, Hand.isFlushing]
        next hother => simpa [hand, hc, Caller.hand, flushes_ofStage] using hother
      | _ => simp [hand, hc, Caller.hand, Hand.flushes, Hand.isFlushing]
  | worker w => rfl
  | flusher id => exact absurd rfl (ht id)
  | generator => exact flushes_generator hs

/-! ### All of it -/

def kpiDeeds (first : Session) (moves : List Move) : List Aggregator.Deed :=
  (first.trace moves).filterMap Occurrence.deed?

/-- How little those flushes leave behind in a run that are not sent. -/
structure Traceless (first : Session) (moves : List Move) : Prop where
  /-- Whatever happens next, a step of a flush leaves the counters with their stamps and the history
  as they are, unless it tells that the report was sent. -/
  harmless : ∀ m t, (first.follow moves).FlushStep m t → ¬ (first.follow moves).TellsSent m t →
    ((first.follow moves).move m).kpi.counters = (first.follow moves).kpi.counters
      ∧ ((first.follow moves).move m).kpi.history = (first.follow moves).kpi.history
  /-- In line are the tasks in the middle of a flush, and no others. -/
  inLine : ∀ t, t ∈ (first.follow moves).line ↔ ((first.follow moves).hand t).flushes
  /-- A task whose flush is over is not in line, whatever came of it. -/
  ended : ∀ m t r, (t, r) ∈ (first.follow moves).told m → t ∉ ((first.follow moves).move m).line
  /-- Nor is a task that drops its flush. -/
  dropped : ∀ t, (∀ id, t ≠ .flusher id) → t ∉ ((first.follow moves).move (.drop t)).line
  /-- A cancelled flusher that is in line can go on, and is not in line after its turn. -/
  cancelled : ∀ id, (first.follow moves).Cancelled id → .flusher id ∈ (first.follow moves).line →
    .flusher id ∈ (first.follow moves).ready
      ∧ .flusher id ∉ ((first.follow moves).move (.turn (.flusher id))).line
  /-- The aggregator is what the deeds of the run make of it. -/
  done : (first.follow moves).kpi = first.kpi.actAll (first.kpiDeeds moves)
  /-- Those that land are the flushes that tell that they were sent. -/
  landed : (first.trace moves).filterMap Occurrence.landing?
    = (first.trace moves).filterMap Occurrence.sent?
  /-- Striking out the others leaves everything else in its order, and of the flushes only those
  that land. -/
  struck : (Deed.purge (first.kpiDeeds moves)).Sublist (first.kpiDeeds moves)
    ∧ (Deed.purge (first.kpiDeeds moves)).filter Deed.lasts
      = (first.kpiDeeds moves).filter Deed.lasts
    ∧ ∀ neUid now rest, .depart neUid now :: rest <:+ Deed.purge (first.kpiDeeds moves) →
      Deed.lands rest
  /-- Without the others the counters and the history come out the same. -/
  counters : (first.kpi.actAll (Deed.purge (first.kpiDeeds moves))).counters
    = (first.follow moves).kpi.counters
  history : (first.kpi.actAll (Deed.purge (first.kpiDeeds moves))).history
    = (first.follow moves).kpi.history

/-- In every run of every session, flushes that are not sent leave no trace. -/
theorem flushes_traceless (a : Assembly) (settings : Settings) (identity : Identity) (clock : Clock)
    (receiver : Receiver) (demo : AgentConfig) (chance : Chance) (moves : List Move) :
    (create a settings identity clock receiver demo chance).Traceless moves := by
  have hfirst := reachable_create a settings identity clock receiver demo chance
  have hflight : (create a settings identity clock receiver demo chance).kpi.flight = none := by
    rw [kpi_create]
    rfl
  generalize create a settings identity clock receiver demo chance = first at hfirst hflight
  have h : (first.follow moves).Reachable := hfirst.comesTo ⟨moves, rfl⟩
  obtain ⟨lined, steady⟩ := h.lined_steady
  have hdone := follow_deeds hfirst moves
  have hpurged : first.kpi.actAll (Deed.purge (first.kpiDeeds moves))
      = (first.kpi.actAll (first.kpiDeeds moves)).abandon :=
    actAll_purge (by rw [hflight, ite_self, ← hflight])
  exact {
    harmless := fun m t hstep unsent => Prod.mk.inj (hstep.holdings_eq steady unsent)
    inLine := lined.mem_line
    ended := fun m t r htold =>
      (move_keeps invariant_lined m lined).not_mem_line (hand_of_told htold)
    dropped := fun t ht => by
      rw [(move_keeps invariant_lined (.drop t) lined).mem_line, hand_of_drop steady ht]
      exact Bool.false_ne_true
    cancelled := fun id hc => hc.released h
    done := hdone
    landed := landings_trace hfirst moves
    struck := ⟨Deed.purge_sublist _, Deed.filter_lasts_purge _,
      fun _ _ _ => Deed.lands_of_suffix_purge _⟩
    counters := by rw [hpurged, hdone]; rfl
    history := by rw [hpurged, hdone]; rfl }

/-- A flush is answered with an error, another is under way when its flusher is stopped, and a third
is sent. -/
example :
    let first := create .parts { kpi := { granularity := .ofMillis 10 } } {} {}
      [⟨"", [.status ⟨500⟩ 5, .status ⟨200⟩ 5, .status ⟨200⟩ 5]⟩] {}
    let moves : List Move :=
      [.start (.increment "calls"), .start (.background (.flush "kpi")), .turn (.caller 0),
        .start (.increment "calls"), .elapse 5, .turn (.caller 0),
        .start (.startFlushing "kpi"), .turn (.flusher 0), .elapse 15, .turn (.flusher 0),
        .start .stopFlushing, .elapse 20, .turn (.flusher 0),
        .start (.background (.flush "kpi")), .turn (.caller 1), .elapse 25, .turn (.caller 1)]
    first.kpiDeeds moves
        = [.count (.add "calls" 1000), .depart "" 0, .count (.add "calls" 1000), .yield,
          .depart "" 0, .yield, .depart "" 0, .land, .yield]
      ∧ Deed.purge (first.kpiDeeds moves)
        = [.count (.add "calls" 1000), .count (.add "calls" 1000), .depart "" 0, .land] := by
  decide +kernel

end Session

end Uplink
