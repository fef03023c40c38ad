import Mathlib.Logic.Relation
import Uplink.Proofs.Kpi.Sound
import Uplink.Proofs.Session.Timers
/-!
What the turns of the tasks do to the flushers.  A flusher that was not cancelled goes on from
stage to stage, a cancelled one ends, and nothing but a start or a stop of flushing changes which
flusher is the current one.
-/
namespace Uplink

namespace Flusher

/-- A flusher waits for its next attempt, unless the wait would be no duration. -/
def rest (g : Duration) (now : Nat) (f : Flusher) : Flusher :=
  match backoff? g f.failures with
  | none => { f with stage := .ended }
  | some d => { f with stage := .asleep (now + d.millis) }

/-- The end of an attempt resets the failures in a row, or adds one. -/
def finish (g : Duration) (now : Nat) (o : FlushOutcome) (f : Flusher) : Flusher :=
  rest g now { f.note now (.ends o) with failures := if o = .failed then f.failures + 1 else 0 }

/-- One thing that a flusher does in its turn; it can end on its own only if a POST can crash. -/
inductive Step (g : Duration) (now : Nat) (crashes : Prop) (f : Flusher) : Flusher → Prop
  | begin (hs : f.stage = .fresh) : Step g now crashes f ((f.note now .begins).rest g now)
  | wake {due : Nat} (hs : f.stage = .asleep due) (hdue : due ≤ now) :
    Step g now crashes f { f.note now .wakes with stage := .queueing f.url }
  | wait (stage : FlusherStage) (hs : f.stage.hand.flushes) (hs' : stage.hand.flushes) :
    Step g now crashes f { f with stage }
  | finish (o : FlushOutcome) (hs : f.stage.hand.flushes) : Step g now crashes f (f.finish g now o)
  | crash (hs : f.stage.hand.flushes) (hc : crashes) :
    Step g now crashes f { f with stage := .ended }

def Steps (g : Duration) (now : Nat) (crashes : Prop) : Flusher → Flusher → Prop :=
  Relation.ReflTransGen (Step g now crashes)

variable {g : Duration} {now : Nat} {crashes : Prop} {f f' : Flusher}

@[simp] theorem cancelled_rest : (f.rest g now).cancelled = f.cancelled := by
  unfold rest
  split <;> rfl

theorem Step.cancelled_eq (h : Step g now crashes f f') : f'.cancelled = f.cancelled := by
  cases h with
  | begin hs => simp [note]
  | finish o hs => simp [Flusher.finish, note]
  | _ => rfl

theorem Steps.cancelled_eq (h : Steps g now crashes f f') : f'.cancelled = f.cancelled := by
  induction h with
  | refl => rfl
  | tail _ hstep ih => exact hstep.cancelled_eq.trans ih

end Flusher

namespace Session

open Pipeline

variable {quits : Prop} {s : Session} {id : Nat} {f : Flusher} {h h' : Hand}

/-- The flushers, the current one of them, and the starts and stops so far. -/
def flushing (s : Session) : List Flusher × Option Nat × List Steering :=
  (s.flushers, s.current, s.steering)

/-! ### The turn of a flusher -/

theorem flushing_sleep (s : Session) (id : Nat) (f : Flusher) :
    (s.sleep id f).flushing
      = (s.flushers.set id (f.rest s.kpi.granularity s.now), s.current, s.steering) := by
  unfold sleep Flusher.rest
  cases backoff? s.kpi.granularity f.failures <;> rfl

/-- A flusher that sleeps will be woken, and has begun. -/
def Rouses (s : Session) (id : Nat) (f : Flusher) : Prop :=
  f.stage ≠ .fresh ∧ ∀ due, f.stage = .asleep due → (due, .flusher id) ∈ s.timers

theorem sleep_rouses (s : Session) (id : Nat) (f : Flusher) :
    (s.sleep id f).Rouses id (f.rest s.kpi.granularity s.now) := by
  unfold sleep Flusher.rest
  cases backoff? s.kpi.granularity f.failures with
  | none => exact ⟨FlusherStage.noConfusion, fun due hdue => FlusherStage.noConfusion hdue⟩
  | some d =>
    refine ⟨FlusherStage.noConfusion, fun due hdue => ?_⟩
    cases hdue
    exact List.mem_append_right _ (List.mem_singleton.mpr rfl)

theorem afterFlush_steps {crashes : Prop} {r : Pipeline × Stage}
    (hs : f.stage.hand.flushes) (hr : Pipeline.Steps quits (.flusher id) s.toPipeline h r.1 h')
    (hflush : r.2.ofFlush)
    (hresult : ∀ result, r.2 = .ended result → (∃ o, result = .flushed o) ∨ crashes) :
    ∃ f', Flusher.Steps s.kpi.granularity s.now crashes f f'
      ∧ (s.afterFlush id f r).flushing = (s.flushers.set id f', s.current, s.steering)
      ∧ (s.afterFlush id f r).Rouses id f' := by
  have hnow := hr.now_eq
  have hg := hr.granularity_eq
  obtain ⟨p, stage⟩ := r
  cases stage with
  | ended result =>
    cases result with
    | flushed o =>
      refine ⟨_, .single (.finish o hs), ?_⟩
      unfold afterFlush Flusher.finish
      dsimp only at hnow hg ⊢
      rw [← hnow, ← hg]
      exact ⟨flushing_sleep _ _ _, sleep_rouses _ _ _⟩
    | _ =>
      refine ⟨_, .single (.crash hs ?_), rfl, FlusherStage.noConfusion, fun due hdue =>
        FlusherStage.noConfusion hdue⟩
      exact (hresult _ rfl).resolve_left fun ⟨o, ho⟩ => CallResult.noConfusion ho
  | queueing url =>
    exact ⟨_, .single (.wait (.queueing url) hs rfl), rfl, FlusherStage.noConfusion,
      fun due hdue => FlusherStage.noConfusion hdue⟩
  | flushing q =>
    exact ⟨_, .single (.wait (.flushing q) hs rfl), rfl, FlusherStage.noConfusion,
      fun due hdue => FlusherStage.noConfusion hdue⟩
  | _ => exact absurd hflush (by simp [Stage.ofFlush])

/-- How the flusher stands that goes on after a flush says nothing of where it stood before. -/
theorem afterFlush_stage (s : Session) (id : Nat) (f : Flusher) (stage : FlusherStage)
    (r : Pipeline × Stage) : s.afterFlush id { f with stage } r = s.afterFlush id f r := by
  obtain ⟨p, result⟩ := r
  unfold afterFlush
  dsimp only
  split
  next o =>
    unfold sleep Flusher.note
    rfl
  all_goals rfl

/-- A flusher goes on unless it sleeps and its time has not come. -/
theorem pursue_steps {crashes : Prop} (hf : s.flushers[id]? = some f)
    (hp : s.toPipeline.Sound s.hand ∨ crashes) :
    ∃ f', Flusher.Steps s.kpi.granularity s.now crashes f f'
      ∧ (s.pursue id f).flushing = (s.flushers.set id f', s.current, s.steering)
      ∧ ((s.pursue id f).Rouses id f'
        ∨ s.pursue id f = s ∧ ∃ due, f.stage = .asleep due ∧ s.now < due) := by
  have hself : s.flushers.set id f = s.flushers := by
    obtain ⟨hid, rfl⟩ := List.getElem?_eq_some_iff.mp hf
    exact List.set_getElem_self hid
  have hhand : s.hand (.flusher id) = f.stage.hand := by simp [hand, hf]
  have hproceed {stage : Stage} (hs : f.stage.hand = .waiting stage)
      (flushes : f.stage.hand.flushes) :
      ∃ f', Flusher.Steps s.kpi.granularity s.now crashes f f'
        ∧ (s.afterFlush id f (s.proceed (.flusher id) stage)).flushing
          = (s.flushers.set id f', s.current, s.steering)
        ∧ ((s.afterFlush id f (s.proceed (.flusher id) stage)).Rouses id f'
          ∨ s.afterFlush id f (s.proceed (.flusher id) stage) = s
            ∧ ∃ due, f.stage = .asleep due ∧ s.now < due) := by
    have hwaits : s.hand (.flusher id) = .waiting stage := hhand.trans hs
    have hflush : stage.ofFlush := by
      rw [hs] at flushes
      cases stage <;> simp_all [Hand.flushes, Hand.isFlushing, Stage.ofFlush]
    obtain ⟨f', hf', heq, hrouses⟩ := afterFlush_steps flushes (@proceed_steps False _ _ stage)
      (proceed_ofFlush _ _ hflush) fun result => proceed_flushed hp hwaits (hhand ▸ flushes)
    exact ⟨f', hf', heq, .inl hrouses⟩
  unfold pursue
  dsimp only
  split
  next hs => exact ⟨_, .single (.begin hs), flushing_sleep _ _ _, .inl (sleep_rouses _ _ _)⟩
  next due hs =>
    split
    next hdue =>
      rw [← afterFlush_stage _ _ _ (.queueing f.url)]
      have hsteps := @flush_steps False s.toPipeline (.flusher id) f.url
      obtain ⟨f', hf', heq, hrouses⟩ := afterFlush_steps (f := { f.note s.now .wakes with
        stage := .queueing f.url }) rfl hsteps (flush_ofFlush _ _ _)
        fun result => flush_flushed (hp.imp_left Sound.receiver)
      exact ⟨f', .head (.wake hs hdue) hf', heq, .inl hrouses⟩
    next hdue =>
      exact ⟨f, .refl, by rw [hself]; rfl, .inr ⟨rfl, due, hs, Nat.lt_of_not_le hdue⟩⟩
  next url hs => exact hproceed (by rw [hs]; rfl) (by rw [hs]; rfl)
  next q hs => exact hproceed (by rw [hs]; rfl) (by rw [hs]; rfl)
  next hs =>
    refine ⟨f, .refl, by rw [hself]; rfl, .inl ⟨fun hfresh => ?_, fun due hdue => ?_⟩⟩
    · exact FlusherStage.noConfusion (hs.symm.trans hfresh)
    · exact FlusherStage.noConfusion (hs.symm.trans hdue)

/-- A flusher that was not cancelled goes on in its turn. -/
theorem flusherTurn_of_active (hf : s.flushers[id]? = some f) (active : f.cancelled = false) :
    s.flusherTurn id = s.pursue id f := by
  unfold flusherTurn
  rw [hf]
  exact if_neg (by simp [active])

/-- A cancelled flusher ends in its turn, whether it goes on before or not. -/
theorem flusherTurn_of_cancelled (hf : s.flushers[id]? = some f) (cancelled : f.cancelled) :
    s.flusherTurn id = (if s.persists id then s.pursue id f else s).quitFlusher id := by
  unfold flusherTurn
  rw [hf]
  exact if_pos cancelled

/-! ### Everything else -/

theorem flushing_callerTurn (s : Session) (id : Nat) : (s.callerTurn id).flushing = s.flushing := by
  unfold callerTurn
  dsimp only
  split <;> rfl

theorem flushing_afterRound (s : Session) (g : Generator) (next : Nat) (r : RoundStage) :
    (s.afterRound g next r).flushing = s.flushing := by
  cases r with
  | ended failures =>
    obtain ⟨ready, timers, stage, heq, -⟩ := s.awaitRound_eq g next
    exact (congrArg Session.flushing heq).trans rfl
  | _ => rfl

theorem flushing_runRound (s : Session) (g : Generator) (due : Nat) :
    (s.runRound g due).flushing = s.flushing := flushing_afterRound _ _ _ _

theorem flushing_generatorTurn (s : Session) : s.generatorTurn.flushing = s.flushing := by
  unfold generatorTurn
  dsimp only
  split
  · split
    · rfl
    · exact flushing_runRound s _ _
  · split
    · exact flushing_runRound s _ _
    · split <;> rfl
  next r next _ => exact flushing_afterRound _ _ _ _
  · rfl
  · rfl

theorem flushing_afterOwnRound (s : Session) (left failures : Nat) (r : RoundStage) :
    (s.afterOwnRound left failures r).flushing = s.flushing := by
  induction left generalizing s failures r with
  | zero => cases r <;> rfl
  | succ left ih =>
    cases r with
    | ended more => exact ih _ _ _
    | _ => rfl

theorem flushing_operatorTurn (s : Session) : s.operatorTurn.flushing = s.flushing := by
  unfold operatorTurn
  split
  · rfl
  · exact flushing_afterOwnRound _ _ _ _
  · rfl

/-- The turn of any other task leaves the flushers alone. -/
theorem flushing_turn {t : Task} (ht : ∀ id, t ≠ .flusher id) :
    (s.turn t).flushing = s.flushing := by
  cases t with
  | operator => exact flushing_operatorTurn s
  | caller id => exact flushing_callerTurn s id
  | worker w => rfl
  | flusher id => exact absurd rfl (ht id)
  | generator => exact flushing_generatorTurn s

theorem flushing_collect (s : Session) : s.collect.1.flushing = s.flushing := by
  unfold collect
  split <;> rfl

/-- Cancelling the current flusher changes nothing else of the flushers. -/
theorem getElem?_cancelFlusher (s : Session) (id : Nat) :
    s.cancelFlusher.flushers[id]? = s.flushers[id]?.map fun f =>
      { f with cancelled := f.cancelled || s.current = some id } := by
  unfold cancelFlusher
  split
  next hnone => simp [hnone]
  next cur hcur =>
    by_cases hid : cur = id
    · subst hid
      simp [hcur]
    · simp [hcur, hid]

/-- Only a start or a stop of flushing changes the flushers when an operation begins. -/
theorem flushing_start (s : Session) (op : Operation) (hstart : ∀ url, op ≠ .startFlushing url)
    (hstop : op ≠ .stopFlushing) : (s.start op).1.flushing = s.flushing := by
  cases op with
  | startFlushing url => exact absurd rfl (hstart url)
  | stopFlushing => exact absurd rfl hstop
  | join id =>
    show (s.join id).1.flushing = s.flushing
    unfold join
    split <;> rfl
  | generate rounds =>
    show (s.enterRounds rounds).flushing = s.flushing
    unfold enterRounds
    split
    · exact flushing_afterOwnRound s _ _ _
    · rfl
  | startGenerator period =>
    show (s.startGenerator period).flushing = s.flushing
    unfold startGenerator
    split <;> rfl
  | stopGenerator =>
    show s.stopGenerator.flushing = s.flushing
    unfold stopGenerator
    dsimp only
    split <;> rfl
  | _ => rfl

end Session

end Uplink
