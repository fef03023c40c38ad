import Uplink.Proofs.Session.Likeness
/-!
Sessions that look alike go on alike: every turn of a task, every passage of time and every
operation leaves them looking alike, and every operation has the same answer in both.
-/
namespace Uplink

namespace Session

open Pipeline

/-- Two sessions differ only in what their journals do not show and in what they remember of
flushing. -/
def LooksLike (s s' : Session) : Prop :=
  ∃ p steering, s' = { s with toPipeline := p, steering } ∧ s.toPipeline.LooksLike p

/-- Two operations have the same answer and leave sessions that look alike. -/
def LookAlike (r r' : Session × Answer) : Prop := r.1.LooksLike r'.1 ∧ r'.2 = r.2

variable {s s' s'' : Session}

theorem LooksLike.refl (s : Session) : s.LooksLike s := ⟨s.toPipeline, s.steering, rfl, .refl _⟩

theorem LooksLike.trans (h : s.LooksLike s') (h' : s'.LooksLike s'') : s.LooksLike s'' := by
  obtain ⟨_, _, rfl, j, rfl, hj⟩ := h
  obtain ⟨_, steering, rfl, j', rfl, hj'⟩ := h'
  exact ⟨_, steering, rfl, j', rfl, hj.trans hj'⟩

/-- Pipelines that look alike make sessions that look alike. -/
theorem looksLike_within {p p' : Pipeline} (h : p.LooksLike p') (s : Session)
    (steering : List Steering) :
    LooksLike { s with toPipeline := p } { s with toPipeline := p', steering } :=
  ⟨p', steering, rfl, h⟩

theorem LooksLike.nextDue? (h : s.LooksLike s') : s'.nextDue? = s.nextDue? := by
  obtain ⟨_, _, rfl, j, rfl, -⟩ := h
  rfl

theorem LooksLike.now (h : s.LooksLike s') : s'.now = s.now := by
  obtain ⟨_, _, rfl, j, rfl, -⟩ := h
  rfl

theorem LooksLike.operator (h : s.LooksLike s') : s'.operator = s.operator := by
  obtain ⟨_, _, rfl, j, rfl, -⟩ := h
  rfl

theorem LooksLike.patience (h : s.LooksLike s') : s'.patience = s.patience := by
  obtain ⟨_, _, rfl, j, rfl, -⟩ := h
  rfl

theorem LooksLike.answering (h : s.LooksLike s') (a : Answer) : LookAlike (s, a) (s', a) :=
  ⟨h, rfl⟩

/-! ### Calls in the background and periodic flushes -/

theorem LooksLike.callerTurn (h : s.LooksLike s') (id : Nat) :
    (s.callerTurn id).LooksLike (s'.callerTurn id) := by
  obtain ⟨p, steering, rfl, hp⟩ := h
  have hkeep {r r' : Pipeline × Stage} (hr : Pipeline.LookAlike r r') :
      LooksLike { s with toPipeline := r.1, callers := s.callers.set id (.under r.2) }
        { s with toPipeline := r'.1, steering, callers := s.callers.set id (.under r'.2) } := by
    rw [hr.2]
    exact ⟨r'.1, steering, rfl, hr.1⟩
  unfold Session.callerTurn
  dsimp only
  cases s.callers[id]? with
  | none => exact ⟨p, steering, rfl, hp⟩
  | some caller =>
    cases caller with
    | fresh c => exact hkeep (hp.begin (.caller id) c)
    | under stage => exact hkeep (hp.proceed (.caller id) stage)
    | answered => exact ⟨p, steering, rfl, hp⟩

theorem LooksLike.sleep (h : s.LooksLike s') (id : Nat) (f : Flusher) :
    (s.sleep id f).LooksLike (s'.sleep id f) := by
  obtain ⟨_, steering, rfl, j, rfl, hj⟩ := h
  unfold Session.sleep
  dsimp only
  cases backoff? s.kpi.granularity f.failures <;> exact ⟨_, steering, rfl, j, rfl, hj⟩

theorem LooksLike.afterFlush (h : s.LooksLike s') (id : Nat) (f : Flusher)
    {r r' : Pipeline × Stage} (hr : Pipeline.LookAlike r r') :
    (s.afterFlush id f r).LooksLike (s'.afterFlush id f r') := by
  obtain ⟨_, steering, rfl, -⟩ := h
  obtain ⟨j, rfl, hj⟩ := hr.exists_journal
  obtain ⟨p, stage⟩ := r
  have hs := looksLike_within ⟨j, rfl, hj⟩ s steering
  unfold Session.afterFlush
  dsimp only
  split
  · exact hs.sleep id _
  all_goals exact ⟨_, steering, rfl, j, rfl, hj⟩

theorem LooksLike.pursue (h : s.LooksLike s') (id : Nat) (f : Flusher) :
    (s.pursue id f).LooksLike (s'.pursue id f) := by
  have hs := h
  obtain ⟨_, steering, rfl, j, rfl, hj⟩ := h
  have hp : s.toPipeline.LooksLike { s.toPipeline with journal := j } := ⟨j, rfl, hj⟩
  unfold Session.pursue
  cases f.stage with
  | fresh => exact hs.sleep id _
  | asleep due =>
    dsimp only
    split
    · exact hs.afterFlush id _ (hp.flush _ _)
    · exact hs
  | queueing url => exact hs.afterFlush id f (hp.proceed _ _)
  | flushing q => exact hs.afterFlush id f (hp.proceed _ _)
  | ended => exact hs

theorem LooksLike.quitFlusher (h : s.LooksLike s') (id : Nat) :
    (s.quitFlusher id).LooksLike (s'.quitFlusher id) := by
  obtain ⟨_, steering, rfl, j, rfl, hj⟩ := h
  have hdrop : (s.dropTimers (.flusher id)).LooksLike
      ({ s.toPipeline with journal := j }.dropTimers (.flusher id)) := ⟨j, rfl, hj⟩
  exact ⟨_, steering, rfl, hdrop.leave _ _⟩

theorem LooksLike.flusherTurn (h : s.LooksLike s') (id : Nat) :
    (s.flusherTurn id).LooksLike (s'.flusherTurn id) := by
  have hs := h
  obtain ⟨_, steering, rfl, -⟩ := h
  unfold Session.flusherTurn
  dsimp only
  cases s.flushers[id]? with
  | none => exact hs
  | some f =>
    dsimp only
    split
    · split
      · exact (hs.pursue id f).quitFlusher id
      · exact hs.quitFlusher id
    · exact hs.pursue id f

theorem LooksLike.cancelFlusher (h : s.LooksLike s') :
    s.cancelFlusher.LooksLike s'.cancelFlusher := by
  obtain ⟨_, steering, rfl, j, rfl, hj⟩ := h
  unfold Session.cancelFlusher
  dsimp only
  split
  · exact ⟨_, steering, rfl, j, rfl, hj⟩
  · exact ⟨_, steering, rfl, j, rfl, hj⟩

theorem LooksLike.stopFlushing (h : s.LooksLike s') : s.stopFlushing.LooksLike s'.stopFlushing := by
  obtain ⟨p, steering, heq, hp⟩ := h.cancelFlusher
  unfold Session.stopFlushing
  rw [heq]
  exact ⟨p, _, rfl, hp⟩

theorem LooksLike.startFlushing (h : s.LooksLike s') (url : String) :
    (s.startFlushing url).LooksLike (s'.startFlushing url) := by
  obtain ⟨p, steering, heq, hp⟩ := h.cancelFlusher
  unfold Session.startFlushing
  rw [heq]
  exact ⟨_, _, rfl, hp.wake _⟩

/-! ### Synthetic records -/

theorem LooksLike.awaitRound (h : s.LooksLike s') (g : Generator) (due : Nat) :
    (s.awaitRound g due).LooksLike (s'.awaitRound g due) := by
  obtain ⟨_, steering, rfl, j, rfl, hj⟩ := h
  unfold Session.awaitRound
  dsimp only
  split
  · exact ⟨_, steering, rfl, j, rfl, hj⟩
  · split <;> exact ⟨_, steering, rfl, j, rfl, hj⟩

theorem LooksLike.afterRound (h : s.LooksLike s') (g : Generator) (next : Nat) (r : RoundStage) :
    (s.afterRound g next r).LooksLike (s'.afterRound g next r) := by
  cases r with
  | ended failures => exact h.awaitRound g next
  | _ =>
    obtain ⟨p, steering, rfl, hp⟩ := h
    exact ⟨p, steering, rfl, hp⟩

theorem LooksLike.runRound (h : s.LooksLike s') (g : Generator) (due : Nat) :
    (s.runRound g due).LooksLike (s'.runRound g due) := by
  have hnow := h.now
  obtain ⟨_, steering, rfl, hp⟩ := h
  obtain ⟨j, heq, hj⟩ := (hp.beginRound .generator g).exists_journal
  unfold Session.runRound
  dsimp only at hnow ⊢
  rw [heq, hnow]
  exact (looksLike_within ⟨j, rfl, hj⟩ s steering).afterRound _ _ _

theorem LooksLike.generatorTurn (h : s.LooksLike s') :
    s.generatorTurn.LooksLike s'.generatorTurn := by
  have hs := h
  obtain ⟨_, steering, rfl, j, rfl, hj⟩ := h
  have hp : s.toPipeline.LooksLike { s.toPipeline with journal := j } := ⟨j, rfl, hj⟩
  have hend (g : Generator) (stage : GeneratorStage) :
      (s.setGenerator g stage).LooksLike
        (setGenerator { s with journal := j, steering } g stage) := ⟨_, steering, rfl, j, rfl, hj⟩
  unfold Session.generatorTurn
  dsimp only
  cases s.generator.stage with
  | fresh =>
    dsimp only
    split
    · exact hend _ _
    · exact hs.runRound _ _
  | waiting due =>
    dsimp only
    split
    · exact hs.runRound _ _
    · split
      · exact ⟨_, steering, rfl, j, rfl, hj⟩
      · exact hs
  | pushing round next =>
    obtain ⟨hround, heq⟩ := hp.proceedRound .generator s.generator.config round
    dsimp only
    rw [heq]
    exact (looksLike_within hround s steering).afterRound _ _ _
  | idle => exact hs
  | ended => exact hs

/-! ### The operator -/

theorem LooksLike.afterOwnRound (h : s.LooksLike s') (left failures : Nat) (r : RoundStage) :
    (s.afterOwnRound left failures r).LooksLike (s'.afterOwnRound left failures r) := by
  induction left generalizing s s' failures r with
  | zero =>
    obtain ⟨_, steering, rfl, hp⟩ := h
    cases r <;> exact ⟨_, steering, rfl, hp⟩
  | succ left ih =>
    obtain ⟨_, steering, rfl, hp⟩ := h
    cases r with
    | ended more =>
      obtain ⟨j, heq, hj⟩ := (hp.beginRound .operator s.generator).exists_journal
      unfold Session.afterOwnRound
      dsimp only
      rw [heq]
      exact ih ⟨_, steering, rfl, j, rfl, hj⟩ _ _
    | _ => exact ⟨_, steering, rfl, hp⟩

theorem LooksLike.operatorTurn (h : s.LooksLike s') :
    s.operatorTurn.LooksLike s'.operatorTurn := by
  have hs := h
  obtain ⟨_, steering, rfl, hp⟩ := h
  unfold Session.operatorTurn
  dsimp only
  split
  next stage _ =>
    obtain ⟨hproceed, heq⟩ := hp.proceed .operator stage
    rw [heq]
    exact ⟨_, steering, rfl, hproceed⟩
  next r left failures _ =>
    obtain ⟨hround, heq⟩ := hp.proceedRound .operator s.generator.config r
    rw [heq]
    exact (looksLike_within hround s steering).afterOwnRound _ _ _
  next => exact hs

/-! ### Turns and the passage of time -/

theorem LooksLike.turn (h : s.LooksLike s') (t : Task) : (s.turn t).LooksLike (s'.turn t) := by
  cases t with
  | operator => exact h.operatorTurn
  | caller id => exact h.callerTurn id
  | worker w =>
    obtain ⟨_, steering, rfl, hp⟩ := h
    exact ⟨_, steering, rfl, hp.workerTurn w⟩
  | flusher id => exact h.flusherTurn id
  | generator => exact h.generatorTurn

theorem LooksLike.turns (h : s.LooksLike s') (n : Nat) : (s.turns n).LooksLike (s'.turns n) := by
  induction n generalizing s s' with
  | zero => exact h
  | succ n ih =>
    have hs := h
    obtain ⟨_, steering, rfl, j, rfl, hj⟩ := h
    unfold Session.turns
    dsimp only
    split
    next => exact hs
    next t ready _ =>
      have alike := looksLike_within (p := { s.toPipeline with ready }) ⟨j, rfl, hj⟩ s steering
      exact ih (alike.turn t)

theorem LooksLike.settle (h : s.LooksLike s') : s.settle.LooksLike s'.settle := by
  have hturns := h.turns s.work
  obtain ⟨_, steering, rfl, j, rfl, hj⟩ := h
  exact hturns

theorem LooksLike.moveTo (h : s.LooksLike s') (now : Nat) :
    (s.moveTo now).LooksLike (s'.moveTo now) := by
  obtain ⟨_, steering, rfl, hp⟩ := h
  exact ⟨_, steering, rfl, hp.moveTo now⟩

theorem LooksLike.stops (h : s.LooksLike s') (n target : Nat) :
    (s.stops n target).LooksLike (s'.stops n target) := by
  induction n generalizing s s' with
  | zero => exact h
  | succ n ih =>
    unfold Session.stops
    rw [h.nextDue?]
    cases s.nextDue? with
    | none => exact h
    | some due =>
      dsimp only
      split
      · exact ih (h.moveTo due).settle
      · exact h

theorem LooksLike.advance (h : s.LooksLike s') (millis : Nat) :
    (s.advance millis).LooksLike (s'.advance millis) := by
  unfold Session.advance
  rw [h.now]
  exact ((h.settle.stops _ _).moveTo _).settle

theorem LooksLike.await (h : s.LooksLike s') (n : Nat) : (s.await n).LooksLike (s'.await n) := by
  induction n generalizing s s' with
  | zero => exact h
  | succ n ih =>
    have hs := h.settle
    unfold Session.await
    dsimp only
    rw [hs.operator, hs.nextDue?]
    split
    · cases s.settle.nextDue? with
      | none => exact hs
      | some due => exact ih (hs.moveTo due)
    · exact hs

theorem LooksLike.finish (h : s.LooksLike s') : s.finish.LooksLike s'.finish := by
  unfold Session.finish
  rw [h.operator, h.patience]
  split
  · exact h.await _
  · exact h

/-! ### Operations -/

theorem LooksLike.enter (h : s.LooksLike s') (c : Call) : (s.enter c).LooksLike (s'.enter c) := by
  obtain ⟨_, steering, rfl, hp⟩ := h
  obtain ⟨hbegin, heq⟩ := hp.begin .operator c
  unfold Session.enter
  dsimp only
  rw [heq]
  exact ⟨_, steering, rfl, hbegin⟩

theorem LooksLike.enterRounds (h : s.LooksLike s') (rounds : Nat) :
    (s.enterRounds rounds).LooksLike (s'.enterRounds rounds) := by
  have hround := h.afterOwnRound rounds 0 (.ended 0)
  have hs := h
  obtain ⟨_, steering, rfl, j, rfl, hj⟩ := h
  unfold Session.enterRounds
  dsimp only
  split
  · exact hround
  · exact hs

theorem LooksLike.join (h : s.LooksLike s') (id : Nat) : LookAlike (s.join id) (s'.join id) := by
  obtain ⟨p, steering, rfl, hp⟩ := h
  unfold Session.join
  dsimp only
  split <;> exact ⟨⟨p, steering, rfl, hp⟩, rfl⟩

theorem LooksLike.startGenerator (h : s.LooksLike s') (period : Duration) :
    (s.startGenerator period).LooksLike (s'.startGenerator period) := by
  obtain ⟨p, steering, rfl, hp⟩ := h
  unfold Session.startGenerator
  dsimp only
  split
  · exact ⟨_, steering, rfl, hp.wake _⟩
  · exact ⟨p, steering, rfl, hp⟩

theorem LooksLike.stopGenerator (h : s.LooksLike s') :
    s.stopGenerator.LooksLike s'.stopGenerator := by
  obtain ⟨p, steering, rfl, hp⟩ := h
  unfold Session.stopGenerator Session.setGenerator
  dsimp only
  split
  · exact ⟨_, steering, rfl, hp.wake _⟩
  · exact ⟨p, steering, rfl, hp⟩

theorem LooksLike.start (h : s.LooksLike s') (op : Operation) :
    LookAlike (s.start op) (s'.start op) := by
  have hs := h
  obtain ⟨_, steering, rfl, j, rfl, hj⟩ := h
  have hp : s.toPipeline.LooksLike { s.toPipeline with journal := j } := ⟨j, rfl, hj⟩
  cases op with
  | call c => exact ⟨hs.enter c, rfl⟩
  | background c => exact ⟨⟨_, steering, rfl, hp.wake _⟩, rfl⟩
  | join id => exact hs.join id
  | startWorkers workers capacity =>
    exact ⟨⟨_, steering, rfl, hp.startWorkers workers capacity⟩, rfl⟩
  | setCounter | addCounter | increment | decrement | deleteCounter =>
    exact ⟨⟨_, steering, rfl, hp.count _⟩, rfl⟩
  | adjustHistory | identify | setClock | advanceClock =>
    exact ⟨⟨_, steering, rfl, _, rfl, hj.add _⟩, rfl⟩
  | adjustKpiHistory n => exact ⟨⟨_, steering, rfl, j, rfl, hj⟩, rfl⟩
  | startFlushing url => exact ⟨hs.startFlushing url, rfl⟩
  | stopFlushing => exact ⟨hs.stopFlushing, rfl⟩
  | posts => exact ⟨⟨_, steering, rfl, _, rfl, hj.showPosts⟩, congrArg Answer.posts hj.sortedPosts⟩
  | hooks => exact ⟨⟨_, steering, rfl, _, rfl, hj.showHooks⟩, congrArg Answer.hooks hj.sortedHooks⟩
  | logs => exact ⟨⟨_, steering, rfl, _, rfl, hj.showLogs⟩, congrArg Answer.logs hj.sortedLogs⟩
  | generate rounds => exact ⟨hs.enterRounds rounds, rfl⟩
  | startGenerator period => exact ⟨hs.startGenerator period, rfl⟩
  | stopGenerator => exact ⟨hs.stopGenerator, rfl⟩
  | _ => exact ⟨hs, rfl⟩

theorem LooksLike.collect (h : s.LooksLike s') : LookAlike s.collect s'.collect := by
  obtain ⟨p, steering, rfl, hp⟩ := h
  unfold Session.collect
  dsimp only
  split <;> exact ⟨⟨p, steering, rfl, hp⟩, rfl⟩

theorem LooksLike.conclude (h : s.LooksLike s') (a : Answer) (op : Operation) :
    LookAlike (s.conclude a op) (s'.conclude a op) := by
  have hcollect := h.finish.collect
  unfold Session.conclude
  split
  · exact hcollect
  · exact hcollect
  · exact h.settle.answering a
  · exact h.settle.answering a
  · exact h.settle.answering a
  · exact (h.advance _).answering a
  · exact h.answering a

theorem LooksLike.perform (h : s.LooksLike s') (op : Operation) :
    LookAlike (s.perform op) (s'.perform op) := by
  obtain ⟨hstart, hanswer⟩ := h.start op
  unfold Session.perform
  dsimp only
  rw [h.operator, hanswer]
  split
  · exact hstart.conclude _ op
  · exact ⟨h, rfl⟩

theorem LooksLike.performTimes (h : s.LooksLike s') (op : Operation) (n : Nat) :
    LookAlike (s.performTimes op n) (s'.performTimes op n) := by
  induction n generalizing s s' with
  | zero => exact ⟨h, rfl⟩
  | succ n ih =>
    have hfirst := h.perform op
    cases n with
    | zero => exact hfirst
    | succ n => exact ih hfirst.1

/-- Runs of the same operations have the same answers at the same times. -/
theorem LooksLike.run (h : s.LooksLike s') (script : List (Operation × Nat)) :
    s'.run script = s.run script := by
  induction script generalizing s s' with
  | nil => rfl
  | cons e script ih =>
    obtain ⟨hfirst, hanswer⟩ := h.performTimes e.1 e.2
    unfold Session.run
    dsimp only
    rw [hfirst.now, hanswer, ih hfirst]

end Session

end Uplink
