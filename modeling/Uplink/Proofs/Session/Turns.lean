import Uplink.Proofs.Session.Hands
/-!
What is so whenever a task has begun a call or taken one up is so at the end of each of its turns.
-/
namespace Uplink

namespace Pipeline

/-- A task that has begun a call, or taken one up, leaves the pipeline and what it has in hand as
`Q` says; and so it does with nothing in hand. -/
structure Ensures (Q : Task → Pipeline → Hand → Prop) : Prop where
  free : ∀ t p, Q t p .free
  submit : ∀ (t : Task) (p : Pipeline) (j : Job) (deadline : Duration),
    Q t (p.submit t j deadline).1 (.ofStage (p.submit t j deadline).2)
  flush : ∀ (t : Task) (p : Pipeline) (url : String), t ∉ p.line →
    Q t (p.flush t url).1 (.ofStage (p.flush t url).2)
  post : ∀ (t : Task) (p : Pipeline) (q : Posting), p.now < q.due →
    Q t p (.waiting (.posting q))
  proceed : ∀ (t : Task) (p : Pipeline) (stage : Stage),
    Q t (p.proceed t stage).1 (.ofStage (p.proceed t stage).2)

variable {Q : Task → Pipeline → Hand → Prop} {t : Task} {p : Pipeline}

theorem Ensures.begin (hQ : Ensures Q) (absent : t ∉ p.line) (c : Call) :
    Q t (p.begin t c).1 (.ofStage (p.begin t c).2) := by
  unfold Pipeline.begin
  split
  · exact hQ.free t _
  · exact hQ.submit t _ _ _
  · exact hQ.free t _
  · exact hQ.submit t _ _ _
  · exact hQ.flush t _ _ (by exact absent)
  · dsimp only
    split
    next => exact hQ.free t _
    next later => exact hQ.post t _ _ (Nat.lt_of_not_le later)

/-! ### Rounds -/

theorem Ensures.pushRecords (hQ : Ensures Q) (t : Task) (c : AgentConfig) (records : List Report)
    (p : Pipeline) (failures : Nat) :
    Q t (p.pushRecords t c records failures).1 (p.pushRecords t c records failures).2.hand := by
  induction records generalizing p failures with
  | nil => exact hQ.free t _
  | cons r rest ih =>
    have hpush (url : String) (timeout : Duration) :
        Q t (p.begin t (.push url (.ok r) timeout)).1
          (.ofStage (p.begin t (.push url (.ok r) timeout)).2) := hQ.submit t _ _ _
    unfold Pipeline.pushRecords
    dsimp only
    split
    next =>
      split
      · exact ih _ _
      · exact hQ.free t _
    next => exact hpush _ _

theorem Ensures.proceedRound (hQ : Ensures Q) (t : Task) (p : Pipeline) (c : AgentConfig)
    (r : Round) : Q t (p.proceedRound t c r).1 (p.proceedRound t c r).2.hand := by
  have hproceed := hQ.proceed t p r.stage
  unfold Pipeline.proceedRound
  dsimp only
  split
  next =>
    split
    · exact hQ.pushRecords t c _ _ _
    · exact hQ.free t _
  next => exact hproceed

theorem Ensures.beginRound (hQ : Ensures Q) (t : Task) (p : Pipeline) (g : Generator) :
    Q t (p.beginRound t g).1 (p.beginRound t g).2.2.hand :=
  hQ.pushRecords t g.config (Demo.records (g.rounds + 1)) p 0

end Pipeline

namespace Session

open Pipeline

variable {Q : Task → Pipeline → Hand → Prop} {s : Session} {t : Task}

/-! ### Calls in the background and periodic flushes -/

theorem ensures_callerTurn (hQ : Ensures Q) (s : Session) (id : Nat)
    (absent : s.hand (.caller id) = .free → .caller id ∉ s.line) :
    Q (.caller id) (s.callerTurn id).toPipeline ((s.callerTurn id).hand (.caller id)) := by
  have hkeep (hid : id < s.callers.length) (r : Pipeline × Stage)
      (hr : Q (.caller id) r.1 (.ofStage r.2)) :
      Q (.caller id) r.1
        (hand { s with toPipeline := r.1, callers := s.callers.set id (.under r.2) }
          (.caller id)) := by
    simpa [hand, hid, Caller.hand] using hr
  unfold callerTurn
  dsimp only
  split
  next c hc =>
    obtain ⟨hid, _⟩ := List.getElem?_eq_some_iff.mp hc
    have hh : s.hand (.caller id) = .free := by simp [hand, hc, Caller.hand]
    exact hkeep hid _ (hQ.begin (absent hh) c)
  next stage hc =>
    obtain ⟨hid, _⟩ := List.getElem?_eq_some_iff.mp hc
    exact hkeep hid _ (hQ.proceed _ _ stage)
  next hfresh hunder =>
    have hh : s.hand (.caller id) = .free := by
      cases hc : s.callers[id]? with
      | none => simp [hand, hc]
      | some caller =>
        cases caller with
        | fresh c => exact absurd hc (hfresh c)
        | under stage => exact absurd hc (hunder stage)
        | answered => simp [hand, hc, Caller.hand]
    exact hh ▸ hQ.free _ _

theorem hand_setFlusher {id : Nat} (hid : id < s.flushers.length) (f : Flusher) :
    (s.setFlusher id f).hand (.flusher id) = f.stage.hand := by
  simp [hand, setFlusher, hid]

theorem ensures_sleep (hQ : Ensures Q) {id : Nat} (hid : id < s.flushers.length) (f : Flusher) :
    Q (.flusher id) (s.sleep id f).toPipeline ((s.sleep id f).hand (.flusher id)) := by
  unfold sleep
  split
  next =>
    rw [hand_setFlusher hid]
    exact hQ.free _ _
  next =>
    dsimp only
    rw [hand_setFlusher (by exact hid)]
    exact hQ.free _ _

theorem ensures_afterFlush (hQ : Ensures Q) {id : Nat} (hid : id < s.flushers.length) (f : Flusher)
    {r : Pipeline × Stage} (hr : Q (.flusher id) r.1 (.ofStage r.2)) :
    Q (.flusher id) (s.afterFlush id f r).toPipeline
      ((s.afterFlush id f r).hand (.flusher id)) := by
  obtain ⟨p, stage⟩ := r
  unfold afterFlush
  dsimp only
  split
  next => exact ensures_sleep hQ (by exact hid) _
  next url =>
    rw [hand_setFlusher (by exact hid)]
    exact hr
  next q =>
    rw [hand_setFlusher (by exact hid)]
    exact hr
  next =>
    rw [hand_setFlusher (by exact hid)]
    exact hQ.free _ _

theorem ensures_pursue (hQ : Ensures Q) {id : Nat} {f : Flusher} (hf : s.flushers[id]? = some f)
    (absent : s.hand (.flusher id) = .free → .flusher id ∉ s.line) :
    Q (.flusher id) (s.pursue id f).toPipeline ((s.pursue id f).hand (.flusher id)) := by
  obtain ⟨hid, _⟩ := List.getElem?_eq_some_iff.mp hf
  have hh : s.hand (.flusher id) = f.stage.hand := by simp [hand, hf]
  unfold pursue
  dsimp only
  split
  next => exact ensures_sleep hQ hid _
  next due hs =>
    have hfree : s.hand (.flusher id) = .free := by rw [hh, hs]; rfl
    split
    next => exact ensures_afterFlush hQ hid _ (hQ.flush _ _ _ (absent hfree))
    next => exact hfree ▸ hQ.free _ _
  next url hs => exact ensures_afterFlush hQ hid f (hQ.proceed _ _ (.queueing url))
  next q hs => exact ensures_afterFlush hQ hid f (hQ.proceed _ _ (.flushing q))
  next hs =>
    have hfree : s.hand (.flusher id) = .free := by rw [hh, hs]; rfl
    exact hfree ▸ hQ.free _ _

theorem ensures_flusherTurn (hQ : Ensures Q) (s : Session) (id : Nat)
    (absent : s.hand (.flusher id) = .free → .flusher id ∉ s.line) :
    Q (.flusher id) (s.flusherTurn id).toPipeline ((s.flusherTurn id).hand (.flusher id)) := by
  unfold flusherTurn
  split
  next hf =>
    have hh : s.hand (.flusher id) = .free := by simp [hand, hf]
    exact hh ▸ hQ.free _ _
  next f hf =>
    split
    next => exact hand_quitFlusher _ id ▸ hQ.free _ _
    next => exact ensures_pursue hQ hf absent

/-! ### Rounds of synthetic records -/

theorem ensures_afterRound (hQ : Ensures Q) (s : Session) (g : Generator) (next : Nat)
    {r : RoundStage} (hr : Q .generator s.toPipeline r.hand) :
    Q .generator (s.afterRound g next r).toPipeline ((s.afterRound g next r).hand .generator) := by
  cases r with
  | ended failures =>
    obtain ⟨ready, timers, stage, heq, hstage⟩ := s.awaitRound_eq g next
    show Q _ (s.awaitRound g next).toPipeline ((s.awaitRound g next).hand .generator)
    rw [heq, show hand { s with ready, timers, generator := { g with stage } } .generator = .free
      from hstage]
    exact hQ.free _ _
  | crashed => exact hQ.free _ _
  | under r => exact hr

theorem ensures_generatorTurn (hQ : Ensures Q) (s : Session) :
    Q .generator s.generatorTurn.toPipeline (s.generatorTurn.hand .generator) := by
  have hself (hs : s.generator.stage.hand = .free) :
      Q .generator s.toPipeline (s.hand .generator) := by
    rw [show s.hand .generator = .free from hs]
    exact hQ.free _ _
  have hrun (due : Nat) : Q .generator (s.runRound s.generator due).toPipeline
      ((s.runRound s.generator due).hand .generator) :=
    ensures_afterRound hQ _ _ _ (hQ.beginRound _ _ _)
  unfold generatorTurn
  dsimp only
  split
  next =>
    split
    · exact hQ.free _ _
    · exact hrun _
  next due hs =>
    split
    · exact hrun due
    · split
      · exact hQ.free _ _
      · exact hself (by rw [hs]; rfl)
  next r next hs => exact ensures_afterRound hQ _ _ next (hQ.proceedRound _ _ _ r)
  next hs => exact hself (by rw [hs]; rfl)
  next hs => exact hself (by rw [hs]; rfl)

theorem ensures_afterOwnRound (hQ : Ensures Q) (s : Session) (left failures : Nat)
    {r : RoundStage} (hr : Q .operator s.toPipeline r.hand) :
    Q .operator (s.afterOwnRound left failures r).toPipeline
      ((s.afterOwnRound left failures r).hand .operator) := by
  induction left generalizing s failures r with
  | zero =>
    cases r with
    | under r => exact hr
    | _ => exact hQ.free _ _
  | succ left ih =>
    cases r with
    | ended more => exact ih _ _ (hQ.beginRound _ s.toPipeline s.generator)
    | crashed => exact hQ.free _ _
    | under r => exact hr

/-! ### Moves -/

theorem ensures_operatorTurn (hQ : Ensures Q) (s : Session) :
    Q .operator s.operatorTurn.toPipeline (s.operatorTurn.hand .operator) := by
  unfold operatorTurn
  split
  next stage ho => exact hQ.proceed .operator s.toPipeline stage
  next r left failures ho =>
    exact ensures_afterOwnRound hQ _ left failures (hQ.proceedRound _ _ _ r)
  next hcalling hgenerating =>
    have hh : s.hand .operator = .free := by
      cases ho : s.operator with
      | calling stage => exact absurd ho (hcalling stage)
      | generating r left failures => exact absurd ho (hgenerating r left failures)
      | _ => simp [hand, ho, Operator.hand]
    exact hh ▸ hQ.free _ _

theorem ensures_turn (hQ : Ensures Q) (s : Session) (t : Task)
    (absent : s.hand t = .free → t ∉ s.line) : Q t (s.turn t).toPipeline ((s.turn t).hand t) := by
  cases t with
  | operator => exact ensures_operatorTurn hQ s
  | caller id => exact ensures_callerTurn hQ s id absent
  | worker w => exact hQ.free _ _
  | flusher id => exact ensures_flusherTurn hQ s id absent
  | generator => exact ensures_generatorTurn hQ s

/-- Only a call or rounds of synthetic records can leave the operator with something in hand. -/
theorem ensures_start (hQ : Ensures Q) (s : Session) (op : Operation) (free : s.operator.isFree)
    (absent : .operator ∉ s.line) :
    Q .operator (s.start op).1.toPipeline ((s.start op).1.hand .operator) := by
  have hfree := hand_operator_of_isFree free
  have hsame {s' : Session} (hs : s'.hand = s.hand) :
      Q .operator s'.toPipeline (s'.hand .operator) := by
    rw [hs, hfree]
    exact hQ.free _ _
  cases op with
  | call c => exact hQ.begin absent c
  | background c => exact hsame (hand_appendCaller s _ c)
  | join id => exact hsame (hand_join s id)
  | startFlushing url => exact hsame (hand_startFlushing s url)
  | stopFlushing => exact hsame (hand_cancelFlusher s)
  | generate rounds =>
    show Q _ (s.enterRounds rounds).toPipeline ((s.enterRounds rounds).hand .operator)
    unfold enterRounds
    split
    · exact ensures_afterOwnRound hQ s rounds 0 (hQ.free _ _)
    · exact hsame rfl
  | startGenerator period =>
    show Q _ (s.startGenerator period).toPipeline ((s.startGenerator period).hand .operator)
    unfold startGenerator
    split
    next hs => exact hsame (hand_setGenerator_of_eq _ _ (by rw [hs]; rfl))
    next => exact hsame rfl
  | stopGenerator =>
    show Q _ s.stopGenerator.toPipeline (s.stopGenerator.hand .operator)
    unfold stopGenerator
    dsimp only
    split
    · exact hsame (hand_setGenerator_of_eq _ _ rfl)
    · exact hsame (hand_setGenerator_of_eq s.toPipeline _ rfl)
  | _ => exact hsame rfl

end Session

end Uplink
