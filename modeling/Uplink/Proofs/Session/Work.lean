import Mathlib.Logic.Relation
import Uplink.Proofs.Dispatch.Pool
import Uplink.Proofs.Session.Step
import Uplink.Session.Rounds
/-!
What tasks do is a run of steps: a call from its beginning or from where it waited, the turn of a
worker, and a round of synthetic records.
-/
namespace Uplink

namespace Pipeline

variable {quits : Prop} {t : Task} {p p' : Pipeline} {h : Hand}

@[simp] theorem startWorkers_now (p : Pipeline) (workers capacity : Nat) :
    (p.startWorkers workers capacity).now = p.now := by
  unfold startWorkers
  split <;> rfl

/-! ### Calls -/

theorem fallback_steps {c : Call} {j : Job} {deadline : Duration} {p₁ : Pipeline}
    {refusal : Refusal} (hs : Submits t p c j deadline p₁)
    (hd : p₁.dispatcher.offer j = .error refusal) (line : LogEntry) :
    Steps quits t p .free ((p₁.note (.logged line)).fallback t j deadline).1
      (.ofStage ((p₁.note (.logged line)).fallback t j deadline).2) := by
  have hdivert : Step quits t p .free _ (.waiting (.delivering _)) := .divert (l := line) hs hd rfl
  unfold fallback
  dsimp only
  split
  next due => exact hdivert.steps.tail (.deliver due)
  next => exact hdivert.steps

theorem submit_steps {c : Call} {j : Job} {deadline : Duration} {p₀ : Pipeline}
    (hs : Submits t p c j deadline ((p₀.note (.submitted t j)).startWorkers 0 0)) :
    Steps quits t p .free (p₀.submit t j deadline).1 (.ofStage (p₀.submit t j deadline).2) := by
  unfold submit
  dsimp only
  split
  next d hd => exact (Step.queue hs hd).steps
  next hd => exact fallback_steps hs hd _
  next hd => exact fallback_steps hs hd _

theorem land_steps {q : Posting} (due : q.due ≤ p.now) :
    Steps quits t p (.waiting (.flushing q)) (p.land t q).1 .free := by
  unfold land
  split
  next hf => exact (Step.fail due (.inl hf)).steps
  next f hf =>
    split
    next ho => exact (Step.land due hf ho).steps
    next e ho =>
      exact (Step.log _).steps.tail
        (.fail due (.inr (by simp [ho])))
    next ho => exact (Step.fail due (.inr (by simp [ho]))).steps

theorem depart_steps {url : String} (turn : p.line.head? = some t) :
    Steps quits t p (.waiting (.queueing url)) (p.depart t url).1
      (.ofStage (p.depart t url).2) := by
  unfold depart
  split
  next hf => exact (Step.skip turn hf).steps
  next f hf =>
    have hdepart : Step quits t p (.waiting (.queueing url)) _ (.waiting (.flushing _)) :=
      .depart turn hf rfl
    dsimp only
    split
    next due => exact hdepart.steps.trans (land_steps due)
    next => exact hdepart.steps

theorem flush_steps (p : Pipeline) (t : Task) (url : String) :
    Steps quits t p .free (p.flush t url).1 (.ofStage (p.flush t url).2) := by
  have hjoin : Step quits t p .free _ (.waiting (.queueing url)) := .join url
  unfold flush
  dsimp only
  split
  next hempty =>
    have hline : p.line = [] := List.isEmpty_iff.mp hempty
    exact hjoin.steps.trans (depart_steps (by simp [hline]))
  next => exact hjoin.steps

theorem depart_ofFlush (p : Pipeline) (t : Task) (url : String) :
    (p.depart t url).2.ofFlush := by
  unfold depart
  split
  · rfl
  · dsimp only
    split <;> rfl

theorem flush_ofFlush (p : Pipeline) (t : Task) (url : String) : (p.flush t url).2.ofFlush := by
  unfold flush
  dsimp only
  split
  · exact depart_ofFlush _ t url
  · rfl

/-- A call that flushes goes on flushing until it is over. -/
theorem proceed_ofFlush (p : Pipeline) (t : Task) {stage : Stage} (h : stage.ofFlush) :
    (p.proceed t stage).2.ofFlush := by
  cases stage with
  | ended r => rfl
  | queueing url =>
    unfold proceed
    dsimp only
    split
    · exact depart_ofFlush p t url
    · rfl
  | flushing q =>
    unfold proceed
    dsimp only
    split <;> rfl
  | _ => exact absurd h (by simp [Stage.ofFlush])

theorem begin_steps (p : Pipeline) (t : Task) (c : Call) :
    Steps quits t p .free (p.begin t c).1 (.ofStage (p.begin t c).2) := by
  unfold begin
  split
  next => exact (Step.call _ rfl).steps
  next url r timeout =>
    exact submit_steps (.push url r timeout rfl)
  next => exact (Step.call _ rfl).steps
  next url body deadline => exact submit_steps (.submit url body deadline)
  next url => exact (Step.call _ rfl).steps.trans (flush_steps _ t url)
  next url body deadline =>
    have hdirect : Steps quits t p .free _ (.waiting (.posting _)) :=
      (Step.call (.post url body deadline) rfl).steps.tail (.direct url body deadline rfl)
    dsimp only
    split
    next due => exact hdirect.tail (.answered due)
    next => exact hdirect

theorem proceed_steps (p : Pipeline) (t : Task) (stage : Stage) :
    Steps quits t p (.ofStage stage) (p.proceed t stage).1 (.ofStage (p.proceed t stage).2) := by
  unfold proceed
  split
  next => exact .refl _ _
  next q =>
    split
    next due => exact (Step.deliver due).steps
    next => exact .refl _ _
  next q =>
    split
    next due => exact (Step.answered due).steps
    next => exact .refl _ _
  next url =>
    split
    next turn => exact depart_steps turn
    next => exact .refl _ _
  next q =>
    split
    next due => exact land_steps due
    next => exact .refl _ _

/-! ### Workers -/

theorem finishJob_engage (p : Pipeline) (w : Nat) (q : Posting) :
    ({ p with dispatcher := p.dispatcher.engage w q } : Pipeline).finishJob w q
      = p.finishJob w q := by
  have hreport : ({ p with dispatcher := p.dispatcher.engage w q } : Pipeline).outcomeReport q
      = p.outcomeReport q := rfl
  simp only [finishJob, hreport, Dispatcher.release_engage, Dispatcher.queued_engage]

/-- Steps between which the task has nothing in hand. -/
def IdleSteps (quits : Prop) (t : Task) : Pipeline → Pipeline → Prop :=
  Relation.ReflTransGen fun p p' => Step quits t p .free p' .free

theorem Step.idleSteps (hs : Step quits t p .free p' .free) : IdleSteps quits t p p' := .single hs

theorem IdleSteps.tail {p'' : Pipeline} (h : IdleSteps quits t p p')
    (hs : Step quits t p' .free p'' .free) :
    IdleSteps quits t p p'' := Relation.ReflTransGen.tail h hs

theorem IdleSteps.steps (h : IdleSteps quits t p p') : Steps quits t p .free p' .free := by
  induction h with
  | refl => exact .refl _ _
  | tail _ hs ih => exact ih.tail hs

/-- A worker holds nothing but the POST it is busy with. -/
theorem seekJob_idleSteps (p : Pipeline) (w : Nat) :
    IdleSteps quits (.worker w) p (p.seekJob w) := by
  unfold seekJob
  split
  next idle =>
    split
    next d hd => exact (Step.seek idle hd).idleSteps
    next d j hd =>
      have hidle : d.worker? w = some .idle := by
        have hkeep := (p.dispatcher.seek_eq w).2.2.2 w
        rwa [hd, idle] at hkeep
      have htake : Step quits (.worker w) p .free _ .free := .take idle hd rfl
      dsimp only
      split
      next due =>
        have hbusy := Dispatcher.worker?_engage (d := d) (w := w) (by simp [hidle])
          (.ofReply j.url p.now d.workerTimeout (p.receiver.answer j.url).1)
        have hfinish := htake.idleSteps.tail (.finish hbusy due)
        exact (finishJob_engage _ w _ ▸ hfinish).tail .resume
      next => exact htake.idleSteps
  next => exact .refl

theorem seekJob_steps (p : Pipeline) (w : Nat) :
    Steps quits (.worker w) p .free (p.seekJob w) .free := (seekJob_idleSteps p w).steps

theorem workerTurn_idleSteps (p : Pipeline) (w : Nat) :
    IdleSteps quits (.worker w) p (p.workerTurn w) := by
  unfold workerTurn
  split
  next q busy =>
    split
    next due => exact Relation.ReflTransGen.head (.finish busy due) (seekJob_idleSteps _ w)
    next => exact .refl
  next => exact seekJob_idleSteps p w

theorem workerTurn_steps (p : Pipeline) (w : Nat) :
    Steps quits (.worker w) p .free (p.workerTurn w) .free := (workerTurn_idleSteps p w).steps

/-! ### Rounds -/

namespace RoundStage

def hand : RoundStage → Hand
  | under r => .ofStage r.stage
  | _ => .free

end RoundStage

theorem notePush_steps (p : Pipeline) (t : Task) (kind : Kind) (r : CallResult) (failures : Nat) :
    Steps quits t p .free (p.notePush kind r failures).1 .free := by
  unfold notePush
  split
  · exact .refl _ _
  · exact (Step.log _).steps
  · exact .refl _ _

theorem countRound_steps (p : Pipeline) (t : Task) (failures : Nat) :
    Steps quits t p .free (p.countRound failures) .free := by
  have hcount : Steps quits t p .free _ .free :=
    (Step.count (.increment "DEMO.Rounds")).steps.tail (.count (.addOf "DEMO.Records" (.ofNat 5)))
  unfold countRound
  dsimp only
  split
  · exact hcount
  · exact hcount.tail (.count _)

theorem pushRecords_steps (t : Task) (c : AgentConfig) (records : List Report) (p : Pipeline)
    (failures : Nat) :
    Steps quits t p .free (p.pushRecords t c records failures).1
      (p.pushRecords t c records failures).2.hand := by
  induction records generalizing p failures with
  | nil => exact countRound_steps p t failures
  | cons r rest ih =>
    have hbegin := @begin_steps quits p t (.push (c.endpoint r.kind.path) (.ok r) c.pushTimeout)
    unfold pushRecords
    dsimp only
    split
    next result hstage =>
      have hnote := @notePush_steps quits (p.begin t (.push (c.endpoint r.kind.path) (.ok r)
        c.pushTimeout)).1 t r.kind result failures
      rw [hstage] at hbegin
      split
      next p' failures' hp =>
        rw [hp] at hnote
        exact (hbegin.trans hnote).trans (ih p' failures')
      next p' hp =>
        rw [hp] at hnote
        exact hbegin.trans hnote
    next => exact hbegin

theorem proceedRound_steps (p : Pipeline) (t : Task) (c : AgentConfig) (r : Round) :
    Steps quits t p (.ofStage r.stage) (p.proceedRound t c r).1 (p.proceedRound t c r).2.hand := by
  have hproceed := @proceed_steps quits p t r.stage
  unfold proceedRound
  dsimp only
  split
  next result hstage =>
    have hnote := @notePush_steps quits (p.proceed t r.stage).1 t r.kind result r.failures
    rw [hstage] at hproceed
    split
    next p' failures' hp =>
      rw [hp] at hnote
      exact (hproceed.trans hnote).trans (pushRecords_steps t c r.rest p' failures')
    next p' hp =>
      rw [hp] at hnote
      exact hproceed.trans hnote
  next => exact hproceed

theorem beginRound_steps (p : Pipeline) (t : Task) (g : Generator) :
    Steps quits t p .free (p.beginRound t g).1 (p.beginRound t g).2.2.hand :=
  pushRecords_steps t g.config (Demo.records (g.rounds + 1)) p 0

end Pipeline

end Uplink
