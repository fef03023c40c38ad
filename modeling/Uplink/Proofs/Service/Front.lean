import Uplink.Proofs.Service.Chronicle
/-!
What completes records and keeps them changes by pushes and by the operator's own doing only.  No
turn of a task changes it unless the task pushes a record, however deliveries and flushes go.
-/
namespace Uplink

namespace Pipeline

variable {t : Task} {p : Pipeline}

/-! ### Calls -/

@[simp] theorem front_deliver (p : Pipeline) (t : Task) (q : Posting) :
    (p.deliver t q).1.front = p.front := by
  rw [deliver_eq]
  rfl

@[simp] theorem front_fallback (p : Pipeline) (t : Task) (j : Job) (deadline : Duration) :
    (p.fallback t j deadline).1.front = p.front := by
  unfold fallback
  dsimp only
  split
  · rw [front_deliver]
    rfl
  · rfl

@[simp] theorem front_submit (p : Pipeline) (t : Task) (j : Job) (deadline : Duration) :
    (p.submit t j deadline).1.front = p.front := by
  unfold submit
  dsimp only
  split
  · exact front_startWorkers (p.note _) 0 0
  · rw [front_fallback]
    exact front_startWorkers (p.note _) 0 0
  · rw [front_fallback]
    exact front_startWorkers (p.note _) 0 0

@[simp] theorem front_land (p : Pipeline) (t : Task) (q : Posting) :
    (p.land t q).1.front = p.front := by
  unfold land
  split
  · exact front_leave p t _
  · split
    · exact front_leave _ t _
    · exact front_leave _ t _
    · exact front_leave p t _

@[simp] theorem front_depart (p : Pipeline) (t : Task) (url : String) :
    (p.depart t url).1.front = p.front := by
  unfold depart
  split
  next => exact front_leave p t _
  next f hf =>
    dsimp only
    split
    · rw [front_land]
      exact front_launch p t f
    · exact front_launch p t f

@[simp] theorem front_flush (p : Pipeline) (t : Task) (url : String) :
    (p.flush t url).1.front = p.front := by
  unfold flush
  dsimp only
  split
  · exact front_depart _ t url
  · rfl

@[simp] theorem front_proceed (p : Pipeline) (t : Task) (stage : Stage) :
    (p.proceed t stage).1.front = p.front := by
  unfold proceed
  split
  · rfl
  · split
    · exact front_deliver p t _
    · rfl
  · split <;> rfl
  · split
    · exact front_depart p t _
    · rfl
  · split
    · exact front_land p t _
    · rfl

/-- What completes records and keeps them after a call: a push goes through its service before
anything else becomes of it. -/
def frontAfter (p : Pipeline) : Call → Front
  | .push _ (.ok r) _ =>
    ((p.system.map (SystemClock.readBy · r.kind)).map SystemClock.services, p.clock, p.identity,
      (p.services.push (p.stamp r.kind) p.identity.neUid r).1)
  | _ => p.front

theorem front_begin (p : Pipeline) (t : Task) (c : Call) :
    (p.begin t c).1.front = p.frontAfter c := by
  unfold begin
  split
  · rfl
  · exact front_submit _ t _ _
  · rfl
  · exact front_submit _ t _ _
  · exact front_flush _ t _
  · dsimp only
    split <;> rfl

/-! ### Workers -/

theorem front_seekJob (p : Pipeline) (w : Nat) : (p.seekJob w).front = p.front := by
  unfold seekJob
  split
  · split
    · rfl
    · dsimp only
      split <;> rfl
  · rfl

@[simp] theorem front_workerTurn (p : Pipeline) (w : Nat) : (p.workerTurn w).front = p.front := by
  unfold workerTurn
  split
  · split
    · exact front_seekJob _ w
    · rfl
  · exact front_seekJob p w

@[simp] theorem front_moveTo (p : Pipeline) (now : Nat) : (p.moveTo now).front = p.front :=
  moveTo_timeless (fun _ _ _ _ => rfl) p now

end Pipeline

namespace Session

open Pipeline

variable {s s' : Session}

/-- Nothing but flushers, workers and the course of things differs. -/
structure Aside (s s' : Session) : Prop where
  front : s'.front = s.front
  operator : s'.operator = s.operator
  callers : s'.callers = s.callers
  generator : s'.generator = s.generator

theorem Aside.refl (s : Session) : s.Aside s := ⟨rfl, rfl, rfl, rfl⟩

theorem Aside.trans {s' s'' : Session} (h : s.Aside s') (h' : s'.Aside s'') : s.Aside s'' :=
  ⟨h'.front.trans h.front, h'.operator.trans h.operator, h'.callers.trans h.callers,
    h'.generator.trans h.generator⟩

/-! ### Periodic flushes -/

theorem aside_sleep {p : Pipeline} (hp : p.front = s.front) (id : Nat) (f : Flusher) :
    s.Aside (sleep { s with toPipeline := p } id f) := by
  unfold sleep
  split <;> exact ⟨hp, rfl, rfl, rfl⟩

theorem aside_afterFlush (s : Session) (id : Nat) (f : Flusher) {r : Pipeline × Stage}
    (hr : r.1.front = s.front) : s.Aside (s.afterFlush id f r) := by
  unfold afterFlush
  dsimp only
  split
  · exact aside_sleep hr id _
  · exact ⟨hr, rfl, rfl, rfl⟩
  · exact ⟨hr, rfl, rfl, rfl⟩
  · exact ⟨hr, rfl, rfl, rfl⟩

theorem aside_pursue (s : Session) (id : Nat) (f : Flusher) : s.Aside (s.pursue id f) := by
  unfold pursue
  dsimp only
  split
  · exact aside_sleep rfl id _
  · split
    · exact aside_afterFlush s id _ (front_flush _ _ _)
    · exact .refl s
  · exact aside_afterFlush s id _ (front_proceed _ _ _)
  · exact aside_afterFlush s id _ (front_proceed _ _ _)
  · exact .refl s

theorem aside_quitFlusher (s : Session) (id : Nat) : s.Aside (s.quitFlusher id) :=
  ⟨front_leave _ _ _, rfl, rfl, rfl⟩

theorem aside_flusherTurn (s : Session) (id : Nat) : s.Aside (s.flusherTurn id) := by
  unfold flusherTurn
  split
  next => exact .refl s
  next f _ =>
    split
    next =>
      split
      next => exact (aside_pursue s id f).trans (aside_quitFlusher _ id)
      next => exact aside_quitFlusher s id
    next => exact aside_pursue s id f

theorem aside_cancelFlusher (s : Session) : s.Aside s.cancelFlusher := by
  unfold cancelFlusher
  split
  · exact .refl s
  · exact ⟨rfl, rfl, rfl, rfl⟩

/-! ### The operator -/

theorem operator_afterRound (s : Session) (g : Generator) (next : Nat) (r : RoundStage) :
    (s.afterRound g next r).operator = s.operator := by
  cases r with
  | ended failures =>
    obtain ⟨ready, timers, stage, heq, -⟩ := s.awaitRound_eq g next
    exact (congrArg Session.operator heq).trans rfl
  | _ => rfl

theorem operator_generatorTurn (s : Session) : s.generatorTurn.operator = s.operator := by
  unfold generatorTurn
  dsimp only
  split
  · split
    · rfl
    · exact operator_afterRound _ _ _ _
  · split
    · exact operator_afterRound _ _ _ _
    · split <;> rfl
  · exact operator_afterRound _ _ _ _
  · rfl
  · rfl

/-- Only its own turn changes what the operator is at. -/
theorem operator_turn {t : Task} (ht : t ≠ .operator) (s : Session) :
    (s.turn t).operator = s.operator := by
  cases t with
  | operator => exact absurd rfl ht
  | caller id =>
    show (s.callerTurn id).operator = _
    unfold callerTurn
    dsimp only
    split <;> rfl
  | worker w => rfl
  | flusher id => exact (aside_flusherTurn s id).operator
  | generator => exact operator_generatorTurn s

end Session

end Uplink
