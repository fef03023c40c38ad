import Uplink.Proofs.Dispatch.Room
/-!
The staff of a dispatcher: its workers and the capacity of its queue.  Whatever happens, a pool that
was started keeps both and gets no worker back; and apart from the operation that starts workers,
only a job that is submitted has a pool started, with the default workers and capacity.
-/
namespace Uplink

namespace Event

def isSubmission : Event → Bool
  | called _ c => c.submits
  | _ => false

end Event

namespace Pool

/-- A pool that has become another: the same workers by number, with the lost ones still lost, and a
queue of the same capacity. -/
structure Continues (p p' : Pool) : Prop where
  workers : p'.workers.length = p.workers.length
  capacity : p'.capacity = p.capacity
  lost : ∀ w : Nat, p.workers[w]? = some Worker.lost → p'.workers[w]? = some Worker.lost

variable {p p' p'' : Pool} {w : Nat}

theorem Continues.refl (p : Pool) : p.Continues p := ⟨rfl, rfl, fun _ => id⟩

theorem Continues.trans (h : p.Continues p') (h' : p'.Continues p'') : p.Continues p'' :=
  ⟨h'.workers.trans h.workers, h'.capacity.trans h.capacity, fun w hw => h'.lost w (h.lost w hw)⟩

theorem continues_join (p : Pool) (w : Nat) : p.Continues (p.join w) := by
  unfold join
  split <;> exact ⟨rfl, rfl, fun _ => id⟩

theorem continues_seek (p : Pool) (w : Nat) : p.Continues (p.seek w).1 := by
  have hjoin := p.continues_join w
  rcases p.seek_cases w with ⟨hseek, -⟩ | ⟨line, j, jobs, -, -, hseek⟩
  · rw [hseek]
    exact hjoin
  · rw [hseek]
    exact ⟨hjoin.workers, hjoin.capacity, hjoin.lost⟩

/-- A worker that is not lost may come to any state. -/
theorem continues_assign (alive : p.workers[w]? ≠ some Worker.lost) (state : Worker) :
    p.Continues (p.assign w state) where
  workers := List.length_set
  capacity := rfl
  lost v hv := by
    have hne : w ≠ v := fun heq => alive (heq ▸ hv)
    simpa [assign, List.getElem?_set_ne hne] using hv

theorem continues_lose (alive : p.workers[w]? ≠ some Worker.lost) : p.Continues (p.lose w) := by
  have hassign := continues_assign alive .lost
  unfold lose
  dsimp only
  split
  · exact ⟨hassign.workers, hassign.capacity, hassign.lost⟩
  · exact hassign

end Pool

namespace Dispatcher

/-- How many workers were started, and the capacity of their queue. -/
def scale (d : Dispatcher) : Option (Nat × Nat) :=
  d.pool.map fun p => (p.workers.length, p.capacity)

theorem isStarted_eq (d : Dispatcher) : d.isStarted = d.scale.isSome := by
  unfold isStarted scale
  cases d.pool <;> rfl

def asked (workers capacity : Nat) : Nat × Nat :=
  (if workers = 0 then Default.workers else workers,
    if capacity = 0 then Default.queueCapacity else capacity)

/-- Once there is a pool it is never replaced. -/
def Continues (d d' : Dispatcher) : Prop :=
  ∀ p, d.pool = some p → ∃ p', d'.pool = some p' ∧ p.Continues p'

variable {d d' d'' : Dispatcher} {w : Nat} {j : Job} {q : Posting}

theorem continues_of_eq (h : d'.pool = d.pool) : d.Continues d' :=
  fun p hp => ⟨p, h.trans hp, .refl p⟩

theorem Continues.trans (h : d.Continues d') (h' : d'.Continues d'') : d.Continues d'' := by
  intro p hp
  obtain ⟨p', hp', hcontinues⟩ := h p hp
  obtain ⟨p'', hp'', hcontinues'⟩ := h' p' hp'
  exact ⟨p'', hp'', hcontinues.trans hcontinues'⟩

theorem Continues.scale_eq (h : d.Continues d') {n : Nat × Nat} (hd : d.scale = some n) :
    d'.scale = some n := by
  obtain ⟨p, hp, rfl⟩ := Option.map_eq_some_iff.mp hd
  obtain ⟨p', hp', hcontinues⟩ := h p hp
  simp [scale, hp', hcontinues.workers, hcontinues.capacity]

theorem Continues.isStarted (h : d.Continues d') (hd : d.isStarted) : d'.isStarted := by
  obtain ⟨p, hp⟩ := Option.isSome_iff_exists.mp hd
  obtain ⟨p', hp', -⟩ := h p hp
  exact Option.isSome_iff_exists.mpr ⟨p', hp'⟩

theorem Continues.exists_worker (h : d.Continues d') (hw : (d.worker? w).isSome) :
    (d'.worker? w).isSome := by
  obtain ⟨worker, hw⟩ := Option.isSome_iff_exists.mp hw
  obtain ⟨p, hp, hworker⟩ := pool_of_worker? hw
  obtain ⟨p', hp', hcontinues⟩ := h p hp
  have hlt := (List.getElem?_eq_some_iff.mp hworker).1
  simp [worker?, hp', hcontinues.workers, hlt]

theorem continues_start (d : Dispatcher) (workers capacity : Nat) :
    d.Continues (d.start workers capacity) := by
  intro p hp
  obtain ⟨pool, heq, rfl | ⟨hnone, -⟩⟩ := d.start_eq workers capacity
  · exact ⟨p, by rw [heq, hp], .refl p⟩
  · exact absurd (hnone.symm.trans hp) (by simp)

theorem scale_start (d : Dispatcher) (workers capacity : Nat) :
    (d.start workers capacity).scale = some (d.scale.getD (asked workers capacity)) := by
  unfold start scale
  cases hp : d.pool <;> simp [Pool.create, asked, hp]

theorem continues_offer (h : d.offer j = .ok d') : d.Continues d' := by
  obtain ⟨p, hp, -, -, rfl⟩ := offer_eq h
  intro p₁ hp₁
  obtain rfl := Option.some_inj.mp (hp.symm.trans hp₁)
  exact ⟨_, rfl, rfl, rfl, fun _ => id⟩

theorem continues_seek (d : Dispatcher) (w : Nat) : d.Continues (d.seek w).1 := by
  intro p hp
  refine ⟨(p.seek w).1, ?_, p.continues_seek w⟩
  unfold seek
  rw [hp]

theorem continues_engage (idle : d.worker? w = some .idle) (q : Posting) :
    d.Continues (d.engage w q) := by
  intro p hp
  have hworker : p.workers[w]? = some .idle := by simpa [worker?, hp] using idle
  refine ⟨p.assign w (.busy q), by simp [engage, updatePool, hp], Pool.continues_assign ?_ _⟩
  simp [hworker]

theorem continues_release (busy : d.worker? w = some (.busy q)) :
    d.Continues (d.release w q) := by
  intro p hp
  have hworker : p.workers[w]? ≠ some Worker.lost := by
    have hbusy : p.workers[w]? = some (.busy q) := by simpa [worker?, hp] using busy
    simp [hbusy]
  rw [release_eq]
  refine ⟨_, by rw [hp, Option.map_some], ?_⟩
  split
  · exact Pool.continues_lose hworker
  · exact Pool.continues_assign hworker .idle

end Dispatcher

namespace Pipeline

variable {quits : Prop} {t : Task} {p p' : Pipeline} {h h' : Hand} {d : Dispatcher}

theorem JobChange.continues {es : List Event} (hc : JobChange t p h d es h') :
    p.dispatcher.Continues d := by
  have hstart := p.dispatcher.continues_start 0 0
  cases hc with
  | none es hes hh => exact Dispatcher.continues_of_eq rfl
  | start workers capacity => exact p.dispatcher.continues_start workers capacity
  | queue hc asks hd => exact hstart.trans (Dispatcher.continues_offer hd)
  | divert q deadline within hc asks hd => exact hstart.trans (Dispatcher.continues_of_eq rfl)
  | @deliver q => exact Dispatcher.continues_of_eq (by rw [Dispatcher.countOutcome_eq])
  | @seek w d idle hd =>
    have hseek := p.dispatcher.continues_seek w
    rwa [hd] at hseek
  | @take w d j q within idle hd =>
    have hseek := p.dispatcher.continues_seek w
    rw [hd] at hseek
    have hidle : d.worker? w = some .idle := by
      have hkeep := (p.dispatcher.seek_eq w).2.2.2 w
      rwa [hd, idle] at hkeep
    exact hseek.trans (Dispatcher.continues_engage hidle q)
  | finish busy hreports hooked => exact Dispatcher.continues_release busy

theorem Steps.continues (hs : Steps quits t p h p' h') : p.dispatcher.Continues p'.dispatcher :=
  hs.preserves (I := fun p' _ => p.dispatcher.Continues p'.dispatcher)
    (fun hs hp => hp.trans hs.jobChange.choose_spec.2.continues) (Dispatcher.continues_of_eq rfl)

/-! ### Workers started by jobs -/

/-- The staff, and whether a job was ever submitted. -/
def opening (p : Pipeline) : Option (Nat × Nat) × Bool :=
  (p.dispatcher.scale, p.journal.events.any Event.isSubmission)

/-- No workers were started and no job was submitted, or the first job had the default workers
started. -/
def ByJobs (p : Pipeline) : Prop :=
  p.opening = (none, false)
    ∨ p.opening = (some (Default.workers, Default.queueCapacity), true)

theorem ByJobs.congr (hp : p.ByJobs) (h : p'.opening = p.opening) : p'.ByJobs := by
  unfold ByJobs
  rwa [h]

@[simp] theorem opening_note {e : Event} (he : e.isSubmission = false) (p : Pipeline) :
    (p.note e).opening = p.opening := by
  refine Prod.ext rfl ?_
  show (e.isSubmission || p.journal.events.any Event.isSubmission) = _
  rw [he, Bool.false_or]
  rfl

@[simp] theorem opening_post (p : Pipeline) (t : Task) (aim : Aim) (url : String) (body : Octets)
    (deadline : Duration) : (p.post t aim url body deadline).1.opening = p.opening :=
  opening_note rfl _

@[simp] theorem opening_count (p : Pipeline) (c : Change) : (p.count c).opening = p.opening :=
  opening_note rfl _

@[simp] theorem opening_leave (p : Pipeline) (t : Task) : (p.leave t).opening = p.opening := by
  have hyields : (p.yields t).any Event.isSubmission = false := by
    unfold yields
    split <;> rfl
  simp [opening, hyields]

@[simp] theorem opening_withdraw (p : Pipeline) (t : Task) :
    (p.withdraw t).opening = p.opening := by
  have hyields : (p.yields t (.withdrawn t)).any Event.isSubmission = false := by
    unfold yields
    split <;> rfl
  have hdispatcher : (p.withdraw t).dispatcher = p.dispatcher := dispatcher_leave _ _ _
  simp [opening, hyields, hdispatcher]

/-- Once workers are started, and a job was submitted, that is so for good. -/
theorem Steps.opening_eq (hs : Steps quits t p h p' h') {n : Nat × Nat}
    (hp : p.opening = (some n, true)) : p'.opening = (some n, true) := by
  obtain ⟨hscale, hsubmitted⟩ := Prod.mk.inj hp
  obtain ⟨es, hes, -⟩ := hs.notes
  refine Prod.ext (hs.continues.scale_eq hscale) ?_
  show p'.journal.events.any Event.isSubmission = true
  rw [hes, List.any_append, hsubmitted, Bool.or_true]

theorem opening_startWorkers (p : Pipeline) (workers capacity : Nat) :
    (p.startWorkers workers capacity).opening
      = (some (p.dispatcher.scale.getD (Dispatcher.asked workers capacity)), p.opening.2) := by
  simp [opening, Dispatcher.scale_start]

/-! ### Calls -/

theorem opening_deliver (p : Pipeline) (t : Task) (q : Posting) :
    (p.deliver t q).1.opening = p.opening := by
  rw [deliver_eq, Dispatcher.countOutcome_eq]
  exact opening_note rfl _

theorem opening_fallback (p : Pipeline) (t : Task) (j : Job) (deadline : Duration) :
    (p.fallback t j deadline).1.opening = p.opening := by
  have hdiverted : ({ p with dispatcher := p.dispatcher.countFallback }.note
      (.diverted t j)).opening = p.opening := opening_note rfl _
  unfold fallback
  dsimp only
  split
  · rw [opening_deliver, opening_post, hdiverted]
  · rw [opening_post, hdiverted]

/-- The job of a call finds the default workers started, or has them started. -/
theorem ByJobs.submit (hp : p.ByJobs) {p₀ : Pipeline}
    (hscale : p₀.dispatcher.scale = p.dispatcher.scale) (hcalled : p₀.opening.2 = true) (t : Task)
    (j : Job) (deadline : Duration) : (p₀.submit t j deadline).1.ByJobs := by
  have hstarted : ((p₀.note (.submitted t j)).startWorkers 0 0).opening
      = (some (Default.workers, Default.queueCapacity), true) := by
    rw [opening_startWorkers, opening_note rfl, hcalled]
    show (some (p₀.dispatcher.scale.getD _), _) = _
    rw [hscale]
    rcases hp with hp | hp <;> rw [(Prod.mk.inj hp).1] <;> rfl
  unfold Pipeline.submit
  dsimp only
  generalize (p₀.note (.submitted t j)).startWorkers 0 0 = p₁ at hstarted
  right
  split
  next d hd =>
    obtain ⟨hscale, hsubmitted⟩ := Prod.mk.inj hstarted
    refine (opening_note (e := .queued t j) rfl _).trans ?_
    exact Prod.ext ((Dispatcher.continues_offer hd).scale_eq hscale) hsubmitted
  next hd => exact (opening_fallback _ t j deadline).trans ((opening_note rfl _).trans hstarted)
  next hd => exact (opening_fallback _ t j deadline).trans ((opening_note rfl _).trans hstarted)

theorem opening_land (p : Pipeline) (t : Task) (q : Posting) :
    (p.land t q).1.opening = p.opening := by
  unfold land
  split
  next => exact opening_leave p t
  next f hf =>
    split
    · exact (opening_leave _ t).trans (opening_note rfl _)
    · exact (opening_leave _ t).trans (opening_note rfl _)
    · exact opening_leave p t

theorem opening_depart (p : Pipeline) (t : Task) (url : String) :
    (p.depart t url).1.opening = p.opening := by
  unfold depart
  split
  next => exact opening_leave p t
  next f hf =>
    have hdeparted : (p.launch t f).opening = p.opening :=
      opening_note rfl _
    dsimp only
    split
    · rw [opening_land, opening_post, hdeparted]
    · rw [opening_post, hdeparted]

theorem opening_flush (p : Pipeline) (t : Task) (url : String) :
    (p.flush t url).1.opening = p.opening := by
  unfold flush
  dsimp only
  split
  · exact opening_depart { p with line := p.line ++ [t] } t url
  · rfl

theorem ByJobs.begin (hp : p.ByJobs) (t : Task) (c : Call) : (p.begin t c).1.ByJobs := by
  have hquiet {c : Call} (hc : c.submits = false) : (p.note (.called t c)).ByJobs :=
    hp.congr (opening_note (e := .called t c) hc p)
  unfold Pipeline.begin
  split
  · exact hquiet rfl
  · refine ByJobs.submit hp ?_ ?_ t _ _ <;> rfl
  · exact hquiet rfl
  · refine ByJobs.submit hp ?_ ?_ t _ _ <;> rfl
  · exact (hquiet rfl).congr (opening_flush _ t _)
  · dsimp only
    split <;> exact (hquiet rfl).congr (opening_post _ t _ _ _ _)

theorem ByJobs.proceed (hp : p.ByJobs) (t : Task) (stage : Stage) :
    (p.proceed t stage).1.ByJobs := by
  unfold Pipeline.proceed
  split
  · exact hp
  · split
    · exact hp.congr (opening_deliver p t _)
    · exact hp
  · split <;> exact hp
  · split
    · exact hp.congr (opening_depart p t _)
    · exact hp
  · split
    · exact hp.congr (opening_land p t _)
    · exact hp

/-! ### Workers and rounds -/

/-- Where no workers were started none has a turn. -/
theorem ByJobs.workerTurn (hp : p.ByJobs) (w : Nat) : (p.workerTurn w).ByJobs := by
  rcases hp with hp | hp
  · have hnone : p.dispatcher.worker? w = none := by
      have hpool := Option.map_eq_none_iff.mp (Prod.mk.inj hp).1
      simp [Dispatcher.worker?, hpool]
    have hturn : p.workerTurn w = p := by simp [Pipeline.workerTurn, seekJob, hnone]
    exact .inl (hturn.symm ▸ hp)
  · exact .inr ((@workerTurn_steps False p w).opening_eq hp)

theorem opening_notePush (p : Pipeline) (kind : Kind) (r : CallResult) (failures : Nat) :
    (p.notePush kind r failures).1.opening = p.opening := by
  unfold notePush
  split
  · rfl
  · exact opening_note rfl p
  · rfl

theorem opening_countRound (p : Pipeline) (failures : Nat) :
    (p.countRound failures).opening = p.opening := by
  unfold countRound
  dsimp only
  split <;> simp

theorem ByJobs.pushRecords (t : Task) (c : AgentConfig) (records : List Report)
    (hp : p.ByJobs) (failures : Nat) : (p.pushRecords t c records failures).1.ByJobs := by
  induction records generalizing p failures with
  | nil => exact hp.congr (opening_countRound p failures)
  | cons r rest ih =>
    have hbegin := hp.begin t (.push (c.endpoint r.kind.path) (.ok r) c.pushTimeout)
    unfold Pipeline.pushRecords
    dsimp only
    generalize p.begin t (.push (c.endpoint r.kind.path) (.ok r) c.pushTimeout) = b at hbegin ⊢
    split
    next result _ =>
      have hnote := hbegin.congr (opening_notePush b.1 r.kind result failures)
      split
      next p' failures' heq =>
        rw [heq] at hnote
        exact ih hnote failures'
      next p' heq =>
        rw [heq] at hnote
        exact hnote
    next => exact hbegin

theorem ByJobs.beginRound (hp : p.ByJobs) (t : Task) (g : Generator) :
    (p.beginRound t g).1.ByJobs :=
  ByJobs.pushRecords t g.config (Demo.records (g.rounds + 1)) hp 0

theorem ByJobs.proceedRound (hp : p.ByJobs) (t : Task) (c : AgentConfig) (r : Round) :
    (p.proceedRound t c r).1.ByJobs := by
  have hproceed := hp.proceed t r.stage
  unfold Pipeline.proceedRound
  dsimp only
  generalize p.proceed t r.stage = b at hproceed ⊢
  split
  next result _ =>
    have hnote := hproceed.congr (opening_notePush b.1 r.kind result r.failures)
    split
    next p' failures' heq =>
      rw [heq] at hnote
      exact ByJobs.pushRecords t c r.rest hnote failures'
    next p' heq =>
      rw [heq] at hnote
      exact hnote
  next => exact hproceed

end Pipeline

namespace Session

open Pipeline

variable {s : Session}

/-! ### Turns -/

theorem callerTurn_byJobs (hs : s.toPipeline.ByJobs) (id : Nat) :
    (s.callerTurn id).toPipeline.ByJobs := by
  unfold callerTurn
  dsimp only
  split
  · exact hs.begin _ _
  · exact hs.proceed _ _
  · exact hs

theorem opening_sleep (s : Session) (id : Nat) (f : Flusher) :
    (s.sleep id f).opening = s.opening := by
  unfold sleep
  split <;> rfl

theorem opening_afterFlush (s : Session) (id : Nat) (f : Flusher) (r : Pipeline × Stage) :
    (s.afterFlush id f r).opening = r.1.opening := by
  obtain ⟨p, stage⟩ := r
  cases stage with
  | ended result =>
    cases result with
    | flushed o => exact opening_sleep _ id _
    | _ => rfl
  | _ => rfl

theorem pursue_byJobs (hs : s.toPipeline.ByJobs) (id : Nat) (f : Flusher) :
    (s.pursue id f).toPipeline.ByJobs := by
  have hafter (f : Flusher) {r : Pipeline × Stage} (hr : r.1.ByJobs) :
      (s.afterFlush id f r).toPipeline.ByJobs := hr.congr (opening_afterFlush s id f r)
  unfold pursue
  dsimp only
  split
  · exact hs.congr (opening_sleep s id _)
  · split
    · exact hafter _ (hs.congr (opening_flush _ _ _))
    · exact hs
  · exact hafter _ (hs.proceed _ _)
  · exact hafter _ (hs.proceed _ _)
  · exact hs

theorem flusherTurn_byJobs (hs : s.toPipeline.ByJobs) (id : Nat) :
    (s.flusherTurn id).toPipeline.ByJobs := by
  unfold flusherTurn
  split
  · exact hs
  · split
    · split
      · exact (pursue_byJobs hs id _).congr (opening_withdraw _ _)
      · exact hs.congr (opening_withdraw _ _)
    · exact pursue_byJobs hs id _

theorem opening_afterRound (s : Session) (g : Generator) (next : Nat) (r : RoundStage) :
    (s.afterRound g next r).opening = s.opening := by
  cases r with
  | ended failures =>
    show (s.awaitRound g next).opening = s.opening
    obtain ⟨_, _, _, heq, -⟩ := s.awaitRound_eq g next
    rw [heq]
    rfl
  | _ => rfl

theorem generatorTurn_byJobs (hs : s.toPipeline.ByJobs) : s.generatorTurn.toPipeline.ByJobs := by
  have hround (g : Generator) (due : Nat) : (s.runRound g due).toPipeline.ByJobs :=
    (hs.beginRound .generator g).congr (opening_afterRound _ _ _ _)
  unfold generatorTurn
  dsimp only
  split
  · split
    · exact hs
    · exact hround _ _
  · split
    · exact hround _ _
    · split <;> exact hs
  · exact (hs.proceedRound _ _ _).congr (opening_afterRound _ _ _ _)
  · exact hs
  · exact hs

theorem afterOwnRound_byJobs (hs : s.toPipeline.ByJobs) (left failures : Nat) (r : RoundStage) :
    (s.afterOwnRound left failures r).toPipeline.ByJobs := by
  induction left generalizing s failures r with
  | zero => cases r <;> exact hs
  | succ left ih =>
    cases r with
    | ended more => exact ih (hs.beginRound .operator s.generator) _ _
    | _ => exact hs

theorem operatorTurn_byJobs (hs : s.toPipeline.ByJobs) : s.operatorTurn.toPipeline.ByJobs := by
  unfold operatorTurn
  split
  · exact hs.proceed _ _
  · exact afterOwnRound_byJobs (hs.proceedRound _ _ _) _ _ _
  · exact hs

theorem turn_byJobs (hs : s.toPipeline.ByJobs) (t : Task) : (s.turn t).toPipeline.ByJobs := by
  cases t with
  | operator => exact operatorTurn_byJobs hs
  | caller id => exact callerTurn_byJobs hs id
  | worker w => exact hs.workerTurn w
  | flusher id => exact flusherTurn_byJobs hs id
  | generator => exact generatorTurn_byJobs hs

/-! ### Moves -/

theorem opening_cancelFlusher (s : Session) : s.cancelFlusher.opening = s.opening := by
  unfold cancelFlusher
  split <;> rfl

/-- Only one operation has workers started by itself. -/
theorem start_byJobs (hs : s.toPipeline.ByJobs) {op : Operation}
    (hop : ∀ workers capacity, op ≠ .startWorkers workers capacity) :
    (s.start op).1.toPipeline.ByJobs := by
  cases op with
  | startWorkers workers capacity => exact absurd rfl (hop workers capacity)
  | call c => exact hs.begin _ _
  | join id =>
    show (s.join id).1.toPipeline.ByJobs
    unfold join
    split <;> exact hs
  | adjustHistory k n => exact hs.congr (opening_note (e := .adjusted k n) rfl _)
  | setCounter key x => exact hs.congr (opening_count _ _)
  | addCounter key x => exact hs.congr (opening_count _ _)
  | increment key => exact hs.congr (opening_count _ _)
  | decrement key => exact hs.congr (opening_count _ _)
  | deleteCounter key => exact hs.congr (opening_count _ _)
  | startFlushing url => exact hs.congr (opening_cancelFlusher s)
  | stopFlushing => exact hs.congr (opening_cancelFlusher s)
  | identify i => exact hs.congr (opening_note (e := .identified (i.getD s.identity)) rfl _)
  | setClock now => exact hs.congr (opening_note (e := .clockMoved _) rfl _)
  | advanceClock millis => exact hs.congr (opening_note (e := .clockMoved _) rfl _)
  | generate rounds =>
    show (s.enterRounds rounds).toPipeline.ByJobs
    unfold enterRounds
    split
    · exact afterOwnRound_byJobs hs _ _ _
    · exact hs
  | startGenerator period =>
    show (s.startGenerator period).toPipeline.ByJobs
    unfold startGenerator
    split <;> exact hs
  | stopGenerator =>
    show s.stopGenerator.toPipeline.ByJobs
    unfold stopGenerator
    dsimp only
    split <;> exact hs
  | _ => exact hs

theorem move_byJobs (hs : s.toPipeline.ByJobs) {m : Move}
    (hm : ∀ workers capacity, m ≠ .start (.startWorkers workers capacity)) :
    (s.move m).toPipeline.ByJobs := by
  have hmoves := s.moves_move m
  generalize s.move m = s' at hmoves ⊢
  cases hmoves with
  | stays => exact hs
  | start op _ => exact start_byJobs hs fun workers capacity h => hm workers capacity (h ▸ rfl)
  | collect => exact (toPipeline_collect s).symm ▸ hs
  | turn t _ => exact turn_byJobs (s := { s with ready := s.ready.erase t }) hs t
  | elapse now => exact hs.congr (moveTo_timeless (fun _ _ _ _ => rfl) s.toPipeline now)
  | dropOwn _ _ | drop _ _ => exact hs.congr (opening_withdraw _ _)
  | discard => exact hs.congr (opening_cancelFlusher s)

end Session

end Uplink
