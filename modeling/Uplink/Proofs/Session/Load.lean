import Mathlib.Algebra.GroupWithZero.Nat
import Uplink.Proofs.Kpi.Line
/-!
The load of the pipeline: what the tasks that can go on, those that flush and the queued jobs still
leave to be done before time moves.  No call, worker or round adds more to it than is bounded here.
-/
namespace Uplink

namespace Pipeline

/-- The load, where `W` tells the weight of a turn of each task. -/
def load (W : Task → Nat) (p : Pipeline) : Nat :=
  (p.ready.map W).sum + 7 * p.line.length + 2 * p.dispatcher.queued.length

/-- How many workers are not ready that a submission can make ready: those it starts, or else the
first in line for a job. -/
def spare (p : Pipeline) : Nat :=
  match p.dispatcher.pool.map Pool.line with
  | none => Default.workers
  | some [] => 0
  | some (w :: _) => if .worker w ∈ p.ready then 0 else 1

variable {W W' : Task → Nat} {t : Task} {p : Pipeline}

theorem spare_le (p : Pipeline) : p.spare ≤ 2 := by
  unfold spare
  split
  · exact Nat.le_refl 2
  · exact Nat.zero_le 2
  · split <;> decide

theorem load_mono (hW : ∀ t, W t ≤ W' t) (p : Pipeline) : p.load W ≤ p.load W' := by
  have hsum : (p.ready.map W).sum ≤ (p.ready.map W').sum := by
    induction p.ready with
    | nil => exact Nat.le_refl 0
    | cons t ready ih => simpa using Nat.add_le_add (hW t) ih
  unfold load
  omega

theorem load_resumeFirst (W : Task → Nat) (p : Pipeline) (t : Task) :
    (p.resumeFirst t).load W = p.load W + W t := by
  simp only [load, resumeFirst, List.map_cons, List.sum_cons]
  omega

theorem load_wake_le (W : Task → Nat) (p : Pipeline) (t : Task) :
    (p.wake t).load W ≤ p.load W + W t := by
  unfold wake load
  dsimp only
  split
  · omega
  · simp only [List.map_append, List.map_singleton, List.sum_append, List.sum_singleton]
    omega

theorem load_wakeFirst_le {n : Nat} (p : Pipeline) (line : List Task)
    (hline : ∀ t ∈ line, W t ≤ n) : (p.wakeFirst line).load W ≤ p.load W + n := by
  cases line with
  | nil => exact Nat.le_add_right _ n
  | cons t line =>
    have hwake := load_wake_le W p t
    have ht := hline t List.mem_cons_self
    exact Nat.le_trans hwake (Nat.add_le_add_left ht _)

theorem load_post (W : Task → Nat) (p : Pipeline) (t : Task) (aim : Aim) (url : String)
    (body : Octets) (deadline : Duration) :
    (p.post t aim url body deadline).1.load W = p.load W := rfl

/-! ### The dispatcher -/

theorem load_startWorkers (hworker : ∀ w, W (.worker w) = 1) (p : Pipeline) :
    (p.startWorkers 0 0).load W + (p.startWorkers 0 0).spare = p.load W + p.spare := by
  unfold startWorkers
  split
  next => rfl
  next hstarted =>
    have hpool : p.dispatcher.pool = none := by
      simpa [Dispatcher.isStarted] using hstarted
    have hfresh : ((Dispatcher.start p.dispatcher 0 0).pool.map fun p =>
        List.range p.workers.length).getD [] = List.range Default.workers := by
      simp [Dispatcher.start, hpool, Pool.create]
    have hspare : p.spare = Default.workers := by simp [spare, hpool]
    have hsum : (((List.range Default.workers).map Task.worker).map W).sum = Default.workers := by
      rw [List.map_map, show W ∘ Task.worker = fun _ => 1 from funext hworker]
      decide
    have hline : (p.dispatcher.start 0 0).pool.map Pool.line = some [] := by
      simp [Dispatcher.start, hpool, Pool.create]
    rw [hspare]
    simp only [load, spare, hfresh, hline, List.map_append, List.sum_append, hsum,
      Dispatcher.queued_start]
    omega

theorem load_deliver (W : Task → Nat) (p : Pipeline) (t : Task) (q : Posting) :
    (p.deliver t q).1.load W = p.load W ∧ (p.deliver t q).1.spare = p.spare := by
  rw [deliver_eq, Dispatcher.countOutcome_eq]
  exact ⟨rfl, rfl⟩

theorem load_fallback (W : Task → Nat) (p : Pipeline) (t : Task) (j : Job) (deadline : Duration) :
    (p.fallback t j deadline).1.load W = p.load W
      ∧ (p.fallback t j deadline).1.spare = p.spare := by
  unfold fallback
  dsimp only
  split
  · exact load_deliver W _ t _
  · exact ⟨rfl, rfl⟩

/-- A submission adds at most its job. -/
theorem load_submit_le (hworker : ∀ w, W (.worker w) = 1) (p : Pipeline) (t : Task) (j : Job)
    (deadline : Duration) :
    (p.submit t j deadline).1.load W + (p.submit t j deadline).1.spare
      ≤ p.load W + p.spare + 2 := by
  have hstart := load_startWorkers hworker (p.note (.submitted t j))
  have hsame : (p.note (.submitted t j)).load W + (p.note (.submitted t j)).spare
    = p.load W + p.spare := rfl
  unfold submit
  dsimp only
  split
  next d hd =>
    obtain ⟨pool, hp, -, -, rfl⟩ := Dispatcher.offer_eq hd
    generalize (p.note (.submitted t j)).startWorkers 0 0 = p₁ at hstart hp ⊢
    rw [hsame] at hstart
    cases hline : pool.line with
    | nil =>
      simp only [load, spare, wakeFirst, note, Dispatcher.line, Dispatcher.queued, hp, hline,
        Option.map_some, Option.getD_some, Option.map_none, Option.getD_none, List.map_nil,
        List.head?_nil, List.length_append, List.length_singleton] at hstart ⊢
      omega
    | cons w line =>
      simp only [load, spare, wakeFirst, wake, note, Dispatcher.line, Dispatcher.queued, hp, hline,
        Option.map_some, Option.getD_some, List.map_cons, List.head?_cons, List.length_append,
        List.length_singleton] at hstart ⊢
      by_cases hw : Task.worker w ∈ p₁.ready
      · simp only [hw, if_true] at hstart ⊢
        omega
      · simp [hw, hworker] at hstart ⊢
        omega
  next =>
    obtain ⟨hload, hspare⟩ := load_fallback W (warn _ _) t j deadline
    rw [hload, hspare]
    exact Nat.le_trans (Nat.le_of_eq hstart) (Nat.le_add_right _ 2)
  next =>
    obtain ⟨hload, hspare⟩ := load_fallback W (complain _ _) t j deadline
    rw [hload, hspare]
    exact Nat.le_trans (Nat.le_of_eq hstart) (Nat.le_add_right _ 2)

/-! ### The flush -/

/-- Who leaves makes way for the next in line, if there is one. -/
theorem load_leave_le (hline : ∀ u ∈ p.line, W u ≤ 8) (t : Task) (e : Event) :
    (p.leave t e).load W ≤ p.load W + min (p.line.length - 1) 1 := by
  unfold leave
  dsimp only
  split
  next turn =>
    obtain ⟨line, hl⟩ : ∃ line, p.line = t :: line := by
      cases hl : p.line with
      | nil => simp [hl] at turn
      | cons u line => exact ⟨line, by simpa [hl] using turn⟩
    have herase : p.line.erase t = line := by simp [hl]
    rw [herase]
    have hload : load W { p with line, kpi := p.kpi.abandon } + 7 = p.load W := by
      simp only [load, hl, List.length_cons]
      omega
    cases hrest : line with
    | nil =>
      rw [hrest] at hload
      show load W { p with line := [], kpi := p.kpi.abandon } ≤ _
      omega
    | cons u rest =>
      have hwake := load_wakeFirst_le ({ p with line, kpi := p.kpi.abandon }.note e) line
        fun v hv => hline v (hl ▸ List.mem_cons_of_mem t hv)
      have hnote : ({ p with line, kpi := p.kpi.abandon }.note e).load W
        = load W { p with line, kpi := p.kpi.abandon } := rfl
      have hlength : 1 ≤ p.line.length - 1 := by simp [hl, hrest]
      rw [← hrest, Nat.min_eq_right hlength]
      omega
  next =>
    have hlength := (List.erase_sublist (a := t) (l := p.line)).length_le
    unfold load
    dsimp only
    omega

theorem load_land_le (hline : ∀ u ∈ p.line, W u ≤ 8) (t : Task) (q : Posting) :
    (p.land t q).1.load W ≤ p.load W + min (p.line.length - 1) 1 := by
  unfold land
  split
  · exact load_leave_le hline t _
  · split
    · exact load_leave_le (by exact hline) t _
    · exact load_leave_le (by exact hline) t _
    · exact load_leave_le hline t _

theorem load_depart_le (hline : ∀ u ∈ p.line, W u ≤ 8) (t : Task) (url : String) :
    (p.depart t url).1.load W ≤ p.load W + min (p.line.length - 1) 1 := by
  unfold depart
  split
  · exact load_leave_le hline t _
  · dsimp only
    split
    · exact load_land_le (by exact hline) t _
    · exact Nat.le_add_right _ _

theorem load_flush_le (ht : W t ≤ 8) (p : Pipeline) (url : String) :
    (p.flush t url).1.load W ≤ p.load W + 7 := by
  have hjoin : load W { p with line := p.line ++ [t] } = p.load W + 7 := by
    simp only [load, List.length_append, List.length_singleton]
    omega
  unfold flush
  dsimp only
  split
  next hempty =>
    have hnil : p.line = [] := List.isEmpty_iff.mp hempty
    have hdepart := load_depart_le (p := { p with line := p.line ++ [t] }) (W := W)
      (by simp [hnil, ht]) t url
    rw [hjoin] at hdepart
    simpa [hnil] using hdepart
  next => exact Nat.le_of_eq hjoin

theorem line_land (p : Pipeline) (t : Task) (q : Posting) :
    (p.land t q).1.line = p.line.erase t := by
  unfold land
  split
  · exact line_leave p t _
  · split <;> exact line_leave _ t _

theorem line_depart (p : Pipeline) (t : Task) (url : String) :
    (p.depart t url).1.line = p.line ∨ (p.depart t url).1.line = p.line.erase t := by
  unfold depart
  split
  · exact .inr (line_leave p t _)
  · dsimp only
    split
    · exact .inr (line_land _ t _)
    · exact .inl rfl

/-- A task that gives up its flush makes at most the next one in line ready. -/
theorem load_withdraw_le (hline : ∀ u ∈ p.line, W u ≤ 8) (t : Task) :
    (p.withdraw t).load W ≤ p.load W + min (p.line.length - 1) 1 :=
  load_leave_le (p := p.dropTimers t) hline t _

theorem load_flush_withdraw_le (ht : W t ≤ 8) (absent : t ∉ p.line) (url : String) :
    ((p.flush t url).1.withdraw t).load W ≤ p.load W + 7 := by
  have hflush := load_flush_le ht p url
  unfold flush at hflush ⊢
  dsimp only at hflush ⊢
  split at hflush
  next hempty =>
    -- nobody else is in line
    have hnil : p.line = [] := List.isEmpty_iff.mp hempty
    have hline : (depart { p with line := p.line ++ [t] } t url).1.line = [t]
        ∨ (depart { p with line := p.line ++ [t] } t url).1.line = [] := by
      simpa [hnil] using line_depart { p with line := p.line ++ [t] } t url
    rw [if_pos hempty]
    generalize (depart { p with line := p.line ++ [t] } t url).1 = p' at hflush hline
    have hwithdraw := load_withdraw_le (p := p') (W := W)
      (by rcases hline with h | h <;> simp [h, ht]) t
    have hlength : p'.line.length - 1 = 0 := by rcases hline with h | h <;> simp [h]
    omega
  next hempty =>
    -- the task stands behind others, and only leaves the line again
    have hhead : (p.line ++ [t]).head? ≠ some t := by
      cases hl : p.line with
      | nil => simp [hl] at hempty
      | cons u line =>
        rintro ⟨⟩
        exact absent (hl ▸ List.mem_cons_self)
    rw [if_neg hempty]
    unfold withdraw leave
    rw [if_neg (by exact hhead)]
    simp [load, dropTimers, List.erase_append_right [t] absent]

/-! ### Calls -/

theorem load_begin_push_le (hworker : ∀ w, W (.worker w) = 1) (p : Pipeline) (t : Task)
    (url : String) (r : Report) (timeout : Duration) :
    (p.begin t (.push url (.ok r) timeout)).1.load W
        + (p.begin t (.push url (.ok r) timeout)).1.spare
      ≤ p.load W + p.spare + 2 := load_submit_le hworker _ t _ _

/-- The beginning of a call adds less than the turn of a task that calls weighs. -/
theorem load_begin_le (hworker : ∀ w, W (.worker w) = 1) (ht : W t ≤ 8) (p : Pipeline)
    (c : Call) : (p.begin t c).1.load W ≤ p.load W + 7 := by
  have hsubmit {p' : Pipeline} (hp : p'.load W + p'.spare ≤ p.load W + p.spare + 2) :
      p'.load W ≤ p.load W + 7 := by
    have := p.spare_le
    omega
  unfold begin
  split
  · exact Nat.le_add_right _ 7
  · exact hsubmit (load_submit_le hworker _ t _ _)
  · exact Nat.le_add_right _ 7
  · exact hsubmit (load_submit_le hworker _ t _ _)
  · exact load_flush_le ht _ _
  · dsimp only
    split <;> exact Nat.le_add_right _ 7

theorem load_proceed_le (hline : ∀ u ∈ p.line, W u ≤ 8) (t : Task) (stage : Stage) :
    (p.proceed t stage).1.load W ≤ p.load W + 1 := by
  have hmin {n m : Nat} (h : n ≤ m + min (p.line.length - 1) 1) : n ≤ m + 1 := by omega
  unfold proceed
  split
  · exact Nat.le_add_right _ 1
  · split
    · exact Nat.le_trans (Nat.le_of_eq (load_deliver W p t _).1) (Nat.le_add_right _ 1)
    · exact Nat.le_add_right _ 1
  · split <;> exact Nat.le_add_right _ 1
  · split
    · exact hmin (load_depart_le hline t _)
    · exact Nat.le_add_right _ 1
  · split
    · exact hmin (load_land_le hline t _)
    · exact Nat.le_add_right _ 1

/-! ### Workers -/

theorem load_finishJob_le (W : Task → Nat) (p : Pipeline) (w : Nat) (q : Posting) :
    (p.finishJob w q).load W ≤ p.load W := by
  have hqueued : (p.dispatcher.release w q).queued.length
      ≤ p.dispatcher.queued.length := by
    rw [Dispatcher.release_eq]
    cases hp : p.dispatcher.pool with
    | none => simp [Dispatcher.queued, hp]
    | some pool =>
      simp only [Dispatcher.queued, hp, Option.map_some, Option.getD_some]
      split
      · rw [Pool.jobs_lose]
        split <;> simp
      · exact Nat.le_refl _
  unfold finishJob load noteAll
  dsimp only
  omega

/-- A worker takes a job from the queue for the turn it may go on with, and for the one it wakes
the next worker for. -/
theorem load_seekJob_le (hworker : ∀ w, W (.worker w) = 1) (p : Pipeline) (w : Nat) :
    (p.seekJob w).load W ≤ p.load W := by
  unfold seekJob
  split
  next =>
    have hseek := p.dispatcher.seek_eq w
    split
    next d hd =>
      rw [hd] at hseek
      have hqueued : p.dispatcher.queued = d.queued := hseek.1
      simp only [load, hqueued]
      exact Nat.le_refl _
    next d j hd =>
      rw [hd] at hseek
      have hqueued : p.dispatcher.queued = j :: d.queued := hseek.1
      have htake : load W { p with dispatcher := d } + 2 = p.load W := by
        simp only [load, hqueued, List.length_cons]
        omega
      have hone : ∀ t ∈ d.line.map Task.worker, W t ≤ 1 := by
        intro t ht
        obtain ⟨v, -, rfl⟩ := List.mem_map.mp ht
        exact Nat.le_of_eq (hworker v)
      have hwake := load_wakeFirst_le ({ p with dispatcher := d }.note (.taken w j)) _ hone
      have hnote : ({ p with dispatcher := d }.note (.taken w j)).load W
        = load W { p with dispatcher := d } := rfl
      dsimp only
      generalize ({ p with dispatcher := d }.note (.taken w j)).wakeFirst (d.line.map .worker) = p₁
        at hwake ⊢
      split
      next =>
        rw [load_resumeFirst, hworker]
        have hfinish := load_finishJob_le W
          (p₁.post (.worker w) .delivery j.url j.body p₁.dispatcher.workerTimeout).1 w
          (p₁.post (.worker w) .delivery j.url j.body p₁.dispatcher.workerTimeout).2
        rw [load_post] at hfinish
        omega
      next =>
        have hengage (p : Pipeline) (q : Posting) :
            load W { p with dispatcher := p.dispatcher.engage w q } = p.load W := by
          simp only [load, Dispatcher.queued_engage]
        rw [hengage, load_post]
        omega
  next => exact Nat.le_refl _

theorem load_workerTurn_le (hworker : ∀ w, W (.worker w) = 1) (p : Pipeline) (w : Nat) :
    (p.workerTurn w).load W ≤ p.load W := by
  unfold workerTurn
  split
  · split
    · exact Nat.le_trans (load_seekJob_le hworker _ w) (load_finishJob_le W p w _)
    · exact Nat.le_refl _
  · exact load_seekJob_le hworker p w

/-! ### Rounds -/

end Pipeline

/-- Of the five records of a round one waits for its POST, so fewer are left. -/
structure Round.Small (r : Round) : Prop where
  delivers : (Hand.ofStage r.stage).delivers
  rest : r.rest.length < 5

theorem Round.Small.delivering {r : Round} (hr : r.Small) : ∃ q, r.stage = .delivering q := by
  cases hs : r.stage with
  | delivering q => exact ⟨q, rfl⟩
  | _ => exact absurd hr.delivers (by simp [hs, Hand.ofStage, Hand.delivers])

namespace Pipeline

variable {W : Task → Nat} {t : Task} {p : Pipeline}

def RoundStage.Small : RoundStage → Prop
  | .under r => r.Small
  | _ => True

theorem delivers_submit (p : Pipeline) (t : Task) (j : Job) (deadline : Duration) :
    (∃ r, (p.submit t j deadline).2 = .ended r)
      ∨ (Hand.ofStage (p.submit t j deadline).2).delivers := by
  have hfallback (p : Pipeline) : (∃ r, (p.fallback t j deadline).2 = .ended r)
      ∨ (Hand.ofStage (p.fallback t j deadline).2).delivers := by
    unfold fallback
    dsimp only
    split
    · exact .inl ⟨_, rfl⟩
    · exact .inr rfl
  unfold submit
  dsimp only
  split
  · exact .inl ⟨_, rfl⟩
  · exact hfallback _
  · exact hfallback _

theorem load_notePush (W : Task → Nat) (p : Pipeline) (kind : Kind) (r : CallResult)
    (failures : Nat) :
    (p.notePush kind r failures).1.load W = p.load W
      ∧ (p.notePush kind r failures).1.spare = p.spare := by
  unfold notePush
  split <;> exact ⟨rfl, rfl⟩

theorem load_countRound (W : Task → Nat) (p : Pipeline) (failures : Nat) :
    (p.countRound failures).load W = p.load W ∧ (p.countRound failures).spare = p.spare := by
  unfold countRound
  dsimp only
  split <;> exact ⟨rfl, rfl⟩

/-- Every record adds at most its job, and the record that waits is not the last one pushed. -/
theorem pushRecords_bounded (hworker : ∀ w, W (.worker w) = 1) (t : Task) (c : AgentConfig)
    (records : List Report) (p : Pipeline) (failures : Nat) (hlength : records.length ≤ 5) :
    (p.pushRecords t c records failures).1.load W + (p.pushRecords t c records failures).1.spare
        ≤ p.load W + p.spare + 2 * records.length
      ∧ (p.pushRecords t c records failures).2.Small := by
  induction records generalizing p failures with
  | nil =>
    obtain ⟨hload, hspare⟩ := load_countRound W p failures
    exact ⟨Nat.le_of_eq (by rw [List.length_nil, ← hload, ← hspare]; rfl), trivial⟩
  | cons r rest ih =>
    have hbegin := load_begin_push_le hworker p t (c.endpoint r.kind.path) r c.pushTimeout
    have hstage : (∃ result,
          (p.begin t (.push (c.endpoint r.kind.path) (.ok r) c.pushTimeout)).2 = .ended result)
        ∨ (Hand.ofStage
          (p.begin t (.push (c.endpoint r.kind.path) (.ok r) c.pushTimeout)).2).delivers :=
      delivers_submit _ _ _ _
    rw [List.length_cons] at hlength ⊢
    unfold pushRecords
    dsimp only
    generalize p.begin t (.push (c.endpoint r.kind.path) (.ok r) c.pushTimeout) = b
      at hbegin hstage ⊢
    split
    next result _ =>
      have hnote := load_notePush W b.1 r.kind result failures
      split
      next p' failures' hp =>
        rw [hp] at hnote
        dsimp only at hnote
        obtain ⟨hload, hsmall⟩ := ih p' failures' (by omega)
        exact ⟨by omega, hsmall⟩
      next p' hp =>
        rw [hp] at hnote
        dsimp only at hnote ⊢
        exact ⟨by omega, trivial⟩
    next hended =>
      refine ⟨Nat.le_trans hbegin (by omega), ⟨?_, Nat.lt_of_succ_le hlength⟩⟩
      rcases hstage with ⟨result, hresult⟩ | hdelivers
      · exact absurd hresult (hended result)
      · exact hdelivers

theorem proceedRound_bounded (hworker : ∀ w, W (.worker w) = 1) (p : Pipeline) (t : Task)
    (c : AgentConfig) {r : Round} (hr : r.Small) :
    (p.proceedRound t c r).1.load W + (p.proceedRound t c r).1.spare ≤ p.load W + p.spare + 8
      ∧ (p.proceedRound t c r).2.Small := by
  have hrest := hr.rest
  obtain ⟨q, hq⟩ := hr.delivering
  unfold proceedRound
  rw [hq]
  unfold proceed
  dsimp only
  by_cases hdue : q.due ≤ p.now
  · obtain ⟨hload, hspare⟩ := load_deliver W p t q
    simp only [if_pos hdue]
    have hnote := load_notePush W (p.deliver t q).1 r.kind (p.deliver t q).2 r.failures
    split
    next p' failures' hp =>
      rw [hp] at hnote
      dsimp only at hnote
      obtain ⟨hpush, hsmall⟩ := pushRecords_bounded hworker t c r.rest p' failures' (by omega)
      exact ⟨by omega, hsmall⟩
    next p' hp =>
      rw [hp] at hnote
      dsimp only at hnote ⊢
      exact ⟨by omega, trivial⟩
  · simp only [if_neg hdue]
    exact ⟨Nat.le_add_right _ 8, ⟨rfl, hrest⟩⟩

theorem beginRound_bounded (hworker : ∀ w, W (.worker w) = 1) (p : Pipeline) (t : Task)
    (g : Generator) :
    (p.beginRound t g).1.load W + (p.beginRound t g).1.spare ≤ p.load W + p.spare + 10
      ∧ (p.beginRound t g).2.2.Small :=
  pushRecords_bounded hworker t g.config (Demo.records (g.rounds + 1)) p 0 (Nat.le_refl 5)

end Pipeline

end Uplink
