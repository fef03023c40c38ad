import Uplink.Proofs.Session.Postings
/-!
The workers of the dispatcher.  An idle worker stands in line or can go on, the first in line can go
on while there are jobs, and a busy one goes on at the end of its POST.  So where no task can go on
and there are jobs, every worker that is left posts.
-/
namespace Uplink

namespace Pool

variable {p : Pool} {v w : Nat}

theorem mem_line_join : v ∈ (p.join w).line ↔ v ∈ p.line ∨ v = w := by
  unfold join
  split
  next hw => exact ⟨.inl, fun h => h.elim id fun h => h ▸ hw⟩
  next => simp

theorem nodup_line_join (h : p.line.Nodup) : (p.join w).line.Nodup := by
  unfold join
  split
  next => exact h
  next hw =>
    refine List.nodup_append.mpr ⟨h, by simp, fun v hv u hu => ?_⟩
    rintro rfl
    exact hw (List.mem_singleton.mp hu ▸ hv)

/-- Whoever was first in line stays there when a worker joins. -/
theorem head?_line_join (h : (p.join w).line.head? = some v) (hv : v ≠ w) :
    p.line.head? = some v := by
  unfold join at h
  split at h
  · exact h
  · cases hline : p.line with
    | nil => simp [hline, hv.symm] at h
    | cons u line => simpa [hline] using h

/-- A worker that joins the line takes the oldest job if it is the first there, and none if it is
not or if there is none. -/
theorem seek_cases (p : Pool) (w : Nat) :
    (p.seek w = (p.join w, none) ∧ ¬((p.join w).line.head? = some w ∧ p.jobs ≠ []))
      ∨ ∃ line j jobs, (p.join w).line = w :: line ∧ p.jobs = j :: jobs
        ∧ p.seek w = ({ p.join w with line, jobs }, some j) := by
  have hjobs := p.jobs_join w
  unfold seek
  dsimp only
  split
  next first line j jobs hline hj =>
    by_cases hfirst : first = w
    · subst hfirst
      exact .inr ⟨line, j, jobs, hline, hjobs ▸ hj, by simp⟩
    · refine .inl ⟨by simp [hfirst], fun hcontra => hfirst ?_⟩
      simpa [hline] using hcontra.1
  next hnone =>
    refine .inl ⟨rfl, fun hcontra => ?_⟩
    obtain ⟨line, hline⟩ := List.head?_eq_some_iff.mp hcontra.1
    obtain ⟨j, jobs, hj⟩ := List.exists_cons_of_ne_nil hcontra.2
    exact hnone w line j jobs hline (hjobs.trans hj)

end Pool

namespace Dispatcher

variable {d d' : Dispatcher} {v w : Nat} {j : Job} {q : Posting} {o : Outcome}

theorem pool_of_worker? {worker : Worker} (h : d.worker? w = some worker) :
    ∃ p, d.pool = some p ∧ p.workers[w]? = some worker := by
  unfold worker? at h
  exact Option.bind_eq_some_iff.mp h

theorem seek_none (idle : d.worker? w = some .idle) (h : d.seek w = (d', none)) :
    ∃ p, d.pool = some p ∧ d' = { d with pool := some (p.join w) }
      ∧ ¬((p.join w).line.head? = some w ∧ p.jobs ≠ []) := by
  obtain ⟨p, hp, -⟩ := pool_of_worker? idle
  unfold seek at h
  rw [hp] at h
  dsimp only at h
  rcases p.seek_cases w with ⟨hseek, hnot⟩ | ⟨line, j, jobs, -, -, hseek⟩
  · rw [hseek] at h
    cases h
    exact ⟨p, hp, rfl, hnot⟩
  · rw [hseek] at h
    simp at h

theorem seek_some (h : d.seek w = (d', some j)) :
    ∃ p line jobs, d.pool = some p ∧ (p.join w).line = w :: line ∧ p.jobs = j :: jobs
      ∧ d' = { d with pool := some { p.join w with line, jobs } } := by
  unfold seek at h
  split at h
  next => simp at h
  next p hp =>
    rcases p.seek_cases w with ⟨hseek, -⟩ | ⟨line, j', jobs, hline, hjobs, hseek⟩
    · rw [hseek] at h
      simp at h
    · rw [hseek] at h
      cases h
      exact ⟨p, line, jobs, hp, hline, hjobs, rfl⟩

theorem line_offer (h : d.offer j = .ok d') : d'.line = d.line := by
  obtain ⟨p, hp, -, -, rfl⟩ := offer_eq h
  simp [line, hp]

theorem worker?_offer (h : d.offer j = .ok d') (w : Nat) : d'.worker? w = d.worker? w := by
  obtain ⟨p, hp, -, -, rfl⟩ := offer_eq h
  simp [worker?, hp]

@[simp] theorem line_engage (d : Dispatcher) (w : Nat) (q : Posting) :
    (d.engage w q).line = d.line := by
  cases hp : d.pool <;> simp [line, engage, updatePool, Pool.assign, hp]

theorem worker?_engage_of_ne (hv : v ≠ w) (q : Posting) :
    (d.engage w q).worker? v = d.worker? v := by
  cases hp : d.pool <;> simp [worker?, engage, updatePool, Pool.assign, hp, hv.symm]

theorem worker?_release_of_ne (hv : v ≠ w) (q : Posting) :
    (d.release w q).worker? v = d.worker? v := by
  rw [release_eq]
  cases hp : d.pool with
  | none => simp [worker?, hp]
  | some p =>
    simp only [worker?, hp, Option.map_some, Option.bind_some]
    split
    · rw [Pool.workers_lose, List.getElem?_set_ne hv.symm]
    · simp [Pool.assign, hv.symm]

/-- A worker whose POST is over does not post. -/
theorem worker?_release (q q' : Posting) : (d.release w q).worker? w ≠ some (.busy q') := by
  rw [release_eq]
  cases hp : d.pool with
  | none => simp [worker?]
  | some p =>
    simp only [worker?, Option.map_some, Option.bind_some]
    split
    · rw [Pool.workers_lose, List.getElem?_set_self']
      cases p.workers[w]? <;> simp
    · unfold Pool.assign
      rw [List.getElem?_set_self']
      cases p.workers[w]? <;> simp

@[simp] theorem line_release (d : Dispatcher) (w : Nat) (q : Posting) :
    (d.release w q).line = d.line := by
  have hlose (p : Pool) : (p.lose w).line = p.line := by
    unfold Pool.lose
    dsimp only
    split <;> rfl
  rw [release_eq]
  cases hp : d.pool with
  | none => simp [line, hp]
  | some p =>
    simp only [line, hp, Option.map_some, Option.getD_some]
    split
    · exact hlose p
    · rfl

/-! ### Workers in line -/

structure Lines (d : Dispatcher) : Prop where
  nodup : d.line.Nodup
  idle : ∀ w ∈ d.line, d.worker? w = some .idle

theorem Lines.join {p : Pool} (h : d.Lines) (hp : d.pool = some p)
    (idle : d.worker? w = some .idle) : Lines { d with pool := some (p.join w) } where
  nodup := Pool.nodup_line_join (by simpa [line, hp] using h.nodup)
  idle v hv := by
    have hworker : worker? { d with pool := some (p.join w) } v = d.worker? v := by
      simp [worker?, hp]
    rw [hworker]
    rcases Pool.mem_line_join.mp hv with hv | rfl
    · exact h.idle v (by simpa [line, hp] using hv)
    · exact idle

/-- The worker that takes a job leaves the line. -/
theorem Lines.take (h : d.Lines) (idle : d.worker? w = some .idle)
    (hd : d.seek w = (d', some j)) (q : Posting) : (d'.engage w q).Lines := by
  obtain ⟨p, line, jobs, hp, hline, -, rfl⟩ := seek_some hd
  obtain ⟨hnodup, hidle⟩ := h.join hp idle
  change (p.join w).line.Nodup at hnodup
  change ∀ v ∈ (p.join w).line, _ at hidle
  rw [hline] at hnodup hidle
  constructor
  · rw [line_engage]
    exact (List.nodup_cons.mp hnodup).2
  · rw [line_engage]
    intro v hv
    have hne : v ≠ w := fun hvw => (List.nodup_cons.mp hnodup).1 (hvw ▸ hv)
    rw [worker?_engage_of_ne hne]
    exact hidle v (List.mem_cons_of_mem w hv)

theorem Lines.release (h : d.Lines) (busy : d.worker? w = some (.busy q)) :
    (d.release w q).Lines := by
  constructor
  · rw [line_release]
    exact h.nodup
  · rw [line_release]
    intro v hv
    have hidle := h.idle v hv
    have hne : v ≠ w := by
      rintro rfl
      simp [busy] at hidle
    rw [worker?_release_of_ne hne, hidle]

end Dispatcher

namespace Pipeline

variable {quits : Prop} {t : Option Task} {u : Task} {w : Nat} {p p' p₁ : Pipeline} {h h' : Hand}

/-- The workers attend to the queue, leaving aside the task that has its turn. -/
structure Attends (p : Pipeline) (t : Option Task) : Prop where
  lines : p.dispatcher.Lines
  idle : ∀ w, some (.worker w) ≠ t → p.dispatcher.worker? w = some .idle →
    w ∈ p.dispatcher.line ∨ .worker w ∈ p.ready
  first : ∀ w, some (.worker w) ≠ t → p.dispatcher.line.head? = some w →
    p.dispatcher.queued ≠ [] → .worker w ∈ p.ready
  busy : ∀ w q, some (.worker w) ≠ t → p.dispatcher.worker? w = some (.busy q) →
    p.Awaits (.worker w) q

/-- Workers other than the one that has its turn can still go on, and still wait for their POSTs. -/
structure Undisturbed (t : Option Task) (p p' : Pipeline) : Prop where
  ready : ∀ w, some (.worker w) ≠ t → .worker w ∈ p.ready → .worker w ∈ p'.ready
  awaits : ∀ w q, some (.worker w) ≠ t → p.Awaits (.worker w) q → p'.Awaits (.worker w) q

theorem Undisturbed.of_subset (hnow : p'.now = p.now) (htimers : p.timers ⊆ p'.timers)
    (hready : p.ready ⊆ p'.ready) : Undisturbed t p p' where
  ready _ _ hw := hready hw
  awaits _ _ _ ha := by
    unfold Awaits
    rw [hnow]
    exact ha.imp (fun hlt => ⟨hlt.1, htimers hlt.2⟩) fun hdue => ⟨hdue.1, hready hdue.2⟩

theorem Step.undisturbed (hs : Step quits u p h p' h') : Undisturbed (some u) p p' where
  ready _ _ hw := hs.ready_subset hw
  awaits _ _ hw ha := ha.steps hs.steps fun hwu => hw (congrArg some hwu)

theorem post_keeps {t : Task} {aim : Aim} {url : String} {body : Octets} {deadline : Duration}
    {q : Posting} (hq : p.post t aim url body deadline = (p', q)) :
    p'.now = p.now ∧ p'.dispatcher = p.dispatcher ∧ p'.ready = p.ready ∧ p.timers ⊆ p'.timers := by
  cases hq
  refine ⟨rfl, rfl, rfl, fun timer hmem => ?_⟩
  show timer ∈ if _ then _ else _
  split
  · exact hmem
  · exact List.mem_append_left _ hmem

/-- Workers attend to the queue if those that are idle, first in line or busy now either were so
before or can go on. -/
theorem Attends.change (hp : p.Attends t) (hu : Undisturbed t p p') (lines : p'.dispatcher.Lines)
    (idle : ∀ w, some (.worker w) ≠ t → p'.dispatcher.worker? w = some .idle →
      .worker w ∈ p'.ready ∨ p.dispatcher.worker? w = some .idle
        ∧ (w ∈ p.dispatcher.line → w ∈ p'.dispatcher.line))
    (first : ∀ w, some (.worker w) ≠ t → p'.dispatcher.line.head? = some w →
      p'.dispatcher.queued ≠ [] →
      .worker w ∈ p'.ready ∨ p.dispatcher.line.head? = some w ∧ p.dispatcher.queued ≠ [])
    (busy : ∀ w q, some (.worker w) ≠ t → p'.dispatcher.worker? w = some (.busy q) →
      p.dispatcher.worker? w = some (.busy q)) : p'.Attends t where
  lines := lines
  idle w hw hidle := by
    rcases idle w hw hidle with hready | ⟨hbefore, hline⟩
    · exact .inr hready
    · exact (hp.idle w hw hbefore).imp hline (hu.ready w hw)
  first w hw hhead hqueued := by
    rcases first w hw hhead hqueued with hready | ⟨hbefore, hjobs⟩
    · exact hready
    · exact hu.ready w hw (hp.first w hw hbefore hjobs)
  busy w q hw hbusy := hu.awaits w q hw (hp.busy w q hw (busy w q hw hbusy))

/-- Only the pool of the dispatcher matters. -/
theorem Attends.congr (hp : p.Attends t) (hu : Undisturbed t p p')
    (hpool : p'.dispatcher.pool = p.dispatcher.pool) : p'.Attends t := by
  have hline : p'.dispatcher.line = p.dispatcher.line := by simp only [Dispatcher.line, hpool]
  have hqueued : p'.dispatcher.queued = p.dispatcher.queued := by
    simp only [Dispatcher.queued, hpool]
  have hworker (w : Nat) : p'.dispatcher.worker? w = p.dispatcher.worker? w := by
    simp only [Dispatcher.worker?, hpool]
  refine hp.change hu ⟨hline ▸ hp.lines.nodup, fun w hw => ?_⟩ (fun w _ hidle => ?_)
    (fun w _ hhead hjobs => ?_) fun w q _ hbusy => hworker w ▸ hbusy
  · rw [hworker]
    exact hp.lines.idle w (hline ▸ hw)
  · exact .inr ⟨hworker w ▸ hidle, fun hw => hline ▸ hw⟩
  · exact .inr ⟨hline ▸ hhead, hqueued ▸ hjobs⟩

/-- Workers that are started can go on. -/
theorem Attends.startWorkers (hp : p.Attends t) (workers capacity : Nat) :
    (p.startWorkers workers capacity).Attends t := by
  unfold Pipeline.startWorkers
  split
  next => exact hp
  next hstarted =>
    have hnone : p.dispatcher.pool = none := by
      simpa [Dispatcher.isStarted] using hstarted
    obtain ⟨n, c, hstart⟩ : ∃ n c, p.dispatcher.start workers capacity
        = { p.dispatcher with pool := some (.create n c) } := by
      unfold Dispatcher.start
      rw [hnone]
      exact ⟨_, _, rfl⟩
    rw [hstart]
    have hu : Undisturbed t p { p with
        dispatcher := { p.dispatcher with pool := some (.create n c) }
        ready := p.ready ++ (List.range (List.replicate n Worker.idle).length).map .worker } :=
      .of_subset rfl (fun _ => id) fun _ => List.mem_append_left _
    refine hp.change hu ⟨List.nodup_nil, by simp [Dispatcher.line, Pool.create]⟩
      (fun w _ hidle => ?_) (fun w _ hhead => ?_) fun w q _ hbusy => ?_
    · have hw : w < n := by
        simpa [Dispatcher.worker?, Pool.create, List.getElem?_replicate] using hidle
      exact .inl (List.mem_append_right _ (by simpa [Pool.create] using hw))
    · simp [Dispatcher.line, Pool.create] at hhead
    · simp [Dispatcher.worker?, Pool.create, List.getElem?_replicate] at hbusy

theorem Submits.attends {c : Call} {j : Job} {deadline : Duration}
    (hs : Submits u p c j deadline p₁) (hp : p.Attends t) : p₁.Attends t := by
  cases hs with
  | submit url body deadline =>
    refine Attends.startWorkers ?_ 0 0
    exact hp.congr (.of_subset rfl (fun _ => id) fun _ => id) rfl
  | push url r timeout hr =>
    refine Attends.startWorkers ?_ 0 0
    exact hp.congr (.of_subset rfl (fun _ => id) fun _ => id) rfl

theorem Attends.step (hp : p.Attends (some u)) (hs : Step quits u p h p' h') :
    p'.Attends (some u) := by
  have hu := hs.undisturbed
  have hsame (hpool : p'.dispatcher.pool = p.dispatcher.pool) : p'.Attends (some u) :=
    hp.congr hu hpool
  cases hs with
  | start workers capacity => exact hp.startWorkers workers capacity
  | @queue _ _ _ j _ p₁ d hs hd =>
    have hstarted := hs.attends hp
    have hline := Dispatcher.line_offer hd
    have hworker := Dispatcher.worker?_offer hd
    refine hstarted.change
      (.of_subset rfl (fun _ => id) fun v hv => (mem_ready_wakeFirst _ _ _).mpr (.inl hv))
      (show d.Lines from ⟨hline ▸ hstarted.lines.nodup, fun w hw => ?_⟩)
      (fun w _ hidle => .inr ⟨hworker w ▸ hidle, fun hw => hline ▸ hw⟩) (fun w _ hhead _ => ?_)
      fun w q _ hbusy => hworker w ▸ hbusy
    · rw [hworker]
      exact hstarted.lines.idle w (hline ▸ hw)
    · change d.line.head? = some w at hhead
      exact .inl ((mem_ready_wakeFirst _ _ _).mpr (.inr (by simp [hhead])))
  | divert hs hd hq =>
    obtain ⟨hnow, hdispatcher, hready, htimers⟩ := post_keeps hq
    exact (hs.attends hp).congr (.of_subset hnow htimers (fun _ hv => hready ▸ hv))
      (by rw [hdispatcher]; rfl)
  | deliver due =>
    refine hsame ?_
    rw [deliver_eq, Dispatcher.countOutcome_eq]
    rfl
  | direct url body deadline hq => cases hq; exact hsame rfl
  | @seek w _ d idle hd =>
    obtain ⟨pool, hpool, rfl, hnot⟩ := Dispatcher.seek_none idle hd
    have hworker (v : Nat) : Dispatcher.worker? { p.dispatcher with pool := some (pool.join w) } v
        = p.dispatcher.worker? v := by simp [Dispatcher.worker?, hpool]
    refine hp.change hu (hp.lines.join hpool idle)
      (fun v _ hidle => .inr ⟨hworker v ▸ hidle, fun hv => ?_⟩) (fun v hv hhead hjobs => ?_)
      fun v q _ hbusy => hworker v ▸ hbusy
    · exact Pool.mem_line_join.mpr (.inl (by simpa [Dispatcher.line, hpool] using hv))
    · have hne : v ≠ w := fun hvw => hv (by rw [hvw])
      refine .inr ⟨?_, ?_⟩
      · simpa [Dispatcher.line, hpool] using Pool.head?_line_join hhead hne
      · simpa [Dispatcher.queued, hpool] using hjobs
  | @take w _ d j _ q idle hd hq =>
    have hlines := hp.lines.take idle hd q
    have hworker (v : Nat) : d.worker? v = p.dispatcher.worker? v := by
      have hkeep := (p.dispatcher.seek_eq w).2.2.2 v
      rwa [hd] at hkeep
    obtain ⟨pool, line, jobs, hpool, hline, -, heq⟩ := Dispatcher.seek_some hd
    have hdline : d.line = line := by rw [heq]; rfl
    have hengage {v : Nat} (hv : some (Task.worker v) ≠ some (.worker w)) :
        (d.engage w q).worker? v = p.dispatcher.worker? v := by
      rw [Dispatcher.worker?_engage_of_ne (fun hvw => hv (by rw [hvw])), hworker]
    obtain ⟨-, -, hready, -⟩ := post_keeps hq
    refine hp.change hu hlines (fun v hv hidle => .inr ⟨hengage hv ▸ hidle, fun hmem => ?_⟩)
      (fun v _ hhead _ => .inl (hready ▸ (mem_ready_wakeFirst _ _ _).mpr (.inr ?_)))
      fun v q hv hbusy => hengage hv ▸ hbusy
    · have hjoin : v ∈ (pool.join w).line :=
        Pool.mem_line_join.mpr (.inl (by simpa [Dispatcher.line, hpool] using hmem))
      rw [hline] at hjoin
      show v ∈ (d.engage w _).line
      rw [Dispatcher.line_engage, hdline]
      exact (List.mem_cons.mp hjoin).resolve_left fun hvw => hv (by rw [hvw])
    · change (d.engage w _).line.head? = some v at hhead
      rw [Dispatcher.line_engage] at hhead
      simp [hhead]
  | @finish w _ q busy due =>
    have hlines := hp.lines.release busy
    have hqueued := Dispatcher.queued_release busy
    have hworker {v : Nat} (hv : some (Task.worker v) ≠ some (.worker w)) :
        (p.dispatcher.release w q).worker? v = p.dispatcher.worker? v :=
      Dispatcher.worker?_release_of_ne (fun hvw => hv (by rw [hvw])) q
    refine hp.change hu hlines (fun v hv hidle => .inr ⟨hworker hv ▸ hidle, fun hmem => ?_⟩)
      (fun v _ hhead hjobs => .inr ⟨?_, ?_⟩) fun v q hv hbusy => hworker hv ▸ hbusy
    · show v ∈ (p.dispatcher.release w q).line
      rwa [Dispatcher.line_release]
    · change (p.dispatcher.release w q).line.head? = some v at hhead
      rwa [Dispatcher.line_release] at hhead
    · change (p.dispatcher.release w q).queued ≠ [] at hjobs
      rw [hqueued] at hjobs
      split at hjobs
      · exact absurd rfl hjobs
      · exact hjobs
  | skip turn hf => exact hsame (by rw [dispatcher_leave])
  | depart turn hf hq => cases hq; exact hsame rfl
  | land due hf accepted => exact hsame (by rw [dispatcher_leave]; rfl)
  | fail due hf => exact hsame (by rw [dispatcher_leave])
  | withdraw hh => exact hsame (congrArg Dispatcher.pool (dispatcher_leave _ _ _))
  | _ => exact hsame rfl

theorem Attends.steps (hp : p.Attends (some u)) (hs : Steps quits u p h p' h') :
    p'.Attends (some u) :=
  hs.preserves (I := fun p _ => p.Attends (some u)) (fun hs hp => hp.step hs) hp

/-! ### The turn of a worker -/

structure Own (w : Nat) (p : Pipeline) : Prop where
  idle : p.dispatcher.worker? w = some .idle → w ∈ p.dispatcher.line ∨ .worker w ∈ p.ready
  first : p.dispatcher.line.head? = some w → p.dispatcher.queued ≠ [] → .worker w ∈ p.ready
  busy : ∀ q, p.dispatcher.worker? w = some (.busy q) → p.Awaits (.worker w) q

/-- A worker that is not idle is not in line. -/
theorem own_of_not_idle (lines : p.dispatcher.Lines)
    (hidle : p.dispatcher.worker? w ≠ some .idle)
    (hbusy : ∀ q, p.dispatcher.worker? w = some (.busy q) → p.Awaits (.worker w) q) : Own w p where
  idle h := absurd h hidle
  first hhead _ := absurd (lines.idle w (List.mem_of_mem_head? hhead)) hidle
  busy := hbusy

/-- A worker that can go on attends to the queue. -/
theorem own_of_ready (hready : .worker w ∈ p.ready)
    (hbusy : ∀ q, p.dispatcher.worker? w ≠ some (.busy q)) : Own w p where
  idle _ := .inr hready
  first _ _ := hready
  busy q hq := absurd hq (hbusy q)

theorem seekJob_own (hp : p.Attends (some (.worker w)))
    (hbusy : ∀ q, p.dispatcher.worker? w ≠ some (.busy q)) : Own w (p.seekJob w) := by
  have hlines := (hp.steps (@seekJob_steps False p w)).lines
  unfold seekJob at hlines ⊢
  split at hlines
  next idle =>
    rw [if_pos idle]
    split at hlines
    next d hd =>
      have hworker := (p.dispatcher.seek_eq w).2.2.2 w
      rw [hd, idle] at hworker
      obtain ⟨pool, hpool, rfl, hnot⟩ := Dispatcher.seek_none idle hd
      exact {
        idle := fun _ => .inl (Pool.mem_line_join.mpr (.inr rfl))
        first := fun hhead hjobs =>
          absurd ⟨hhead, fun hnil => hjobs ((pool.jobs_join w).trans hnil)⟩ hnot
        busy := fun q hq => absurd (hworker.symm.trans hq) (by simp) }
    next d j hd =>
      have hworker := (p.dispatcher.seek_eq w).2.2.2 w
      rw [hd, idle] at hworker
      have htimer := mem_timers_post
        (({ p with dispatcher := d }.note (.taken w j)).wakeFirst (d.line.map .worker)) (.worker w)
        .delivery j.url j.body d.workerTimeout
      dsimp only at hlines ⊢
      split at hlines
      next due =>
        rw [if_pos due]
        exact own_of_ready List.mem_cons_self fun q' => Dispatcher.worker?_release _ q'
      next later =>
        rw [if_neg later]
        have hbusy := Dispatcher.worker?_engage (d := d) (w := w) (by simp [hworker])
          (.ofReply j.url p.now d.workerTimeout (p.receiver.answer j.url).1)
        refine own_of_not_idle hlines (fun hidle => ?_) fun q' hq' => ?_
        · exact absurd (hbusy.symm.trans hidle) (by simp)
        · cases hbusy.symm.trans hq'
          exact .inl ⟨Nat.lt_of_not_le later, htimer.resolve_left later⟩
  next idle =>
    rw [if_neg idle]
    exact own_of_not_idle hp.lines idle fun q hq => absurd hq (hbusy q)

theorem workerTurn_own (hp : p.Attends (some (.worker w)))
    (hbusy : ∀ q, p.dispatcher.worker? w = some (.busy q) →
      q.due ≤ p.now ∨ (q.due, .worker w) ∈ p.timers) : Own w (p.workerTurn w) := by
  unfold workerTurn
  split
  next q busy =>
    split
    next due =>
      exact seekJob_own (hp.step (@Step.finish False _ _ _ busy due)) fun q' =>
        Dispatcher.worker?_release _ q'
    next later =>
      refine own_of_not_idle hp.lines (by simp [busy]) fun q' hq' => ?_
      have hlater : ¬q'.due ≤ p.now := by
        rw [busy] at hq'
        cases hq'
        exact later
      exact .inl ⟨Nat.lt_of_not_le hlater, (hbusy q' hq').resolve_left hlater⟩
  next hother => exact seekJob_own hp fun q hq => hother q hq

/-! ### All tasks -/

theorem Attends.except (hp : p.Attends none) (u : Task) : p.Attends (some u) where
  lines := hp.lines
  idle w _ := hp.idle w (by simp)
  first w _ := hp.first w (by simp)
  busy w q _ := hp.busy w q (by simp)

/-- While a task has its turn, it cannot go on otherwise. -/
theorem Attends.erase (hp : p.Attends none) (u : Task) :
    Attends { p with ready := p.ready.erase u } (some u) := by
  refine (hp.except u).congr ⟨fun w hw hready => ?_, fun w q hw ha => ?_⟩ rfl
  · exact (List.mem_erase_of_ne fun hwu => hw (congrArg some hwu)).mpr hready
  · exact ha.erase fun hwu => hw (congrArg some hwu)

/-- At the end of the turn of a task all workers attend to the queue, if the task does in case it is
a worker. -/
theorem Attends.all (hp : p.Attends (some u)) (hown : ∀ w, u = .worker w → Own w p) :
    p.Attends none where
  lines := hp.lines
  idle w _ := by
    by_cases hu : u = .worker w
    · exact (hown w hu).idle
    · exact hp.idle w fun hw => hu (Option.some.inj hw).symm
  first w _ := by
    by_cases hu : u = .worker w
    · exact (hown w hu).first
    · exact hp.first w fun hw => hu (Option.some.inj hw).symm
  busy w q _ := by
    by_cases hu : u = .worker w
    · exact (hown w hu).busy q
    · exact hp.busy w q fun hw => hu (Option.some.inj hw).symm

theorem Attends.elapse (hp : p.Attends none) (now : Nat) : (p.moveTo now).Attends none := by
  refine hp.congr ⟨fun w _ hw => ?_, fun w q _ ha => ha.elapse now⟩ (by rw [dispatcher_moveTo])
  exact (p.mem_ready_moveTo now (.worker w)).mpr (.inl hw)

end Pipeline

namespace Session

open Pipeline

variable {s : Session}

theorem move_attends (hs : s.toPipeline.Attends none) (m : Move) :
    (s.move m).toPipeline.Attends none := by
  have hm := s.moves_move m
  generalize s.move m = s' at hm ⊢
  cases hm with
  | stays => exact hs
  | start op free =>
    exact ((hs.except .operator).steps (leads_start s op free).steps).all nofun
  | collect => rwa [toPipeline_collect]
  | turn t _ =>
    have hturn := (hs.erase t).steps (leads_turn { s with ready := s.ready.erase t } t).steps
    refine hturn.all fun w hw => ?_
    subst hw
    refine workerTurn_own (hs.erase _) fun q hq => ?_
    exact (hs.busy w q (by simp) hq).elim (fun hlt => .inr hlt.2) fun hdue => .inl hdue.1
  | elapse now => exact hs.elapse now
  | dropOwn calling flushes =>
    exact ((hs.except .operator).steps (leads_dropOwn calling flushes).steps).all nofun
  | drop calling flushes =>
    exact ((hs.except _).steps (leads_drop calling flushes).steps).all nofun
  | discard => exact ((hs.except .operator).steps (leads_stopFlushing s).steps).all nofun

/-- At every point of every session the workers attend to the queue. -/
theorem Reachable.attends (h : s.Reachable) : s.toPipeline.Attends none := by
  refine h.by_moves (P := fun s => s.toPipeline.Attends none)
    (fun a settings identity clock receiver demo chance => ?_) fun s m _ hs => move_attends hs m
  have hfirst : (Pipeline.ofSettings a settings identity clock receiver chance).Attends none :=
    { lines := ⟨List.nodup_nil, fun w hw => absurd hw List.not_mem_nil⟩
      idle := fun w _ hw => nomatch hw
      first := fun w _ hw => nomatch hw
      busy := fun w q _ hw => nomatch hw }
  exact create_of_startWorkers (P := fun p => p.Attends none) hfirst fun _ workers capacity hp =>
    hp.startWorkers workers capacity

/-- Where no task can go on and there are jobs, every worker posts that is not lost. -/
theorem Reachable.exists_busy (h : s.Reachable) (settled : s.ready = [])
    (hqueued : s.dispatcher.queued ≠ []) {w : Nat} {worker : Worker}
    (hw : s.dispatcher.worker? w = some worker) (alive : worker.isLost = false) :
    ∃ q, worker = .busy q := by
  have hattends := h.attends
  cases worker with
  | busy q => exact ⟨q, rfl⟩
  | lost => simp [Worker.isLost] at alive
  | idle =>
    have hline : w ∈ s.dispatcher.line := by
      simpa [settled] using hattends.idle w (by simp) hw
    obtain ⟨first, hfirst⟩ := Option.isSome_iff_exists.mp
      (List.isSome_head?.mpr (List.ne_nil_of_mem hline))
    have hready := hattends.first first (by simp) hfirst hqueued
    simp [settled] at hready

end Session

end Uplink
