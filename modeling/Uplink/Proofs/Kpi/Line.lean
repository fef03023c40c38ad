import Uplink.Proofs.Session.Waits
/-!
The line of the tasks that flush.  The first in line has its turn, and only it can have a report
under way; the others wait in the order they came.
-/
namespace Uplink

namespace Pipeline

theorem line_leave (p : Pipeline) (t : Task) (e : Event) :
    (p.leave t e).line = p.line.erase t := by
  unfold leave
  dsimp only
  split <;> rfl

theorem flight_leave (p : Pipeline) (t : Task) (e : Event) :
    (p.leave t e).kpi.flight = if p.line.head? = some t then none else p.kpi.flight := by
  unfold leave
  dsimp only
  split <;> rfl

/-- How a step on behalf of a task changes the line, the report under way and what the task has in
hand. -/
inductive LineChange (t : Task) (p : Pipeline) : Hand → Pipeline → Hand → Prop
  | keep {h p' h'} (hline : p'.line = p.line) (hflight : p'.kpi.flight = p.kpi.flight)
    (hflushes : h'.flushes = h.flushes) (hflushing : h'.isFlushing = h.isFlushing) :
    LineChange t p h p' h'
  | join {p'} (url : String) (hline : p'.line = p.line ++ [t])
    (hflight : p'.kpi.flight = p.kpi.flight) : LineChange t p .free p' (.waiting (.queueing url))
  | depart {p' url q} (turn : p.line.head? = some t) (hline : p'.line = p.line)
    (hflight : p'.kpi.flight.isSome) :
    LineChange t p (.waiting (.queueing url)) p' (.waiting (.flushing q))
  | leave {h p'} (hline : p'.line = p.line.erase t)
    (hflight : if p.line.head? = some t then p'.kpi.flight = none
      else h.isFlushing ∨ p'.kpi.flight = p.kpi.flight)
    (hready : ∀ u, p.line.head? = some t → p'.line.head? = some u → u ∈ p'.ready) :
    LineChange t p h p' .free

variable {quits : Prop} {t u : Task} {p p' : Pipeline} {h h' : Hand} {hands : Task → Hand}

/-- Every step changes the line in one of these ways. -/
theorem Step.lineChange (hs : Step quits t p h p' h') : LineChange t p h p' h' := by
  have hleave {h : Hand} {p₀ : Pipeline} {e : Event} (hl : p₀.line = p.line)
      (hf : h.isFlushing ∨ p₀.kpi.flight = p.kpi.flight) :
      LineChange t p h (p₀.leave t e) .free := by
    refine .leave (by rw [line_leave, hl]) ?_ fun u turn hu => ?_
    · rw [flight_leave, hl]
      split
      next => rfl
      next => exact hf
    · rw [mem_ready_leave, hl]
      rw [line_leave, hl] at hu
      exact .inr ⟨turn, hu⟩
  have hkeep {h h' : Hand} {p' : Pipeline} (hline : p'.line = p.line)
      (hflight : p'.kpi.flight = p.kpi.flight) (hh : h'.flushes = h.flushes)
      (hh' : h'.isFlushing = h.isFlushing) : LineChange t p h p' h' := .keep hline hflight hh hh'
  cases hs with
  | log l => exact hkeep rfl rfl rfl rfl
  | start workers capacity =>
    unfold startWorkers
    split <;> exact hkeep rfl rfl rfl rfl
  | count c => exact hkeep rfl rfl rfl rfl
  | call c hc => exact hkeep rfl rfl rfl rfl
  | queue hs hd =>
    obtain ⟨-, -, hk, -⟩ := hs.noted
    exact hkeep hs.waits.1 (congrArg Aggregator.flight hk) rfl rfl
  | divert hs hd hq =>
    cases hq
    obtain ⟨-, -, hk, -⟩ := hs.noted
    exact hkeep hs.waits.1 (congrArg Aggregator.flight hk) rfl rfl
  | deliver due =>
    rw [deliver_eq]
    exact hkeep rfl rfl rfl rfl
  | direct url body deadline hq =>
    cases hq
    exact hkeep rfl rfl rfl rfl
  | answered due => exact hkeep rfl rfl rfl rfl
  | seek idle hd => exact hkeep rfl rfl rfl rfl
  | take idle hd hq =>
    cases hq
    exact hkeep rfl rfl rfl rfl
  | finish busy due => exact hkeep rfl rfl rfl rfl
  | join url => exact .join url rfl rfl
  | skip turn hf => exact hleave rfl (.inr rfl)
  | depart turn hf hq =>
    cases hq
    exact .depart turn rfl rfl
  | land due hf accepted => exact hleave rfl (.inl rfl)
  | fail due hf => exact hleave rfl (.inr rfl)
  | withdraw hh => exact hleave rfl (.inr rfl)
  | setTimer due later => exact hkeep rfl rfl rfl rfl
  | dropTimers => exact hkeep rfl rfl rfl rfl
  | resume => exact hkeep rfl rfl rfl rfl
  | wake u => exact hkeep rfl rfl rfl rfl
  | shown j hj => exact hkeep rfl rfl rfl rfl
  | moveClock clock => exact hkeep rfl rfl rfl rfl
  | identify identity => exact hkeep rfl rfl rfl rfl
  | adjust k n => exact hkeep rfl rfl rfl rfl
  | adjustReports n => exact hkeep rfl rfl rfl rfl

theorem head?_erase {line : List Task} (turn : line.head? ≠ some t) :
    (line.erase t).head? = line.head? := by
  cases line with
  | nil => rfl
  | cons v line =>
    have hv : v ≠ t := fun hv => turn (by rw [hv]; rfl)
    rw [List.erase_cons_tail (by simpa using hv)]
    rfl

/-- In line stand the tasks that flush, each of them once, and a report is under way exactly while
the first of them waits for its POST. -/
structure Lined (p : Pipeline) (hands : Task → Hand) : Prop where
  nodup : p.line.Nodup
  mem_line : ∀ t, t ∈ p.line ↔ (hands t).flushes
  turn : ∀ t, (hands t).isFlushing → p.line.head? = some t
  flight : p.kpi.flight.isSome ↔ ∃ t, (hands t).isFlushing

theorem Lined.not_mem_line (hp : p.Lined hands) (hfree : hands t = .free) : t ∉ p.line := by
  simp [hp.mem_line, hfree, Hand.flushes, Hand.isFlushing]

/-- All hands stay as they are in what does not change in one of them. -/
theorem update_same {α : Type} {f : Hand → α} (same : f h' = f (hands t)) (u : Task) :
    f (Function.update hands t h' u) = f (hands u) := by
  by_cases hu : u = t
  · rw [hu, Function.update_self, same]
  · rw [Function.update_of_ne hu]

/-- A task that has not the turn does not wait for the POST of a report. -/
theorem Lined.isFlushing_eq_false (hp : p.Lined hands) (hturn : p.line.head? ≠ some t) :
    (hands t).isFlushing = false :=
  Bool.eq_false_iff.mpr fun hflushing => hturn (hp.turn t hflushing)

/-- A task that gives up what it has in hand without having the turn waits for no such POST. -/
theorem Lined.isFlushing_eq (hp : p.Lined hands)
    (keeps : h'.isFlushing = (hands t).isFlushing ∨ h' = .free ∧ p.line.head? ≠ some t) :
    h'.isFlushing = (hands t).isFlushing := by
  rcases keeps with keeps | ⟨rfl, hturn⟩
  · exact keeps
  · exact (hp.isFlushing_eq_false hturn).symm

theorem Lined.keep (hp : p.Lined hands) (hline : p'.line = p.line)
    (hflight : p'.kpi.flight = p.kpi.flight) (hflushes : h'.flushes = (hands t).flushes)
    (hflushing : h'.isFlushing = (hands t).isFlushing) : p'.Lined (Function.update hands t h') where
  nodup := hline ▸ hp.nodup
  mem_line u := by rw [hline, hp.mem_line, update_same hflushes]
  turn u hu := by
    rw [update_same hflushing] at hu
    exact hline ▸ hp.turn u hu
  flight := by
    rw [hflight, hp.flight]
    exact exists_congr fun u => by rw [update_same hflushing]

theorem Lined.join (hp : p.Lined hands) (hh : hands t = .free) (url : String)
    (hline : p'.line = p.line ++ [t]) (hflight : p'.kpi.flight = p.kpi.flight) :
    p'.Lined (Function.update hands t (.waiting (.queueing url))) := by
  have hnew : t ∉ p.line := hp.not_mem_line hh
  have hsame (u : Task) : (Function.update hands t (.waiting (.queueing url)) u).isFlushing
      = (hands u).isFlushing := update_same (f := Hand.isFlushing) (by rw [hh]; rfl) u
  constructor
  case nodup =>
    rw [hline, List.nodup_append]
    refine ⟨hp.nodup, by simp, fun u hu v hv => ?_⟩
    rintro rfl
    exact hnew (List.mem_singleton.mp hv ▸ hu)
  case mem_line =>
    intro u
    rw [hline, List.mem_append, List.mem_singleton]
    by_cases hu : u = t
    · subst hu
      simp [Hand.flushes]
    · simp [hu, hp.mem_line]
  case turn =>
    intro u hu
    have hhead := hp.turn u (hsame u ▸ hu)
    rw [hline, List.head?_append, hhead]
    rfl
  case flight =>
    rw [hflight, hp.flight]
    exact exists_congr fun u => by rw [hsame u]

theorem Lined.depart (hp : p.Lined hands) {url : String} (hh : hands t = .waiting (.queueing url))
    (q : Posting) (turn : p.line.head? = some t) (hline : p'.line = p.line)
    (hflight : p'.kpi.flight.isSome) :
    p'.Lined (Function.update hands t (.waiting (.flushing q))) where
  nodup := hline ▸ hp.nodup
  mem_line u := by
    rw [hline, hp.mem_line, update_same (f := Hand.flushes)]
    rw [hh]
    rfl
  turn u hu := by
    rw [hline]
    by_cases hut : u = t
    · exact hut ▸ turn
    · exact hp.turn u (Function.update_of_ne hut _ hands ▸ hu)
  flight := iff_of_true hflight ⟨t, by rw [Function.update_self]; rfl⟩

theorem Lined.leave (hp : p.Lined hands) (hline : p'.line = p.line.erase t)
    (hflight : if p.line.head? = some t then p'.kpi.flight = none
      else (hands t).isFlushing ∨ p'.kpi.flight = p.kpi.flight) :
    p'.Lined (Function.update hands t .free) := by
  have hne {u : Task} (hu : (Function.update hands t .free u).isFlushing) : u ≠ t := by
    rintro rfl
    simp [Hand.isFlushing] at hu
  have hhead {u : Task} (hu : (Function.update hands t .free u).isFlushing) :
      p.line.head? = some u :=
    hp.turn u (Function.update_of_ne (hne hu) _ hands ▸ hu)
  constructor
  case nodup => exact hline ▸ hp.nodup.erase t
  case mem_line =>
    intro u
    rw [hline, hp.nodup.mem_erase_iff, hp.mem_line]
    by_cases hu : u = t
    · subst hu
      simp [Hand.flushes, Hand.isFlushing]
    · simp [hu]
  case turn =>
    intro u hu
    rw [hline, head?_erase (by simpa [hhead hu] using hne hu), hhead hu]
  case flight =>
    split at hflight
    next turn =>
      rw [hflight]
      refine iff_of_false (by simp) ?_
      rintro ⟨u, hu⟩
      exact hne hu (Option.some.inj ((hhead hu).symm.trans turn))
    next turn =>
      have hwaits := hp.isFlushing_eq_false turn
      have hkept := hflight.resolve_left (by simp [hwaits])
      rw [hkept, hp.flight]
      exact exists_congr fun u => by rw [update_same (f := Hand.isFlushing) (by rw [hwaits]; rfl)]

theorem Lined.step (hs : Step quits t p (hands t) p' h') (hp : p.Lined hands) :
    p'.Lined (Function.update hands t h') := by
  have hchange := hs.lineChange
  generalize hh : hands t = h at hchange
  cases hchange with
  | keep hline hflight hflushes hflushing =>
    exact hp.keep hline hflight (hh ▸ hflushes) (hh ▸ hflushing)
  | join url hline hflight => exact hp.join hh url hline hflight
  | depart turn hline hflight => exact hp.depart hh _ turn hline hflight
  | leave hline hflight _ => exact hp.leave hline (hh ▸ hflight)

theorem lined_of_fresh (hp : p.Fresh) : p.Lined fun _ => .free := by
  obtain ⟨settings, hk⟩ := hp.kpi
  exact {
    nodup := hp.line ▸ List.nodup_nil
    mem_line := fun t => by simp [hp.line, Hand.flushes, Hand.isFlushing]
    turn := fun t ht => by simp [Hand.isFlushing] at ht
    flight := by simp [hk, Aggregator.create, Hand.isFlushing] }

theorem timeless_lined : Timeless Lined :=
  fun _ _ _ _ _ hp => ⟨hp.nodup, hp.mem_line, hp.turn, hp.flight⟩

theorem invariant_lined : Invariant Lined := .of_timeless (fun hs hp => hp.step hs) timeless_lined

/-! ### Order of the line -/

/-- Those who stay in line keep their order, and those who come are behind them. -/
def Follows (line line' : List Task) : Prop :=
  ∃ kept joined, line' = kept ++ joined ∧ kept.Sublist line

theorem Follows.refl (line : List Task) : Follows line line :=
  ⟨line, [], (List.append_nil line).symm, .refl line⟩

theorem Follows.erase {line line' : List Task} (h : Follows line line') (t : Task) :
    Follows line (line'.erase t) := by
  obtain ⟨kept, joined, rfl, hkept⟩ := h
  rw [List.erase_append]
  split
  · exact ⟨_, _, rfl, List.erase_sublist.trans hkept⟩
  · exact ⟨_, _, rfl, hkept⟩

theorem Follows.join {line line' : List Task} (h : Follows line line') (t : Task) :
    Follows line (line' ++ [t]) := by
  obtain ⟨kept, joined, rfl, hkept⟩ := h
  exact ⟨kept, joined ++ [t], List.append_assoc _ _ _, hkept⟩

theorem Follows.trans {line line' line'' : List Task} (h : Follows line line')
    (h' : Follows line' line'') : Follows line line'' := by
  obtain ⟨kept, joined, rfl, hkept⟩ := h
  obtain ⟨kept', joined', rfl, hkept'⟩ := h'
  obtain ⟨first, last, rfl, hfirst, -⟩ := List.sublist_append_iff.mp hkept'
  exact ⟨first, last ++ joined', List.append_assoc _ _ _, hfirst.trans hkept⟩

/-- While one task takes steps, no other joins the line. -/
theorem Steps.mem_line (hs : Steps quits t p h p' h') (hu : u ∈ p'.line) : u ∈ p.line ∨ u = t := by
  refine hs.preserves (I := fun p' _ => u ∈ p'.line → u ∈ p.line ∨ u = t) (fun hs hp hu => ?_)
    .inl hu
  cases hs.lineChange with
  | keep hline _ _ _ => exact hp (hline ▸ hu)
  | join url hline _ =>
    rw [hline, List.mem_append, List.mem_singleton] at hu
    exact hu.elim hp .inr
  | depart _ hline _ => exact hp (hline ▸ hu)
  | leave hline _ _ => exact hp (List.mem_of_mem_erase (hline ▸ hu))

/-- While one task takes steps, any other task stays first in line. -/
theorem Steps.head?_line (hs : Steps quits t p h p' h') (hu : u ≠ t)
    (hhead : p.line.head? = some u) :
    p'.line.head? = some u := by
  refine hs.preserves (I := fun p _ => p.line.head? = some u) (fun hs hp => ?_) hhead
  cases hs.lineChange with
  | keep hline _ _ _ => rwa [hline]
  | join url hline _ => rw [hline, List.head?_append, hp]; rfl
  | depart _ hline _ => rwa [hline]
  | leave hline _ _ => rwa [hline, head?_erase (by simpa [hp] using hu)]

/-! ### Who can go on -/

/-- The first in line waits for its POST or can go on, unless it is the task whose turn it is. -/
def Heeds (t : Task) (p : Pipeline) (hands : Task → Hand) : Prop :=
  ∀ u, u ≠ t → p.line.head? = some u → (hands u).isFlushing ∨ u ∈ p.ready

theorem Heeds.steps (hs : Steps quits t p h p' h') (hp : p.Heeds t hands) : p'.Heeds t hands := by
  refine hs.preserves (I := fun p _ => p.Heeds t hands) (fun {p h p' h'} hs hp u hu hhead => ?_) hp
  have hready {u : Task} (hu : u ∈ p.ready) : u ∈ p'.ready := hs.ready_subset hu
  cases hs.lineChange with
  | keep hline _ _ _ => exact (hp u hu (hline ▸ hhead)).imp id hready
  | join url hline _ =>
    rw [hline] at hhead
    cases hl : p.line with
    | nil =>
      rw [hl] at hhead
      exact absurd (by simpa using hhead.symm) hu
    | cons v line =>
      rw [hl] at hhead
      exact (hp u hu (by rw [hl]; simpa using hhead)).imp id hready
  | depart _ hline _ => exact (hp u hu (hline ▸ hhead)).imp id hready
  | leave hline _ hnext =>
    by_cases turn : p.line.head? = some t
    · exact .inr (hnext u turn hhead)
    · rw [hline, head?_erase turn] at hhead
      exact (hp u hu hhead).imp id hready

end Pipeline

namespace Session

/-- At every point of every session, the tasks stand in line as they should. -/
theorem Reachable.lined {s : Session} (h : s.Reachable) : s.toPipeline.Lined s.hand :=
  h.keeps Pipeline.invariant_lined fun _ => Pipeline.lined_of_fresh

end Session

end Uplink
