import Uplink.Proofs.Kpi.Flushers
/-!
The flushers of a session.  The current one is the one that was started last, and all others were
cancelled; a cancelled one has one more turn at most, and a flusher that waits is roused when what
it waits for has come.
-/
namespace Uplink

namespace Steering

/-- The flusher started last, unless flushing was stopped since. -/
def current : List Steering → Option Nat
  | .started id :: _ => some id
  | _ => none

end Steering

/-- A flusher is over once it was cancelled and has ended. -/
def Flusher.Over (f : Flusher) : Prop := f.cancelled ∧ f.stage = .ended

namespace Session

open Pipeline

variable {quits : Prop} {s s' : Session} {id : Nat} {f : Flusher}

theorem getElem?_of_flushing (h : s'.flushing = s.flushing) : s'.flushers[id]? = s.flushers[id]? :=
  congrArg (·[id]?) (congrArg Prod.fst h)

/-! ### The current flusher -/

structure Tended (s : Session) : Prop where
  current : s.current = Steering.current s.steering
  exist : ∀ id, s.current = some id → id < s.flushers.length
  active : ∀ id f, s.flushers[id]? = some f → (f.cancelled = false ↔ s.current = some id)
  leaving : ∀ id f, s.flushers[id]? = some f → f.cancelled →
    f.stage = .ended ∨ .flusher id ∈ s.ready

theorem Tended.of_flushing_eq (hs : s.Tended) (hflushing : s'.flushing = s.flushing)
    (hready : ∀ id, id < s.flushers.length → .flusher id ∈ s.ready → .flusher id ∈ s'.ready) :
    s'.Tended := by
  simp only [flushing, Prod.mk.injEq] at hflushing
  obtain ⟨hflushers, hcurrent, hsteering⟩ := hflushing
  exact {
    current := by rw [hcurrent, hsteering, hs.current]
    exist := by rw [hcurrent, hflushers]; exact hs.exist
    active := by rw [hcurrent, hflushers]; exact hs.active
    leaving := by
      rw [hflushers]
      exact fun id f hf cancelled => (hs.leaving id f hf cancelled).imp_right
        (hready id (List.getElem?_eq_some_iff.mp hf).1) }

theorem Tended.of_flushing_set (hs : s.Tended) (hf : s.flushers[id]? = some f) {f' : Flusher}
    (hflushing : s'.flushing = (s.flushers.set id f', s.current, s.steering))
    (hcancelled : f'.cancelled = f.cancelled) (hended : f.cancelled → f'.stage = .ended)
    (hready : ∀ i, i ≠ id → .flusher i ∈ s.ready → .flusher i ∈ s'.ready) : s'.Tended := by
  simp only [flushing, Prod.mk.injEq] at hflushing
  obtain ⟨hflushers, hcurrent, hsteering⟩ := hflushing
  obtain ⟨hid, -⟩ := List.getElem?_eq_some_iff.mp hf
  have hset {i : Nat} {f₁ : Flusher} (hf₁ : s'.flushers[i]? = some f₁) :
      i = id ∧ f₁ = f' ∨ i ≠ id ∧ s.flushers[i]? = some f₁ := by
    rw [hflushers] at hf₁
    by_cases hi : i = id
    · subst hi
      rw [List.getElem?_set_self hid] at hf₁
      exact .inl ⟨rfl, (Option.some_inj.mp hf₁).symm⟩
    · rw [List.getElem?_set_ne (Ne.symm hi)] at hf₁
      exact .inr ⟨hi, hf₁⟩
  exact {
    current := by rw [hcurrent, hsteering, hs.current]
    exist := fun i hi => by
      rw [hflushers, List.length_set]
      exact hs.exist i (hcurrent ▸ hi)
    active := fun i f₁ hf₁ => by
      rw [hcurrent]
      rcases hset hf₁ with ⟨rfl, rfl⟩ | ⟨-, hf₁⟩
      · rw [hcancelled, hs.active i f hf]
      · exact hs.active i f₁ hf₁
    leaving := fun i f₁ hf₁ hc => by
      rcases hset hf₁ with ⟨rfl, rfl⟩ | ⟨hi, hf₁⟩
      · exact .inl (hended (hcancelled ▸ hc))
      · exact (hs.leaving i f₁ hf₁ hc).imp_right (hready i hi) }

/-- After the current flusher is cancelled, all of them are. -/
theorem Tended.cancelled (hs : s.Tended) {f : Flusher}
    (hf : s.cancelFlusher.flushers[id]? = some f) :
    f.cancelled ∧ (f.stage = .ended ∨ .flusher id ∈ s.cancelFlusher.ready) := by
  rw [getElem?_cancelFlusher, Option.map_eq_some_iff] at hf
  obtain ⟨f₀, hf₀, rfl⟩ := hf
  have hready {u : Task} (hu : u ∈ s.ready) : u ∈ s.cancelFlusher.ready :=
    (cancelFlusher_steps s .free).ready_subset hu
  by_cases hid : s.current = some id
  · refine ⟨by simp [hid], .inr ?_⟩
    unfold cancelFlusher
    rw [hid]
    exact (mem_ready_wake _ _ _).mpr (.inr rfl)
  · have hcancelled : f₀.cancelled := by
      rw [← Bool.not_eq_false, hs.active id f₀ hf₀]
      exact hid
    exact ⟨by simp [hcancelled], (hs.leaving id f₀ hf₀ hcancelled).imp_right hready⟩

theorem current_cancelFlusher (s : Session) : s.cancelFlusher.current = none := by
  unfold cancelFlusher
  split
  next hnone => exact hnone
  next => rfl

theorem Tended.stopFlushing (hs : s.Tended) : s.stopFlushing.Tended where
  current := current_cancelFlusher s
  exist id hid := by
    have : s.cancelFlusher.current = some id := hid
    simp [current_cancelFlusher] at this
  active id f hf := by
    have hcancelled := (hs.cancelled (by exact hf)).1
    show f.cancelled = false ↔ s.cancelFlusher.current = some id
    simp [hcancelled, current_cancelFlusher]
  leaving id f hf _ := (hs.cancelled (by exact hf)).2

theorem Tended.startFlushing (hs : s.Tended) (url : String) : (s.startFlushing url).Tended where
  current := rfl
  exist id hid := by
    have hnew : s.cancelFlusher.flushers.length = id := Option.some_inj.mp hid
    show id < (s.cancelFlusher.flushers ++ [({ url } : Flusher)]).length
    rw [← hnew, List.length_append]
    exact Nat.lt_succ_self _
  active id f hf := by
    have hnew : (s.cancelFlusher.flushers ++ [({ url } : Flusher)])[id]? = some f := hf
    show f.cancelled = false ↔ some s.cancelFlusher.flushers.length = some id
    rw [List.getElem?_append] at hnew
    split at hnew
    next hlt =>
      have hcancelled := (hs.cancelled hnew).1
      rw [hcancelled]
      exact iff_of_false Bool.noConfusion fun heq => Nat.ne_of_gt hlt (Option.some_inj.mp heq)
    next hle =>
      obtain ⟨hlt, rfl⟩ := List.getElem?_eq_some_iff.mp hnew
      have hid : s.cancelFlusher.flushers.length = id := by
        simp only [List.length_singleton] at hlt
        omega
      exact iff_of_true (by simp) (congrArg some hid)
  leaving id f hf cancelled := by
    have hnew : (s.cancelFlusher.flushers ++ [({ url } : Flusher)])[id]? = some f := hf
    rw [List.getElem?_append] at hnew
    split at hnew
    next =>
      exact (hs.cancelled hnew).2.imp_right fun hready => (mem_ready_wake _ _ _).mpr (.inl hready)
    next =>
      obtain ⟨hlt, rfl⟩ := List.getElem?_eq_some_iff.mp hnew
      simp at cancelled

/-- A flusher that quits changes nothing else of the flushers. -/
theorem flushing_quitFlusher (hf : s.flushers[id]? = some f) {f' : Flusher}
    (hflushing : s'.flushing = (s.flushers.set id f', s.current, s.steering)) :
    (s'.quitFlusher id).flushing
      = (s.flushers.set id { f' with stage := .ended }, s.current, s.steering) := by
  obtain ⟨hid, -⟩ := List.getElem?_eq_some_iff.mp hf
  simp only [flushing, Prod.mk.injEq] at hflushing
  obtain ⟨hflushers, hcurrent, hsteering⟩ := hflushing
  have hset : (s'.quitFlusher id).flushers = s.flushers.set id { f' with stage := .ended } := by
    show s'.flushers.modify id _ = _
    rw [hflushers]
    refine List.ext_getElem? fun i => ?_
    by_cases hi : id = i
    · subst hi
      simp [hid]
    · simp [hi]
  unfold flushing
  rw [hset, ← hcurrent, ← hsteering]
  rfl

/-- The turn of a flusher changes nothing but the flusher itself, which goes on and, if it was
cancelled, ends. -/
theorem flusherTurn_steps {crashes : Prop} (hf : s.flushers[id]? = some f)
    (hp : s.toPipeline.Sound s.hand ∨ crashes) :
    ∃ f₁ f', Flusher.Steps s.kpi.granularity s.now crashes f f₁
      ∧ f' = (if f.cancelled then { f₁ with stage := .ended } else f₁)
      ∧ (s.flusherTurn id).flushing = (s.flushers.set id f', s.current, s.steering) := by
  obtain ⟨f₁, hsteps, heq, -⟩ := pursue_steps hf hp
  have hself : s.flushing = (s.flushers.set id f, s.current, s.steering) := by
    obtain ⟨hid, rfl⟩ := List.getElem?_eq_some_iff.mp hf
    rw [List.set_getElem_self hid]
    rfl
  cases hc : f.cancelled with
  | false =>
    rw [flusherTurn_of_active hf hc]
    exact ⟨f₁, f₁, hsteps, rfl, heq⟩
  | true =>
    rw [flusherTurn_of_cancelled hf hc]
    cases s.persists id with
    | true => exact ⟨f₁, _, hsteps, rfl, flushing_quitFlusher hf heq⟩
    | false => exact ⟨f, _, .refl, rfl, flushing_quitFlusher hf hself⟩

theorem flusherTurn_flushing (hf : s.flushers[id]? = some f) :
    ∃ f', (s.flusherTurn id).flushing = (s.flushers.set id f', s.current, s.steering)
      ∧ f'.cancelled = f.cancelled ∧ (f.cancelled → f'.stage = .ended) := by
  obtain ⟨f₁, f', hsteps, rfl, heq⟩ := flusherTurn_steps hf (.inr trivial : _ ∨ True)
  refine ⟨_, heq, ?_, fun cancelled => by simp [cancelled]⟩
  rw [← hsteps.cancelled_eq]
  split <;> rfl

/-- The turn of a task leaves the flushers alone, or changes nothing of them but the task itself. -/
theorem turn_flushing (s : Session) (t : Task) :
    ((s.turn t).flushing = s.flushing ∧ ∀ id < s.flushers.length, t ≠ .flusher id)
    ∨ ∃ id f f', t = .flusher id ∧ s.flushers[id]? = some f
      ∧ (s.turn t).flushing = (s.flushers.set id f', s.current, s.steering)
      ∧ f'.cancelled = f.cancelled ∧ (f.cancelled → f'.stage = .ended) := by
  by_cases ht : ∀ id, t ≠ .flusher id
  · exact .inl ⟨flushing_turn ht, fun id _ => ht id⟩
  obtain ⟨id, rfl⟩ : ∃ id, t = .flusher id := by simpa using ht
  cases hf : s.flushers[id]? with
  | none =>
    refine .inl ⟨?_, fun i hi heq => ?_⟩
    · show (s.flusherTurn id).flushing = _
      unfold flusherTurn
      simp [hf, flushing]
    · have hlength := List.getElem?_eq_none_iff.mp hf
      rw [Task.flusher.inj heq] at hlength
      omega
  | some f =>
    obtain ⟨f', heq, hcancelled, hended⟩ := flusherTurn_flushing hf
    exact .inr ⟨id, f, f', rfl, hf, heq, hcancelled, hended⟩

theorem Tended.turn (hs : s.Tended) (t : Task) :
    ({ s with ready := s.ready.erase t }.turn t).Tended := by
  have hready {u : Task} (hu : u ≠ t) (hmem : u ∈ s.ready) :
      u ∈ ({ s with ready := s.ready.erase t }.turn t).ready :=
    (leads_turn { s with ready := s.ready.erase t } t).steps.ready_subset
      ((List.mem_erase_of_ne hu).mpr hmem)
  rcases turn_flushing { s with ready := s.ready.erase t } t with
    ⟨heq, hother⟩ | ⟨id, f, f', rfl, hf, heq, hcancelled, hended⟩
  · exact hs.of_flushing_eq heq fun id hid => hready (hother id hid).symm
  · exact hs.of_flushing_set hf heq hcancelled hended fun i hi =>
      hready fun heq => hi (Task.flusher.inj heq)

theorem Tended.move (hs : s.Tended) (m : Move) : (s.move m).Tended := by
  have hm := s.moves_move m
  generalize s.move m = s' at hm ⊢
  cases hm with
  | stays => exact hs
  | start op free =>
    have hready {u : Task} (hu : u ∈ s.ready) : u ∈ (s.start op).1.ready :=
      (leads_start s op free).steps.ready_subset hu
    cases op with
    | startFlushing url => exact hs.startFlushing url
    | stopFlushing => exact hs.stopFlushing
    | _ =>
      exact hs.of_flushing_eq (flushing_start s _ (fun _ => Operation.noConfusion)
        Operation.noConfusion) fun _ _ => hready
  | collect =>
    refine hs.of_flushing_eq (flushing_collect s) fun id _ hid => ?_
    rwa [toPipeline_collect]
  | turn t _ => exact hs.turn t
  | elapse now =>
    exact hs.of_flushing_eq rfl fun id _ hid =>
      (s.toPipeline.mem_ready_moveTo now (.flusher id)).mpr (.inl hid)
  | dropOwn calling flushes =>
    exact hs.of_flushing_eq rfl fun _ _ => (leads_dropOwn calling flushes).steps.ready_subset
  | drop calling flushes =>
    exact hs.of_flushing_eq rfl fun _ _ => (leads_drop calling flushes).steps.ready_subset
  | discard => exact hs.stopFlushing

theorem Reachable.tended (h : s.Reachable) : s.Tended := by
  refine h.by_moves (fun a settings identity clock receiver demo chance => ?_)
    fun _ m _ hs => hs.move m
  rw [create_eq]
  exact {
    current := rfl
    exist := by simp
    active := by simp
    leaving := by simp }

/-! ### Cancelled flushers -/

def Cancelled (s : Session) (id : Nat) : Prop := ∃ f, s.flushers[id]? = some f ∧ f.cancelled

def Over (s : Session) (id : Nat) : Prop := ∃ f, s.flushers[id]? = some f ∧ f.Over

/-- What a move leaves of a flusher.  Cancelled, it stays so, and where it stands and what it did
changes in its own turns only, the last of which it has when it is cancelled. -/
structure Left (own : Prop) (f f' : Flusher) : Prop where
  cancelled : f.cancelled → f'.cancelled
  log : ¬own → f'.log = f.log
  stage : ¬own → f'.stage = f.stage
  ended : f.cancelled → f.stage = .ended → f'.stage = .ended

theorem Left.refl (own : Prop) (f : Flusher) : Left own f f :=
  ⟨fun h => h, fun _ => rfl, fun _ => rfl, fun _ h => h⟩

theorem flusher_move (hf : s.flushers[id]? = some f) (m : Move) :
    ∃ f', (s.move m).flushers[id]? = some f' ∧ Left (m.task? = some (.flusher id)) f f' := by
  have hkeep {s' : Session} (h : s'.flushing = s.flushing) (own : Prop) :
      ∃ f', s'.flushers[id]? = some f' ∧ Left own f f' :=
    ⟨f, (getElem?_of_flushing h).trans hf, .refl _ f⟩
  have hcancel (own : Prop) : ∃ f', s.cancelFlusher.flushers[id]? = some f' ∧ Left own f f' :=
    ⟨{ f with cancelled := f.cancelled || s.current = some id },
      by rw [getElem?_cancelFlusher, hf]; rfl, by simp +contextual, fun _ => rfl, fun _ => rfl,
      fun _ h => h⟩
  have hm := s.moves_move m
  generalize s.move m = s' at hm ⊢
  cases hm with
  | stays => exact hkeep rfl _
  | start op _ =>
    cases op with
    | startFlushing url =>
      obtain ⟨f', hf', left⟩ := hcancel _
      exact ⟨f', List.getElem?_append_left (List.getElem?_eq_some_iff.mp hf').1 ▸ hf', left⟩
    | stopFlushing => exact hcancel _
    | _ => exact hkeep (flushing_start s _ (fun _ => Operation.noConfusion) Operation.noConfusion) _
  | collect => exact hkeep (flushing_collect s) _
  | turn t _ =>
    rcases turn_flushing { s with ready := s.ready.erase t } t with
      ⟨heq, -⟩ | ⟨i, f₀, f', rfl, hf₀, heq, hcancelled, hended⟩
    · exact hkeep heq _
    · have hset : (Session.turn { s with ready := s.ready.erase (.flusher i) }
          (.flusher i)).flushers = s.flushers.set i f' := congrArg Prod.fst heq
      rw [hset]
      by_cases hi : i = id
      · subst hi
        obtain rfl := Option.some_inj.mp (hf₀.symm.trans hf)
        exact ⟨f', List.getElem?_set_self (List.getElem?_eq_some_iff.mp hf).1,
          fun hc => hcancelled.trans hc, absurd rfl, absurd rfl, fun hc _ => hended hc⟩
      · exact ⟨f, by rw [List.getElem?_set_ne hi, hf], .refl _ f⟩
  | elapse now => exact hkeep rfl _
  | dropOwn _ _ | drop _ _ => exact hkeep rfl _
  | discard => exact hcancel _

/-- A flusher that was cancelled stays so. -/
theorem Cancelled.move (hc : s.Cancelled id) (m : Move) : (s.move m).Cancelled id := by
  obtain ⟨f, hf, hcancelled⟩ := hc
  obtain ⟨f', hf', left⟩ := flusher_move hf m
  exact ⟨f', hf', left.cancelled hcancelled⟩

/-- A flusher that is over stays so. -/
theorem Over.move (ho : s.Over id) (m : Move) : (s.move m).Over id := by
  obtain ⟨f, hf, cancelled, ended⟩ := ho
  obtain ⟨f', hf', left⟩ := flusher_move hf m
  exact ⟨f', hf', left.cancelled cancelled, left.ended cancelled ended⟩

/-- A cancelled flusher is over after its turn. -/
theorem Cancelled.isOver (hc : s.Cancelled id) (ready : .flusher id ∈ s.ready) :
    (s.move (.turn (.flusher id))).Over id := by
  obtain ⟨f, hf, cancelled⟩ := hc
  have hmove : s.move (.turn (.flusher id))
      = flusherTurn { s with ready := s.ready.erase (.flusher id) } id := if_pos ready
  obtain ⟨f', heq, hcancelled, hended⟩ :=
    flusherTurn_flushing (s := { s with ready := s.ready.erase (.flusher id) }) hf
  rw [hmove]
  exact ⟨f', congrArg (·[id]?) (congrArg Prod.fst heq) |>.trans
    (List.getElem?_set_self (List.getElem?_eq_some_iff.mp hf).1), hcancelled.trans cancelled,
    hended cancelled⟩

/-! ### What rouses the flushers -/

/-- A flusher that is not over can go on if it has not begun, and is woken when its next attempt is
due. -/
def Roused (s : Session) (id : Nat) (f : Flusher) : Prop :=
  (f.stage = .fresh → .flusher id ∈ s.ready)
    ∧ ∀ due, f.stage = .asleep due →
      (due, .flusher id) ∈ s.timers ∨ (due ≤ s.now ∧ .flusher id ∈ s.ready)

/-- Another task leaves a flusher as it is roused. -/
theorem Roused.of_steps {t : Task} {p : Pipeline} {h h' : Hand} {f' : Flusher}
    (hf : s.Roused id f) (hstage : f'.stage = f.stage)
    (hp : ∀ due, (due, .flusher id) ∈ s.timers → (due, .flusher id) ∈ p.timers)
    (hready : .flusher id ∈ s.ready → .flusher id ∈ p.ready) (hnow : p.now = s.now)
    (hs : Steps quits t p h s'.toPipeline h') (ht : t ≠ .flusher id) : s'.Roused id f' := by
  have hnow' : s'.now = s.now := hs.now_eq.trans hnow
  unfold Roused
  rw [hstage]
  refine ⟨fun hfresh => hs.ready_subset (hready (hf.1 hfresh)), fun due hdue => ?_⟩
  rcases hf.2 due hdue with htimer | ⟨hpast, hmem⟩
  · exact .inl (hs.mem_timers ht.symm (hp due htimer))
  · exact .inr ⟨hnow' ▸ hpast, hs.ready_subset (hready hmem)⟩

theorem Roused.leads {t : Task} {h : Hand} (hf : s.Roused id f) {f' : Flusher}
    (hstage : f'.stage = f.stage) (hl : Leads quits t h s s') (ht : t ≠ .flusher id) :
    s'.Roused id f' :=
  hf.of_steps hstage (fun _ h => h) (fun h => h) rfl hl.steps ht

/-- A flusher that goes on in its own turn sets a timer if it sleeps. -/
theorem pursue_roused (ready : List Task) (hf : s.flushers[id]? = some f) (hroused : s.Roused id f)
    {f' : Flusher} (hf' : (Session.pursue { s with ready } id f).flushers[id]? = some f') :
    (Session.pursue { s with ready } id f).Roused id f' := by
  obtain ⟨hid, -⟩ := List.getElem?_eq_some_iff.mp hf
  obtain ⟨f₁, -, heq, hrouses⟩ :=
    pursue_steps (s := { s with ready }) hf (.inr trivial : _ ∨ True)
  rcases hrouses with ⟨hfresh, htimer⟩ | ⟨hsame, due, hdue, hlt⟩
  · have hset : (Session.pursue { s with ready } id f).flushers = s.flushers.set id f₁ :=
      congrArg Prod.fst heq
    rw [hset, List.getElem?_set_self hid] at hf'
    obtain rfl := Option.some_inj.mp hf'
    exact ⟨fun h => absurd h hfresh, fun due hdue => .inl (htimer due hdue)⟩
  · -- it sleeps on, as it did before its turn
    rw [hsame] at hf' ⊢
    obtain rfl := Option.some_inj.mp (hf.symm.trans hf')
    refine ⟨fun h => FlusherStage.noConfusion (hdue.symm.trans h), fun due' hdue' => .inl ?_⟩
    cases hdue.symm.trans hdue'
    exact (hroused.2 due hdue).resolve_right fun h => Nat.not_le_of_lt hlt h.1

theorem Roused.cancelFlusher
    (hs : ∀ (id : Nat) (f : Flusher), s.flushers[id]? = some f → ¬f.Over → s.Roused id f)
    {f' : Flusher} (hf' : s.cancelFlusher.flushers[id]? = some f') (going : ¬f'.Over) :
    s.cancelFlusher.Roused id f' := by
  rw [getElem?_cancelFlusher, Option.map_eq_some_iff] at hf'
  obtain ⟨f, hf, rfl⟩ := hf'
  have hroused := hs id f hf fun finished => going ⟨by simp [finished.1], finished.2⟩
  exact hroused.of_steps rfl (fun _ h => h) (fun h => h) rfl (cancelFlusher_steps s .free)
    Task.noConfusion

theorem Roused.startFlushing
    (hs : ∀ (id : Nat) (f : Flusher), s.flushers[id]? = some f → ¬f.Over → s.Roused id f)
    (url : String) {f' : Flusher} (hf' : (s.startFlushing url).flushers[id]? = some f')
    (going : ¬f'.Over) : (s.startFlushing url).Roused id f' := by
  have hnew : (s.cancelFlusher.flushers ++ [({ url } : Flusher)])[id]? = some f' := hf'
  rw [List.getElem?_append] at hnew
  split at hnew
  next =>
    have hcancelled := Roused.cancelFlusher hs hnew going
    have hwake : Steps False .operator s.cancelFlusher.toPipeline .free
        (s.startFlushing url).toPipeline .free := Step.steps (.wake _)
    exact hcancelled.of_steps rfl (fun _ h => h) (fun h => h) rfl hwake Task.noConfusion
  next hle =>
    obtain ⟨hlt, rfl⟩ := List.getElem?_eq_some_iff.mp hnew
    have hid : s.cancelFlusher.flushers.length = id := by
      rw [List.length_singleton] at hlt
      omega
    refine ⟨fun _ => (mem_ready_wake _ _ _).mpr (.inr (congrArg Task.flusher hid.symm)),
      fun due hdue => ?_⟩
    simp at hdue

/-- A flusher that is not over after a turn of its own was not cancelled, and goes on. -/
theorem turn_roused (ready : List Task)
    (hs : ∀ (id : Nat) (f : Flusher), s.flushers[id]? = some f → ¬f.Over → s.Roused id f)
    {f' : Flusher}
    (hf' : (Session.turn { s with ready } (.flusher id)).flushers[id]? = some f')
    (going : ¬f'.Over) : (Session.turn { s with ready } (.flusher id)).Roused id f' := by
  obtain ⟨f, hf⟩ : ∃ f, s.flushers[id]? = some f := by
    rcases turn_flushing { s with ready } (.flusher id) with ⟨heq, -⟩ | ⟨i, f, -, hi, hf, -⟩
    · exact ⟨f', (getElem?_of_flushing heq).symm.trans hf'⟩
    · exact ⟨f, Task.flusher.inj hi ▸ hf⟩
  cases hc : f.cancelled with
  | true =>
    obtain ⟨f₁, heq, hcancelled, hended⟩ := flusherTurn_flushing (s := { s with ready }) hf
    have hset : (Session.turn { s with ready } (.flusher id)).flushers = s.flushers.set id f₁ :=
      congrArg Prod.fst heq
    rw [hset, List.getElem?_set_self (List.getElem?_eq_some_iff.mp hf).1] at hf'
    obtain rfl := Option.some_inj.mp hf'
    exact absurd ⟨hcancelled.trans hc, hended hc⟩ going
  | false =>
    have hturn : Session.turn { s with ready } (.flusher id)
        = Session.pursue { s with ready } id f :=
      flusherTurn_of_active (s := { s with ready }) hf hc
    rw [hturn] at hf' ⊢
    have going : ¬f.Over := fun finished => Bool.noConfusion (hc.symm.trans finished.1)
    exact pursue_roused _ hf (hs id f hf going) hf'

/-- A turn of another task leaves a flusher as it is. -/
theorem flusher_turn_of_ne {t : Task} (ht : t ≠ .flusher id) :
    (s.turn t).flushers[id]? = s.flushers[id]? := by
  rcases turn_flushing s t with ⟨heq, -⟩ | ⟨i, f₀, f₁, rfl, -, heq, -⟩
  · exact getElem?_of_flushing heq
  · have hi : i ≠ id := fun hi => ht (hi ▸ rfl)
    have hset : (s.turn (.flusher i)).flushers = s.flushers.set i f₁ := congrArg Prod.fst heq
    rw [hset, List.getElem?_set_ne hi]

theorem Roused.elapse (hf : s.Roused id f) (now : Nat) :
    (s.moveTo now).Roused id f := by
  obtain ⟨hfresh, hasleep⟩ := hf
  refine ⟨fun h => (s.toPipeline.mem_ready_moveTo now _).mpr (.inl (hfresh h)), fun due hdue => ?_⟩
  show _ ∈ (s.toPipeline.moveTo now).timers
    ∨ due ≤ (s.toPipeline.moveTo now).now ∧ _ ∈ (s.toPipeline.moveTo now).ready
  rw [timers_moveTo, now_moveTo, mem_ready_moveTo]
  rcases hasleep due hdue with htimer | ⟨hpast, hready⟩
  · rcases Nat.lt_or_ge now due with hlt | hge
    · exact .inl (List.mem_filter.mpr ⟨htimer, by simpa using hlt⟩)
    · exact .inr ⟨Nat.le_trans hge (Nat.le_max_right _ _), .inr ⟨due, hge, htimer⟩⟩
  · exact .inr ⟨Nat.le_trans hpast (Nat.le_max_left _ _), .inl hready⟩

theorem move_roused (m : Move)
    (hs : ∀ (id : Nat) (f : Flusher), s.flushers[id]? = some f → ¬f.Over → s.Roused id f)
    {f' : Flusher} (hf' : (s.move m).flushers[id]? = some f') (going : ¬f'.Over) :
    (s.move m).Roused id f' := by
  have hm := s.moves_move m
  generalize s.move m = s' at hm hf' ⊢
  have hother {quits : Prop} {t : Task} {h : Hand} (hl : Leads quits t h s s')
      (hsame : s'.flushers = s.flushers) (ht : t ≠ .flusher id) : s'.Roused id f' :=
    (hs id f' (hsame ▸ hf') going).leads rfl hl ht
  cases hm with
  | stays => exact hs id f' hf' going
  | start op free =>
    have hsame := flushing_start s op
    cases op with
    | startFlushing url => exact Roused.startFlushing hs url hf' going
    | stopFlushing => exact Roused.cancelFlusher hs hf' going
    | _ =>
      exact hother (leads_start s _ free) (congrArg Prod.fst
        (hsame (fun _ => Operation.noConfusion) Operation.noConfusion)) Task.noConfusion
  | collect =>
    unfold Roused
    rw [toPipeline_collect]
    exact hs id f' ((getElem?_of_flushing (flushing_collect s)).symm.trans hf') going
  | turn t _ =>
    by_cases ht : t = .flusher id
    · subst ht
      exact turn_roused _ hs hf' going
    · have hl := leads_turn { s with ready := s.ready.erase t } t
      rw [flusher_turn_of_ne ht] at hf'
      exact (hs id f' hf' going).of_steps (p := { s.toPipeline with ready := s.ready.erase t }) rfl
        (fun _ h => h) (List.mem_erase_of_ne (Ne.symm ht)).mpr rfl hl.steps ht
  | elapse now => exact (hs id f' hf' going).elapse now
  | dropOwn calling flushes => exact hother (leads_dropOwn calling flushes) rfl Task.noConfusion
  | drop calling flushes => exact hother (leads_drop calling flushes) rfl Task.noConfusion
  | discard => exact Roused.cancelFlusher hs hf' going

/-- At every point of every session, each flusher that is not over is roused. -/
theorem Reachable.roused (h : s.Reachable) :
    ∀ (id : Nat) (f : Flusher), s.flushers[id]? = some f → ¬f.Over → s.Roused id f := by
  refine h.by_moves (P := fun s => ∀ (id : Nat) (f : Flusher), s.flushers[id]? = some f →
    ¬f.Over → s.Roused id f) (fun a settings identity clock receiver demo chance => ?_)
    fun s m _ hs id f => move_roused m hs
  rw [create_eq]
  simp

end Session

end Uplink
