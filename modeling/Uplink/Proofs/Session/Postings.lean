import Uplink.Proofs.Kpi.Line
import Uplink.Proofs.Session.Timers
import Uplink.Proofs.Session.Turns
/-!
Tasks that wait for their POSTs.  While the end of a POST is to come its task has a timer for it,
and from then on until its turn the task can go on.
-/
namespace Uplink

namespace Hand

def posting? : Hand → Option Posting
  | waiting (.delivering q) | waiting (.posting q) | waiting (.flushing q) => some q
  | _ => none

end Hand

namespace Pipeline

variable {quits : Prop} {t u : Task} {q : Posting} {p p' : Pipeline} {h h' : Hand}
  {hands : Task → Hand}

/-- Before the end of its POST the task has a timer for it, and afterwards it can go on. -/
def Awaits (t : Task) (q : Posting) (p : Pipeline) : Prop :=
  (p.now < q.due ∧ (q.due, t) ∈ p.timers) ∨ (q.due ≤ p.now ∧ t ∈ p.ready)

theorem Awaits.erase (hp : p.Awaits t q) (hu : t ≠ u) :
    Awaits t q { p with ready := p.ready.erase u } :=
  hp.imp_right fun hdue => ⟨hdue.1, (List.mem_erase_of_ne hu).mpr hdue.2⟩

theorem Awaits.steps (hp : p.Awaits t q) (hs : Steps quits u p h p' h') (hu : t ≠ u) :
    p'.Awaits t q := by
  unfold Awaits
  rw [hs.now_eq]
  exact hp.imp (fun hlt => ⟨hlt.1, hs.mem_timers hu hlt.2⟩)
    fun hdue => ⟨hdue.1, hs.ready_subset hdue.2⟩

theorem Awaits.congr (hp : p.Awaits t q) (hs : Steps quits u p h p' h')
    (htimers : p'.timers = p.timers) :
    p'.Awaits t q := by
  unfold Awaits
  rw [hs.now_eq, htimers]
  exact hp.imp_right fun hdue => ⟨hdue.1, hs.ready_subset hdue.2⟩

theorem Awaits.elapse (hp : p.Awaits t q) (now : Nat) : (p.moveTo now).Awaits t q := by
  unfold Awaits
  rw [now_moveTo, timers_moveTo, List.mem_filter, mem_ready_moveTo]
  rcases hp with ⟨hlt, htimer⟩ | ⟨hdue, ht⟩
  · by_cases hnow : now < q.due
    · exact .inl ⟨Nat.max_lt.mpr ⟨hlt, hnow⟩, htimer, by simpa using hnow⟩
    · have hle : q.due ≤ now := Nat.le_of_not_lt hnow
      exact .inr ⟨Nat.le_trans hle (Nat.le_max_right _ _), .inr ⟨q.due, hle, htimer⟩⟩
  · exact .inr ⟨Nat.le_trans hdue (Nat.le_max_left _ _), .inl ht⟩

/-! ### Timers for POSTs -/

theorem mem_timers_post (p : Pipeline) (t : Task) (aim : Aim) (url : String) (body : Octets)
    (deadline : Duration) :
    (p.post t aim url body deadline).2.due ≤ p.now
      ∨ ((p.post t aim url body deadline).2.due, t)
        ∈ (p.post t aim url body deadline).1.timers := by
  by_cases hdue : (p.post t aim url body deadline).2.due ≤ p.now
  · exact .inl hdue
  · refine .inr ?_
    have htimers : (p.post t aim url body deadline).1.timers
        = p.timers ++ [((p.post t aim url body deadline).2.due, t)] := if_neg hdue
    simp [htimers]

/-- A step leaves in hand the POST that was in hand, or one that has a timer if it is not over. -/
theorem Step.posting (hs : Step quits t p h p' h') (hq : h'.posting? = some q) :
    q.due ≤ p.now ∨ (q.due, t) ∈ p'.timers
      ∨ (h.posting? = some q ∧ p'.timers = p.timers) := by
  have hpost {p₀ : Pipeline} {aim : Aim} {url : String} {body : Octets} {deadline : Duration}
      {q : Posting} (hnow : p₀.now = p.now) (hq : p₀.post t aim url body deadline = (p', q)) :
      q.due ≤ p.now ∨ (q.due, t) ∈ p'.timers := by
    have hmem := mem_timers_post p₀ t aim url body deadline
    rwa [hq, hnow] at hmem
  cases hs with
  | log l => exact .inr (.inr ⟨hq, rfl⟩)
  | start workers capacity => exact .inr (.inr ⟨hq, (waits_startWorkers p workers capacity).2.1⟩)
  | count c => exact .inr (.inr ⟨hq, rfl⟩)
  | wake u => exact .inr (.inr ⟨hq, rfl⟩)
  | divert hs hd hp =>
    cases hq
    exact (hpost (by exact hs.noted.2.2.2.1) hp).imp_right .inl
  | direct url body deadline hp =>
    cases hq
    exact (hpost rfl hp).imp_right .inl
  | depart turn hf hp =>
    cases hq
    exact (hpost (by rfl) hp).imp_right .inl
  | _ => simp [Hand.posting?] at hq

/-- Every POST in hand is over or has a timer. -/
def Timed (p : Pipeline) (hands : Task → Hand) : Prop :=
  ∀ t q, (hands t).posting? = some q → q.due ≤ p.now ∨ (q.due, t) ∈ p.timers

theorem invariant_timed : Invariant Timed where
  step {_ t p p' h' hands} hs hp u q hq := by
    rw [hs.now_eq]
    by_cases hu : u = t
    · subst hu
      rw [Function.update_self] at hq
      rcases hs.posting hq with hdue | htimer | ⟨hold, htimers⟩
      · exact .inl hdue
      · exact .inr htimer
      · exact htimers ▸ hp u q hold
    · rw [Function.update_of_ne hu] at hq
      exact (hp u q hq).imp_right (hs.mem_timers hu)
  erase _ hp := hp
  elapse {p _} now hp t q hq := by
    rw [now_moveTo, timers_moveTo, List.mem_filter]
    rcases hp t q hq with hdue | htimer
    · exact .inl (Nat.le_trans hdue (Nat.le_max_left _ _))
    · by_cases hnow : now < q.due
      · exact .inr ⟨htimer, by simpa using hnow⟩
      · exact .inl (Nat.le_trans (Nat.le_of_not_lt hnow) (Nat.le_max_right _ _))

/-! ### What is left at the end of a turn -/

/-- If the task waits for a POST, its end is to come. -/
def Patient (p : Pipeline) (h : Hand) : Prop := ∀ q, h.posting? = some q → p.now < q.due

theorem patient_of_eq_none (hh : h.posting? = none) : p.Patient h := by
  intro q hq
  simp [hh] at hq

theorem patient_of_lt (hh : h.posting? = some q) (later : p.now < q.due) : p.Patient h := by
  intro q' hq'
  rw [hh] at hq'
  cases hq'
  exact later

theorem submit_patient (p : Pipeline) (t : Task) (j : Job) (deadline : Duration) :
    (p.submit t j deadline).1.Patient (.ofStage (p.submit t j deadline).2) := by
  have hfallback (p : Pipeline) :
      (p.fallback t j deadline).1.Patient (.ofStage (p.fallback t j deadline).2) := by
    unfold fallback
    dsimp only
    split
    next => exact patient_of_eq_none rfl
    next later => exact patient_of_lt rfl (Nat.lt_of_not_le later)
  unfold submit
  dsimp only
  split
  · exact patient_of_eq_none rfl
  · exact hfallback _
  · exact hfallback _

theorem depart_patient (p : Pipeline) (t : Task) (url : String) :
    (p.depart t url).1.Patient (.ofStage (p.depart t url).2) := by
  unfold depart
  split
  next => exact patient_of_eq_none rfl
  next =>
    dsimp only
    split
    next => exact patient_of_eq_none rfl
    next later => exact patient_of_lt rfl (Nat.lt_of_not_le later)

theorem flush_patient (p : Pipeline) (t : Task) (url : String) :
    (p.flush t url).1.Patient (.ofStage (p.flush t url).2) := by
  unfold flush
  dsimp only
  split
  · exact depart_patient _ t url
  · exact patient_of_eq_none rfl

theorem proceed_patient (p : Pipeline) (t : Task) (stage : Stage) :
    (p.proceed t stage).1.Patient (.ofStage (p.proceed t stage).2) := by
  unfold proceed
  split
  · exact patient_of_eq_none rfl
  · split
    next => exact patient_of_eq_none rfl
    next later => exact patient_of_lt rfl (Nat.lt_of_not_le later)
  · split
    next => exact patient_of_eq_none rfl
    next later => exact patient_of_lt rfl (Nat.lt_of_not_le later)
  · split
    next => exact depart_patient p t _
    next => exact patient_of_eq_none rfl
  · split
    next => exact patient_of_eq_none rfl
    next later => exact patient_of_lt rfl (Nat.lt_of_not_le later)

/-- Whatever a task waits for after its turn, it is to come. -/
theorem ensures_patient : Ensures fun _ p h => p.Patient h where
  free _ _ := patient_of_eq_none rfl
  submit t p j deadline := submit_patient p t j deadline
  flush t p url _ := flush_patient p t url
  post _ _ _ later := patient_of_lt rfl later
  proceed t p stage := proceed_patient p t stage

end Pipeline

namespace Session

open Pipeline

variable {quits : Prop} {s s' : Session} {t : Task} {q : Posting}

/-- Whoever waits for a POST goes on at its end. -/
def Awaits (s : Session) : Prop := ∀ t q, (s.hand t).posting? = some q → s.toPipeline.Awaits t q

theorem Leads.awaits (hl : Leads quits t (s.hand t) s s') (timed : s'.toPipeline.Timed s'.hand)
    (patient : s'.toPipeline.Patient (s'.hand t))
    (hs : ∀ u q, u ≠ t → (s.hand u).posting? = some q → s.toPipeline.Awaits u q) : s'.Awaits := by
  intro u q hq
  by_cases hu : u = t
  · subst hu
    have later := patient q hq
    exact .inl ⟨later, (timed u q hq).resolve_left (Nat.not_le_of_lt later)⟩
  · rw [hl.others u hu] at hq
    exact (hs u q hu hq).steps hl.steps hu

theorem move_awaits (lined : s.toPipeline.Lined s.hand) (timed : s.toPipeline.Timed s.hand)
    (hs : s.Awaits) (m : Move) : (s.move m).Awaits := by
  have htimed := move_keeps invariant_timed m timed
  have hm := s.moves_move m
  generalize s.move m = s' at hm htimed ⊢
  cases hm with
  | stays => exact hs
  | start op free =>
    have hfree := hand_operator_of_isFree free
    exact (hfree ▸ leads_start s op free).awaits htimed
      (ensures_start ensures_patient s op free (lined.not_mem_line hfree)) fun u q _ => hs u q
  | collect =>
    intro t q hq
    rw [toPipeline_collect]
    exact hs t q (hand_collect s ▸ hq)
  | turn t _ =>
    exact (leads_turn { s with ready := s.ready.erase t } t).awaits htimed
      (ensures_turn ensures_patient _ t fun hfree => lined.not_mem_line hfree)
      fun u q hu hq => (hs u q hq).erase hu
  | elapse now => exact fun t q hq => (hs t q hq).elapse now
  | dropOwn calling flushes =>
    exact (leads_dropOwn calling flushes).awaits htimed (patient_of_eq_none rfl) fun u q _ => hs u q
  | @drop id _ calling flushes =>
    obtain ⟨hid, -⟩ := List.getElem?_eq_some_iff.mp calling
    refine (leads_drop calling flushes).awaits htimed (patient_of_eq_none ?_) fun u q _ => hs u q
    simp [hand, hid, Caller.hand, Hand.posting?]
  | discard =>
    intro t q hq
    have hawaits := hs t q (congrFun (hand_cancelFlusher s) t ▸ hq)
    exact hawaits.congr (cancelFlusher_steps s .free) (timers_cancelFlusher s)

/-- At every point of every session, whoever waits for a POST goes on at its end. -/
theorem Reachable.awaits (h : s.Reachable) : s.Awaits := by
  refine h.by_moves (fun a settings identity clock receiver demo chance t q hq => ?_)
    fun s m h hs => move_awaits h.lined (h.keeps invariant_timed fun p _ t q hq => ?_) hs m
  · simp [hand_create, Hand.posting?] at hq
  · simp [Hand.posting?] at hq

end Session

end Uplink
