import Uplink.Proofs.Kpi.Line
import Uplink.Proofs.Session.Turns
/-!
A task that still waits for its turn to flush, after it could go on, is not the first in line.  So
whoever is the first in line waits for its POST, once all tasks have gone on.
-/
namespace Uplink

namespace Pipeline

variable {t : Task} {p : Pipeline}

/-- If the task waits for its turn to flush, it does not have it. -/
def Stands (t : Task) (p : Pipeline) (h : Hand) : Prop :=
  ∀ url, h = .waiting (.queueing url) → p.line.head? ≠ some t

theorem stands_of_not_flushes {h : Hand} (hh : h.flushes = false) : Stands t p h := by
  rintro url rfl
  simp [Hand.flushes] at hh

theorem stands_flushing (q : Posting) : Stands t p (.waiting (.flushing q)) := by
  rintro url ⟨⟩

theorem flushes_submit (p : Pipeline) (t : Task) (j : Job) (deadline : Duration) :
    (Hand.ofStage (p.submit t j deadline).2).flushes = false := by
  have hfallback (p : Pipeline) : (Hand.ofStage (p.fallback t j deadline).2).flushes = false := by
    unfold fallback
    dsimp only
    split <;> rfl
  unfold submit
  dsimp only
  split
  · rfl
  · exact hfallback _
  · exact hfallback _

theorem depart_stands (p : Pipeline) (t : Task) (url : String) :
    Stands t (p.depart t url).1 (.ofStage (p.depart t url).2) := by
  unfold depart
  split
  · exact stands_of_not_flushes rfl
  · dsimp only
    split
    · exact stands_of_not_flushes rfl
    · exact stands_flushing _

theorem flush_stands (absent : t ∉ p.line) (url : String) :
    Stands t (p.flush t url).1 (.ofStage (p.flush t url).2) := by
  unfold flush
  dsimp only
  split
  · exact depart_stands _ t url
  next hline =>
    intro url' _ hhead
    cases hl : p.line with
    | nil => simp [hl] at hline
    | cons u line =>
      have hu : u = t := by simpa [hl] using hhead
      exact absent (by simp [hl, hu])

theorem proceed_stands (p : Pipeline) (t : Task) (stage : Stage) :
    Stands t (p.proceed t stage).1 (.ofStage (p.proceed t stage).2) := by
  unfold proceed
  split
  · exact stands_of_not_flushes rfl
  · split <;> exact stands_of_not_flushes rfl
  · split <;> exact stands_of_not_flushes rfl
  · split
    · exact depart_stands p t _
    next hhead => exact fun _ _ => hhead
  · split
    · exact stands_of_not_flushes rfl
    · exact stands_flushing _

/-- After its turn a task is not first in line and still waiting. -/
theorem ensures_stands : Ensures Stands where
  free _ _ := stands_of_not_flushes rfl
  submit t p j deadline := stands_of_not_flushes (flushes_submit p t j deadline)
  flush _ _ url absent := flush_stands absent url
  post _ _ _ _ := stands_of_not_flushes rfl
  proceed t p stage := proceed_stands p t stage

end Pipeline

namespace Session

open Pipeline

variable {quits : Prop} {s : Session} {t : Task}

def Stands (s : Session) (t : Task) : Prop := Pipeline.Stands t s.toPipeline (s.hand t)

/-! ### Whoever is first in line -/

/-- The first in line waits for its POST or can go on. -/
def Heeded (s : Session) : Prop :=
  ∀ t, s.line.head? = some t → (s.hand t).isFlushing ∨ t ∈ s.ready

/-- Whoever is first in line and no longer waits for its turn waits for its POST. -/
theorem Stands.isFlushing (hstands : s.Stands t) (lined : s.toPipeline.Lined s.hand)
    (hhead : s.line.head? = some t) : (s.hand t).isFlushing := by
  have hflushes := (lined.mem_line t).mp (List.mem_of_mem_head? hhead)
  cases hh : s.hand t with
  | free => simp [hh, Hand.flushes, Hand.isFlushing] at hflushes
  | waiting stage =>
    cases stage with
    | queueing url => exact absurd hhead (hstands url hh)
    | flushing q => rfl
    | _ => simp [hh, Hand.flushes, Hand.isFlushing] at hflushes

theorem Leads.heeded {s' : Session} (hl : Leads quits t (s.hand t) s s')
    (lined : s'.toPipeline.Lined s'.hand) (hstands : s'.Stands t)
    (hs : s.toPipeline.Heeds t s.hand) : s'.Heeded := by
  intro u hu
  by_cases hut : u = t
  · subst hut
    exact .inl (hstands.isFlushing lined hu)
  · rw [hl.others u hut]
    exact hs.steps hl.steps u hut hu

theorem move_heeded (lined : s.toPipeline.Lined s.hand) (hs : s.Heeded) (m : Move) :
    (s.move m).Heeded := by
  have hlined := move_keeps invariant_lined m lined
  have hm := s.moves_move m
  generalize s.move m = s' at hm hlined ⊢
  cases hm with
  | stays => exact hs
  | start op free =>
    have hfree := hand_operator_of_isFree free
    exact (hfree ▸ leads_start s op free).heeded hlined
      (ensures_start ensures_stands s op free (lined.not_mem_line hfree)) fun u _ hu => hs u hu
  | collect =>
    intro t ht
    rw [hand_collect, toPipeline_collect]
    exact hs t (toPipeline_collect s ▸ ht)
  | turn t _ =>
    refine (leads_turn { s with ready := s.ready.erase t } t).heeded hlined
      (ensures_turn ensures_stands _ t fun hfree => lined.not_mem_line hfree) fun u hut hu => ?_
    exact (hs u hu).imp id (List.mem_erase_of_ne hut).mpr
  | elapse now =>
    intro t ht
    have hline : s.line.head? = some t := s.toPipeline.line_moveTo now ▸ ht
    exact (hs t hline).imp id fun hready => (s.toPipeline.mem_ready_moveTo now t).mpr (.inl hready)
  | dropOwn calling flushes =>
    exact (leads_dropOwn calling flushes).heeded hlined (stands_of_not_flushes rfl)
      fun u _ hu => hs u hu
  | @drop id _ calling flushes =>
    obtain ⟨hid, -⟩ := List.getElem?_eq_some_iff.mp calling
    refine (leads_drop calling flushes).heeded hlined (stands_of_not_flushes ?_)
      fun u _ hu => hs u hu
    simp [hand, hid, Caller.hand, Hand.flushes, Hand.isFlushing]
  | discard =>
    intro t ht
    have hline : s.line.head? = some t := line_cancelFlusher s ▸ ht
    exact (hs t hline).imp (congrFun (hand_cancelFlusher s) t ▸ id)
      (cancelFlusher_steps s .free).ready_subset

/-- At every point of every session, the first in line waits for its POST or can go on. -/
theorem Reachable.heeded (h : s.Reachable) : s.Heeded := by
  refine h.by_moves (fun a settings identity clock receiver demo chance t ht => ?_)
    fun s m h hs => move_heeded h.lined hs m
  have hlined := (reachable_create a settings identity clock receiver demo chance).lined
  have hflushes := (hlined.mem_line t).mp (List.mem_of_mem_head? ht)
  simp [hand_create, Hand.flushes, Hand.isFlushing] at hflushes

end Session

end Uplink
