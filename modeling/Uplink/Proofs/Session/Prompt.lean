import Uplink.Proofs.Session.Invariant
/-!
Prompt runs: time moves on only when no task can go on, and never past the next timer.
-/
namespace Uplink

namespace Session

/-- A move comes at its time unless it lets time pass that something was to be done in. -/
def Move.Prompt (s : Session) : Move → Prop
  | .elapse now => s.ready = [] ∧ ∀ timer ∈ s.timers, now ≤ timer.1
  | _ => True

instance (s : Session) (m : Move) : Decidable (m.Prompt s) := by
  cases m <;> unfold Move.Prompt <;> infer_instance

/-- Whether moves all come at their time, one after the other. -/
def Promptly (s : Session) : List Move → Prop
  | [] => True
  | m :: moves => m.Prompt s ∧ (s.move m).Promptly moves

instance Promptly.decide (s : Session) : (moves : List Move) → Decidable (s.Promptly moves)
  | [] => .isTrue trivial
  | m :: moves => @instDecidableAnd _ _ _ (Promptly.decide (s.move m) moves)

def Runs (s s' : Session) : Prop := ∃ moves, s.Promptly moves ∧ s.follow moves = s'

variable {s s' s'' : Session}

theorem Runs.refl (s : Session) : s.Runs s := ⟨[], trivial, rfl⟩

theorem promptly_append {moves moves' : List Move} (h : s.Promptly moves)
    (h' : (s.follow moves).Promptly moves') : s.Promptly (moves ++ moves') := by
  induction moves generalizing s with
  | nil => exact h'
  | cons m moves ih => exact ⟨h.1, ih h.2 h'⟩

theorem Runs.trans (h : s.Runs s') (h' : s'.Runs s'') : s.Runs s'' := by
  obtain ⟨moves, hmoves, rfl⟩ := h
  obtain ⟨moves', hmoves', rfl⟩ := h'
  exact ⟨moves ++ moves', promptly_append hmoves hmoves', List.foldl_append⟩

theorem runs_move {m : Move} (hm : m.Prompt s) : s.Runs (s.move m) := ⟨[m], ⟨hm, trivial⟩, rfl⟩

theorem Runs.comesTo (h : s.Runs s') : s.ComesTo s' := by
  obtain ⟨moves, -, rfl⟩ := h
  exact ⟨moves, rfl⟩

/-- What every move at its time keeps, every prompt run keeps. -/
theorem Runs.preserves {P : Session → Prop} (hP : ∀ s (m : Move), m.Prompt s → P s → P (s.move m))
    (h : s.Runs s') (hs : P s) : P s' := by
  obtain ⟨moves, hmoves, rfl⟩ := h
  induction moves generalizing s with
  | nil => exact hs
  | cons m moves ih => exact ih (hP s m hmoves.1 hs) hmoves.2

/-- A prompt run in which nobody drops a flush. -/
def RunsOn (s s' : Session) : Prop :=
  ∃ moves, s.Promptly moves ∧ (∀ t, .drop t ∉ moves) ∧ s.follow moves = s'

theorem RunsOn.runs (h : s.RunsOn s') : s.Runs s' := by
  obtain ⟨moves, hmoves, -, rfl⟩ := h
  exact ⟨moves, hmoves, rfl⟩

theorem RunsOn.comesTo (h : s.RunsOn s') : s.ComesTo s' := h.runs.comesTo

theorem RunsOn.refl (s : Session) : s.RunsOn s := ⟨[], trivial, by simp, rfl⟩

theorem RunsOn.trans (h : s.RunsOn s') (h' : s'.RunsOn s'') : s.RunsOn s'' := by
  obtain ⟨moves, hmoves, hdrop, rfl⟩ := h
  obtain ⟨moves', hmoves', hdrop', rfl⟩ := h'
  refine ⟨moves ++ moves', promptly_append hmoves hmoves', fun t ht => ?_, List.foldl_append⟩
  exact (List.mem_append.mp ht).elim (hdrop t) (hdrop' t)

theorem runsOn_move {m : Move} (hm : m.Prompt s) (hdrop : ∀ t, m ≠ .drop t) :
    s.RunsOn (s.move m) :=
  ⟨[m], ⟨hm, trivial⟩, fun t ht => hdrop t (List.mem_singleton.mp ht).symm, rfl⟩

/-- What every move at its time keeps but dropping a flush, such a run keeps. -/
theorem RunsOn.preserves {P : Session → Prop}
    (hP : ∀ s (m : Move), m.Prompt s → (∀ t, m ≠ .drop t) → P s → P (s.move m))
    (h : s.RunsOn s') (hs : P s) : P s' := by
  obtain ⟨moves, hmoves, hdrop, rfl⟩ := h
  induction moves generalizing s with
  | nil => exact hs
  | cons m moves ih =>
    refine ih (hP s m hmoves.1 (fun t ht => hdrop t (ht ▸ List.mem_cons_self)) hs) hmoves.2
      fun t ht => hdrop t (List.mem_cons_of_mem m ht)

end Session

end Uplink
