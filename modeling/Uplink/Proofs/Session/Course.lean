import Uplink.Proofs.Session.Prompt
import Uplink.Proofs.Session.Settling
/-!
The course of a session is prompt.  An operation lets all tasks go on before time moves, and stops
at every timer on the way, so every operation is a prompt run of moves.
-/
namespace Uplink

namespace Session

open Pipeline

variable {s : Session} {now due target : Nat}

/-! ### The next timer -/

theorem earliest_le {timers : List (Nat × Task)} (h : earliest timers = some due) :
    ∀ timer ∈ timers, due ≤ timer.1 := by
  induction timers generalizing due with
  | nil => simp
  | cons first rest ih =>
    unfold earliest at h
    intro timer hmem
    cases hrest : earliest rest with
    | none =>
      have hnil : rest = [] := by
        cases rest with
        | nil => rfl
        | cons second rest => simp [earliest] at hrest
      rw [hnil, List.mem_singleton] at hmem
      simp only [hrest, Option.elim_none, Option.some_inj] at h
      exact Nat.le_of_eq (hmem ▸ h.symm)
    | some next =>
      simp only [hrest, Option.elim_some, Option.some_inj] at h
      rcases List.mem_cons.mp hmem with rfl | hmem
      · omega
      · have := ih hrest timer hmem
        omega

theorem exists_mem_of_earliest {timers : List (Nat × Task)} (h : earliest timers = some due) :
    ∃ timer ∈ timers, timer.1 = due := by
  induction timers generalizing due with
  | nil => simp [earliest] at h
  | cons first rest ih =>
    unfold earliest at h
    cases hrest : earliest rest with
    | none =>
      simp only [hrest, Option.elim_none, Option.some_inj] at h
      exact ⟨first, List.mem_cons_self, h⟩
    | some next =>
      simp only [hrest, Option.elim_some, Option.some_inj] at h
      obtain ⟨timer, hmem, htimer⟩ := ih hrest
      rcases Nat.le_total first.1 next with hle | hle
      · exact ⟨first, List.mem_cons_self, by omega⟩
      · exact ⟨timer, List.mem_cons_of_mem first hmem, by omega⟩

theorem timers_of_nextDue?_eq_none (h : s.nextDue? = none) : s.timers = [] := by
  unfold nextDue? at h
  cases ht : s.timers with
  | nil => rfl
  | cons timer rest => simp [ht, earliest] at h

/-! ### Prompt runs -/

theorem runsOn_turns (n : Nat) (s : Session) : s.RunsOn (s.turns n) := by
  induction n generalizing s with
  | zero => exact .refl s
  | succ n ih =>
    unfold turns
    split
    next => exact .refl s
    next t ready hready =>
      have hm : s.move (.turn t) = { s with ready }.turn t := by simp [move, hready]
      exact (hm ▸ runsOn_move (m := .turn t) trivial (by simp)).trans (ih _)

theorem runsOn_settle (s : Session) : s.RunsOn s.settle := runsOn_turns _ s

theorem runsOn_moveTo (hready : s.ready = []) (htimers : ∀ timer ∈ s.timers, now ≤ timer.1) :
    s.RunsOn (s.moveTo now) := runsOn_move (m := .elapse now) ⟨hready, htimers⟩ (by simp)

theorem now_turns (n : Nat) (s : Session) : (s.turns n).now = s.now := by
  induction n generalizing s with
  | zero => rfl
  | succ n ih =>
    unfold turns
    split
    next => rfl
    next t ready hready => exact (ih _).trans (leads_turn { s with ready } t).steps.now_eq

theorem now_settle (s : Session) : s.settle.now = s.now := by
  unfold settle
  exact now_turns _ s

theorem now_moveTo (s : Session) (now : Nat) : (s.moveTo now).now = max s.now now :=
  s.toPipeline.now_moveTo now

theorem Reachable.now_lt (h : s.Reachable) : ∀ timer ∈ s.timers, s.now < timer.1 :=
  (h.keeps invariant_ahead fun _ => ahead_of_fresh).timers

/-- A stop at the next timer: time moves there, and everything due is done. -/
theorem runsOn_stop (h : s.Reachable) (hready : s.ready = []) (hdue : s.nextDue? = some due) :
    s.RunsOn (s.moveTo due).settle ∧ (s.moveTo due).settle.ready = []
      ∧ (s.moveTo due).settle.now = due ∧ s.now < due := by
  have hmove := runsOn_moveTo hready (earliest_le hdue)
  obtain ⟨timer, hmem, rfl⟩ := exists_mem_of_earliest hdue
  have hlt := h.now_lt timer hmem
  refine ⟨hmove.trans (runsOn_settle _), (h.comesTo hmove.comesTo).ready_settle, ?_, hlt⟩
  rw [now_settle, now_moveTo]
  omega

/-- With a stop for each millisecond on the way, no timer on the way is missed. -/
theorem runsOn_stops (n : Nat) (h : s.Reachable) (hready : s.ready = []) (hfirst : s.now ≤ target)
    (hn : target < s.now + n) :
    s.RunsOn (s.stops n target) ∧ (s.stops n target).ready = [] ∧ (s.stops n target).now ≤ target
      ∧ ∀ timer ∈ (s.stops n target).timers, target < timer.1 := by
  induction n generalizing s with
  | zero => omega
  | succ n ih =>
    unfold stops
    split
    next hnone =>
      exact ⟨.refl s, hready, hfirst, by simp [timers_of_nextDue?_eq_none hnone]⟩
    next due hdue =>
      split
      next hle =>
        obtain ⟨hruns, hready', hnow, hlt⟩ := runsOn_stop h hready hdue
        obtain ⟨hrest, hlast⟩ := ih (h.comesTo hruns.comesTo) hready' (by omega) (by omega)
        exact ⟨hruns.trans hrest, hlast⟩
      next hgt =>
        refine ⟨.refl s, hready, hfirst, fun timer hmem => ?_⟩
        exact Nat.lt_of_lt_of_le (Nat.lt_of_not_le hgt) (earliest_le hdue timer hmem)

/-- What is due while time moves on is done at its time, and nothing is left to do at the end. -/
theorem advance_spec (h : s.Reachable) (millis : Nat) :
    s.RunsOn (s.advance millis) ∧ (s.advance millis).ready = []
      ∧ (s.advance millis).now = s.now + millis := by
  have hsettle := runsOn_settle s
  have hnow := now_settle s
  obtain ⟨hstops, hready, hle, htimers⟩ := runsOn_stops (millis + 1)
    (h.comesTo hsettle.comesTo) h.ready_settle (show s.settle.now ≤ s.now + millis by omega)
    (by omega)
  have hmove := runsOn_moveTo hready fun timer hmem => Nat.le_of_lt (htimers timer hmem)
  have hruns := (hsettle.trans hstops).trans hmove
  unfold advance
  dsimp only
  refine ⟨hruns.trans (runsOn_settle _), (h.comesTo hruns.comesTo).ready_settle, ?_⟩
  rw [now_settle, now_moveTo]
  omega

structure Lasts (P : Session → Prop) : Prop where
  turn : ∀ {s : Session} (ready : List Task) (t : Task), P s → P ({ s with ready }.turn t)
  elapse : ∀ {s : Session} (now : Nat), P s → P (s.moveTo now)

variable {P : Session → Prop}

theorem Lasts.turns (hP : Lasts P) (n : Nat) (hs : P s) : P (s.turns n) := by
  induction n generalizing s with
  | zero => exact hs
  | succ n ih =>
    unfold Session.turns
    split
    next => exact hs
    next t ready _ => exact ih (hP.turn ready t hs)

theorem Lasts.settle (hP : Lasts P) (hs : P s) : P s.settle := hP.turns s.work hs

theorem Lasts.stops (hP : Lasts P) (n target : Nat) (hs : P s) : P (s.stops n target) := by
  induction n generalizing s with
  | zero => exact hs
  | succ n ih =>
    unfold Session.stops
    split
    next => exact hs
    next due _ =>
      split
      · exact ih (hP.settle (hP.elapse due hs))
      · exact hs

theorem Lasts.advance (hP : Lasts P) (millis : Nat) (hs : P s) : P (s.advance millis) := by
  have hstops := hP.stops (millis + 1) (s.now + millis) (hP.settle hs)
  unfold Session.advance
  dsimp only
  exact hP.settle (hP.elapse _ hstops)

theorem Lasts.await (hP : Lasts P) (n : Nat) (hs : P s) : P (s.await n) := by
  induction n generalizing s with
  | zero => exact hs
  | succ n ih =>
    have hsettle := hP.settle hs
    unfold Session.await
    dsimp only
    split
    · split
      next => exact hsettle
      next due _ => exact ih (hP.elapse due hsettle)
    · exact hsettle

theorem Lasts.finish (hP : Lasts P) (hs : P s) : P s.finish := by
  unfold Session.finish
  split
  · exact hP.await _ hs
  · exact hs

/-- What every stop keeps holds when the operator has what it waits for; and it has that if, as long
as it waits, some timer is set for no later than some time, with a stop for each millisecond until
then. -/
theorem await_ends (last : Nat) (hsettle : ∀ {s : Session}, s.Reachable → P s → P s.settle)
    (hmove : ∀ {s : Session} {due : Nat}, s.Reachable → s.ready = [] → s.nextDue? = some due →
      P s → P (s.moveTo due))
    (htimer : ∀ {s : Session}, s.Reachable → s.ready = [] → s.operator.isWaiting → P s →
      ∃ timer ∈ s.timers, timer.1 ≤ last)
    (n : Nat) (h : s.Reachable) (hs : P s) (hfirst : s.now ≤ last) (hn : last < s.now + n) :
    P (s.await n) ∧ (s.await n).operator.isWaiting = false := by
  induction n generalizing s with
  | zero => omega
  | succ n ih =>
    have hsettled := hsettle h hs
    have hreachable := h.comesTo (comesTo_settle s)
    have hnow := now_settle s
    unfold await
    dsimp only
    split
    next waiting =>
      obtain ⟨timer, hmem, hlast⟩ := htimer hreachable h.ready_settle waiting hsettled
      split
      next hnone =>
        rw [timers_of_nextDue?_eq_none hnone] at hmem
        cases hmem
      next due hdue =>
        have hle := earliest_le hdue timer hmem
        obtain ⟨first, hfirstmem, rfl⟩ := exists_mem_of_earliest hdue
        have hlt := hreachable.now_lt first hfirstmem
        have hmoved : (s.settle.moveTo first.1).now = first.1 := by
          rw [now_moveTo]
          omega
        refine ih (hreachable.comesTo (comesTo_moveTo _ _))
          (hmove hreachable h.ready_settle hdue hsettled) ?_ ?_
        · omega
        · omega
    next waiting => exact ⟨hsettled, by simpa using waiting⟩

end Session

end Uplink
