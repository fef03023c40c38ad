import Uplink.Proofs.Kpi.Conservation
/-!
Stamps of counters.  The journal tells what the counters hold and how many stamps were given out,
and every cell bears one of those.  From any time on, a counter that is only added to stays in its
cell, and one that is set or deleted and created again bears a stamp given out since.
-/
namespace Uplink

namespace Counters

variable {c : Counters} {k : String} {x : Change} {cell : Cell}

/-! ### One change -/

/-- How many stamps a change takes: one to set a counter, and one to create it. -/
def draws (c : Counters) : Change → Nat
  | .set _ _ => 1
  | .add k _ => if (c.cells.get? k).isSome then 0 else 1
  | .delete _ => 0

theorem stamps_apply (c : Counters) (x : Change) :
    (c.apply x).stamps = c.stamps + .ofNat (c.draws x) := by
  cases x with
  | set j a => rfl
  | add j delta =>
    simp only [apply, add, draws]
    cases c.cells.get? j with
    | none => rfl
    | some cell => simp
  | delete j => simp [apply, delete, draws]

/-- A counter that is only added to stays in its cell. -/
theorem get?_apply (kept : Event.overrides k (.counted x) = false)
    (hk : c.cells.get? k = some cell) :
    (c.apply x).cells.get? k
      = some { cell with amount := cell.amount + Event.added k (.counted x) } := by
  cases x with
  | set j a =>
    have hj : k ≠ j := fun hj => by simp [Event.overrides, hj] at kept
    simp [apply, set, put, Dictionary.get?_put_of_ne _ hj, hk, Event.added]
  | add j delta =>
    by_cases hj : k = j
    · subst hj
      simp [apply, add, hk, Event.added]
    · have hadded : Event.added k (.counted (.add j delta)) = 0 := if_neg (Ne.symm hj)
      simp only [apply, add, hadded, add_zero]
      cases c.cells.get? j <;> simp [put, Dictionary.get?_put_of_ne _ hj, hk]
  | delete j =>
    have hj : k ≠ j := fun hj => by simp [Event.overrides, hj] at kept
    simp [apply, delete, Dictionary.get?_erase_of_ne _ hj, hk, Event.added]

/-- A cell has the stamp it had, unless the change gives it a new one. -/
theorem stamp_apply (h : (c.apply x).cells.get? k = some cell) :
    (Event.overrides k (.counted x) = false
      ∧ ∃ old, c.cells.get? k = some old ∧ cell.stamp = old.stamp)
    ∨ (c.draws x = 1 ∧ cell.stamp = c.stamps + 1) := by
  cases x with
  | set j a =>
    by_cases hj : k = j
    · subst hj
      simp only [apply, set, put, Dictionary.get?_put_self, Option.some_inj] at h
      exact .inr ⟨rfl, h ▸ rfl⟩
    · simp only [apply, set, put, Dictionary.get?_put_of_ne _ hj] at h
      exact .inl ⟨by simp [Event.overrides, Ne.symm hj], cell, h, rfl⟩
  | add j delta =>
    cases hold : c.cells.get? j with
    | none =>
      by_cases hj : k = j
      · subst hj
        simp only [apply, add, hold, put, Dictionary.get?_put_self, Option.some_inj] at h
        exact .inr ⟨by simp [draws, hold], h ▸ rfl⟩
      · simp only [apply, add, hold, put, Dictionary.get?_put_of_ne _ hj] at h
        exact .inl ⟨rfl, cell, h, rfl⟩
    | some old =>
      by_cases hj : k = j
      · subst hj
        simp only [apply, add, hold, Dictionary.get?_put_self, Option.some_inj] at h
        exact .inl ⟨rfl, old, hold, h ▸ rfl⟩
      · simp only [apply, add, hold, Dictionary.get?_put_of_ne _ hj] at h
        exact .inl ⟨rfl, cell, h, rfl⟩
  | delete j =>
    by_cases hj : k = j
    · subst hj
      simp [apply, delete] at h
    · simp only [apply, delete, Dictionary.get?_erase_of_ne _ hj] at h
      exact .inl ⟨by simp [Event.overrides, Ne.symm hj], cell, h, rfl⟩

/-! ### Stamps given out -/

structure Stamped (n : Nat) (c : Counters) : Prop where
  last : c.stamps = .ofNat n
  cells : ∀ k cell, c.cells.get? k = some cell → ∃ m ≤ n, cell.stamp = .ofNat m

variable {n : Nat}

theorem stamped_empty : Stamped 0 {} := ⟨rfl, fun _ _ h => by simp at h⟩

theorem Stamped.apply (h : Stamped n c) (x : Change) : Stamped (n + c.draws x) (c.apply x) where
  last := by rw [stamps_apply, h.last, UInt64.ofNat_add]
  cells k cell hcell := by
    rcases stamp_apply hcell with ⟨-, old, hold, hstamp⟩ | ⟨hdraws, hstamp⟩
    · obtain ⟨m, hm, hold⟩ := h.cells k old hold
      exact ⟨m, by omega, hstamp.trans hold⟩
    · refine ⟨n + 1, by omega, ?_⟩
      rw [hstamp, h.last, UInt64.ofNat_add]
      rfl

theorem Stamped.settle (h : Stamped n c) (sample : Dictionary Cell) :
    Stamped n (c.settle sample) where
  last := h.last
  cells k cell hcell := by
    rw [get?_settle] at hcell
    obtain ⟨old, hold, hleft⟩ := Option.bind_eq_some_iff.mp hcell
    have same : cell.stamp = old.stamp := by
      cases hs : sample.get? k with
      | none => simp_all
      | some s =>
        rw [hs] at hleft
        simp only [remainder] at hleft
        split at hleft
        · cases hleft
          rfl
        · split at hleft <;> cases hleft
          rfl
    rw [same]
    exact h.cells k old hold

/-- Two of fewer than `2 ^ 64` stamps are different. -/
theorem ofNat_ne_ofNat {m n : Nat} (hlt : m < n) (few : n < 2 ^ 64) :
    UInt64.ofNat m ≠ UInt64.ofNat n := by
  intro heq
  have hnat := congrArg UInt64.toNat heq
  rw [UInt64.toNat_ofNat', UInt64.toNat_ofNat'] at hnat
  omega

/-! ### What the journal tells -/

def hear : Event → Counters → Counters
  | .counted x, c => c.apply x
  | .landed _ f, c => c.settle f.sample
  | _, c => c

/-- The counters after such events, the newest of them first. -/
def replay (es : List Event) : Counters := es.foldr hear {}

def drawn (c : Counters) : Event → Nat
  | .counted x => c.draws x
  | _ => 0

/-- How many stamps were given out after such events, the newest of them first. -/
def issued : List Event → Nat
  | [] => 0
  | e :: es => issued es + (replay es).drawn e

theorem stamped_replay (es : List Event) : Stamped (issued es) (replay es) := by
  induction es with
  | nil => exact stamped_empty
  | cons e es ih =>
    cases e with
    | counted x => exact ih.apply x
    | landed t f => exact ih.settle f.sample
    | _ => exact ih

end Counters

namespace Event

def lands : Event → Bool
  | landed _ _ => true
  | _ => false

def change? : Event → Option Change
  | counted x => some x
  | _ => none

end Event

namespace Counters

variable {k : String} {cell : Cell} {during before : List Event}

/-- Without a report that lands, the counters change by what is counted and by nothing else. -/
theorem replay_append (aloft : ∀ e ∈ during, e.lands = false) :
    replay (during ++ before)
      = (during.reverse.filterMap Event.change?).foldl apply (replay before) := by
  induction during with
  | nil => rfl
  | cons e during ih =>
    have hrest := ih fun e he => aloft e (List.mem_cons_of_mem _ he)
    have he := aloft e List.mem_cons_self
    show hear e (replay (during ++ before)) = _
    rw [hrest, List.reverse_cons, List.filterMap_append, List.foldl_append]
    cases e <;> first | rfl | simp [Event.lands] at he

/-- A counter that is only added to stays in its cell, with all that was added. -/
theorem get?_replay_of_kept (aloft : ∀ e ∈ during, e.lands = false)
    (kept : ∀ e ∈ during, e.overrides k = false)
    (hk : (replay before).cells.get? k = some cell) :
    (replay (during ++ before)).cells.get? k
      = some { cell with amount := cell.amount + (during.map (Event.added k)).sum } := by
  induction during with
  | nil => simpa using hk
  | cons e during ih =>
    have hrest := ih (fun e he => aloft e (List.mem_cons_of_mem _ he))
      fun e he => kept e (List.mem_cons_of_mem _ he)
    have hkept := kept e List.mem_cons_self
    have he := aloft e List.mem_cons_self
    show (hear e (replay (during ++ before))).cells.get? k = _
    rw [List.map_cons, List.sum_cons]
    cases e with
    | counted x =>
      refine (get?_apply hkept hrest).trans ?_
      rw [add_assoc, add_comm (Event.added k _)]
    | landed t f => simp [Event.lands] at he
    | _ => simpa [hear, Event.added] using hrest

/-- A counter that was set or deleted bears, if it is there, a stamp given out since. -/
theorem stamp_replay_of_overridden (aloft : ∀ e ∈ during, e.lands = false)
    (overridden : ∃ e ∈ during, e.overrides k)
    (hcell : (replay (during ++ before)).cells.get? k = some cell) :
    ∃ m, issued before < m ∧ m ≤ issued (during ++ before) ∧ cell.stamp = .ofNat m := by
  have hgrows (es : List Event) : issued before ≤ issued (es ++ before) := by
    induction es with
    | nil => exact Nat.le_refl _
    | cons e es ih => exact Nat.le_trans ih (Nat.le_add_right _ _)
  induction during generalizing cell with
  | nil => simp at overridden
  | cons e during ih =>
    have hrest (overridden : ∃ e ∈ during, e.overrides k) {cell : Cell}
        (hcell : (replay (during ++ before)).cells.get? k = some cell) :
        ∃ m, issued before < m ∧ m ≤ issued (e :: (during ++ before)) ∧ cell.stamp = .ofNat m := by
      obtain ⟨m, hlow, hhigh, hstamp⟩ :=
        ih (fun e he => aloft e (List.mem_cons_of_mem _ he)) overridden hcell
      exact ⟨m, hlow, Nat.le_trans hhigh (Nat.le_add_right _ _), hstamp⟩
    have hrestOf (hkept : e.overrides k = false) : ∃ e ∈ during, e.overrides k := by
      obtain ⟨e', he', hover⟩ := overridden
      rcases List.mem_cons.mp he' with rfl | he'
      · rw [hkept] at hover
        cases hover
      · exact ⟨e', he', hover⟩
    have he := aloft e List.mem_cons_self
    cases e with
    | counted x =>
      rcases stamp_apply (c := replay (during ++ before)) hcell with
        ⟨hkept, old, hold, hstamp⟩ | ⟨hdraws, hstamp⟩
      · rw [hstamp]
        exact hrest (hrestOf hkept) hold
      · -- the change itself takes the stamp
        refine ⟨issued (during ++ before) + 1, ?_, ?_, ?_⟩
        · have := hgrows during
          omega
        · show _ ≤ issued (during ++ before) + (replay (during ++ before)).draws x
          omega
        · rw [hstamp, (stamped_replay _).last, UInt64.ofNat_add]
          rfl
    | landed t f => simp [Event.lands] at he
    | _ => exact hrest (hrestOf rfl) hcell

end Counters

end Uplink
