import Uplink.Proofs.Ring.Window
/-!
A ring behaves as a bounded list.  The operations are given a second time with every index, every
remainder and every difference checked; the checks never fail, whatever was done to the ring before,
and what can be read of it is what the list says.
-/
namespace Uplink

namespace Ring

inductive Action (α : Type) where
  | push (x : α)
  | resize (capacity : Nat)
  | clear

end Ring

/-- A list that keeps its newest items, up to a capacity. -/
structure Bounded (α : Type) where
  items : List α
  capacity : Nat

namespace Bounded

variable {α : Type}

def create (capacity : Nat) : Bounded α := ⟨[], if capacity = 0 then 1024 else capacity⟩

def push (b : Bounded α) (x : α) : Bounded α :=
  { b with items := (b.items ++ [x]).rtake b.capacity }

def resize (b : Bounded α) (capacity : Nat) : Bounded α :=
  if capacity = 0 then b else ⟨b.items.rtake capacity, capacity⟩

def clear (b : Bounded α) : Bounded α := { b with items := [] }

def act (b : Bounded α) : Ring.Action α → Bounded α
  | .push x => b.push x
  | .resize n => b.resize n
  | .clear => b.clear

end Bounded

namespace Ring

variable {α : Type}

/-! ### Checked operations -/

/-- A remainder, but not by zero. -/
def remainder? (a b : Nat) : Option Nat := if b = 0 then none else some (a % b)

/-- A difference, but not below zero. -/
def difference? (a b : Nat) : Option Nat := if b ≤ a then some (a - b) else none

def slice? (slots : Array (Option α)) (start stop : Nat) : Option (Array (Option α)) :=
  if start ≤ stop ∧ stop ≤ slots.size then some (slots.extract start stop) else none

def push? (r : Ring α) (x : α) : Option (Ring α) := do
  let slots ← if h : r.tail < r.slots.size then some (r.slots.set r.tail (some x)) else none
  let tail ← remainder? (r.tail + 1) r.capacity
  if r.count = r.capacity then
    let head ← remainder? (r.head + 1) r.capacity
    some { r with slots, tail, head }
  else some { r with slots, tail, count := r.count + 1 }

def segments? (r : Ring α) : Option (Array (Option α)) := do
  let stop := r.head + r.count
  if stop ≤ r.capacity then slice? r.slots r.head stop
  else
    let first ← slice? r.slots r.head r.capacity
    let wrapped ← difference? stop r.capacity
    let second ← slice? r.slots 0 wrapped
    some (first ++ second)

def toList? (r : Ring α) : Option (List α) := r.segments?.map fun s => s.toList.filterMap id

def last? (r : Ring α) (n : Nat) : Option (List α) :=
  if n = 0 || r.count = 0 then some [] else r.toList?.map (·.drop (r.count - n))

/-- The slot `k` behind the head. -/
def slotBehind? (r : Ring α) (k : Nat) : Option (Option α) := do
  let i ← remainder? (r.head + k) r.capacity
  r.slots[i]?

def rebuild? (r : Ring α) (capacity : Nat) : Option (Ring α) := do
  let keep := min r.count capacity
  let skip ← difference? r.count keep
  let kept ← (List.range keep).mapM fun i => r.slotBehind? (skip + i)
  let spare ← difference? capacity keep
  let tail ← remainder? keep capacity
  some { slots := kept.toArray ++ Array.replicate spare none, head := 0, tail, count := keep }

def resize? (r : Ring α) (capacity : Nat) : Option (Ring α) :=
  if capacity = 0 then some r else r.rebuild? capacity

theorem remainder?_of_pos {a b : Nat} (hb : 0 < b) : remainder? a b = some (a % b) :=
  if_neg hb.ne'

theorem difference?_of_le {a b : Nat} (h : b ≤ a) : difference? a b = some (a - b) := if_pos h

theorem mapM_eq_some {β γ : Type} {f : β → Option γ} {g : β → γ} {l : List β}
    (h : ∀ b ∈ l, f b = some (g b)) : l.mapM f = some (l.map g) := by
  induction l with
  | nil => rfl
  | cons b l ih =>
    rw [List.mapM_cons, h b (by simp), ih fun c hc => h c (by simp [hc])]
    rfl

/-! ### The checks never fail -/

variable {r : Ring α} {xs : List α}

theorem Holds.push?_eq (h : r.Holds xs) (x : α) : r.push? x = some (r.push x) := by
  have ht : r.tail < r.slots.size := h.tail_lt
  have hset : r.slots.setIfInBounds r.tail (some x) = r.slots.set r.tail (some x) := by
    rw [Array.setIfInBounds, dif_pos ht]
  rw [push?, dif_pos ht, remainder?_of_pos h.capacity_pos, remainder?_of_pos h.capacity_pos]
  by_cases hc : r.count = r.capacity
  · have hc' : r.count = r.slots.size := hc
    simp [Ring.push, hset, hc', capacity]
  · have hc' : r.count ≠ r.slots.size := hc
    simp [Ring.push, hset, hc', capacity]

theorem Holds.toList?_eq (h : r.Holds xs) : r.toList? = some xs := by
  have hh := h.head_lt
  have hle := h.count_le
  have hslice (start stop : Nat) (h₁ : start ≤ stop) (h₂ : stop ≤ r.capacity) :
      slice? r.slots start stop = some (r.slots.extract start stop) := if_pos ⟨h₁, h₂⟩
  rw [← h.toList_eq, toList?, segments?]
  by_cases hs : r.head + r.count ≤ r.capacity
  · rw [if_pos hs, hslice _ _ (by omega) hs]
    simp [toList, hs]
  · rw [if_neg hs, hslice _ _ hh.le le_rfl, difference?_of_le (by omega)]
    simp only [Option.bind_eq_bind, Option.bind_some]
    rw [hslice 0 _ (by omega) (by omega)]
    simp [toList, hs]

theorem Holds.last?_eq (h : r.Holds xs) (n : Nat) : r.last? n = some (r.last n) := by
  rw [last?, last, h.toList?_eq, h.toList_eq]
  split <;> rfl

theorem Holds.slotBehind?_eq (h : r.Holds xs) {k : Nat} (hk : k < xs.length) :
    r.slotBehind? k = some (r.slots[(r.head + k) % r.capacity]?).join := by
  rw [slotBehind?, remainder?_of_pos h.capacity_pos]
  simp [h.getElem?_wrap hk]

theorem Holds.rebuild?_eq (h : r.Holds xs) {n : Nat} (hn : 0 < n) :
    r.rebuild? n = some (r.rebuild n) := by
  have hcount := h.count_eq
  have hkeep : min r.count n ≤ n := Nat.min_le_right _ _
  have hkept : (List.range (min r.count n)).mapM
      (fun i => r.slotBehind? (r.count - min r.count n + i))
      = some ((List.range (min r.count n)).map fun i =>
        (r.slots[(r.head + (r.count - min r.count n + i)) % r.capacity]?).join) := by
    refine mapM_eq_some fun i hi => h.slotBehind?_eq ?_
    have := List.mem_range.mp hi
    omega
  rw [rebuild?, difference?_of_le (Nat.min_le_left _ _), difference?_of_le hkeep,
    remainder?_of_pos hn]
  simp only [Option.bind_eq_bind, Option.bind_some]
  rw [hkept]
  rfl

theorem Holds.resize?_eq (h : r.Holds xs) (n : Nat) : r.resize? n = some (r.resize n) := by
  unfold resize? Ring.resize
  split
  next => rfl
  next hn => exact h.rebuild?_eq (Nat.pos_of_ne_zero hn)

/-! ### Runs -/

def act (r : Ring α) : Action α → Ring α
  | .push x => r.push x
  | .resize n => r.resize n
  | .clear => r.clear

def act? (r : Ring α) : Action α → Option (Ring α)
  | .push x => r.push? x
  | .resize n => r.resize? n
  | .clear => some r.clear

structure Shows (r : Ring α) (b : Bounded α) : Prop where
  holds : r.Holds b.items
  capacity_eq : r.capacity = b.capacity

theorem shows_create (n : Nat) : (create n : Ring α).Shows (.create n) where
  holds := holds_ofCapacity (by
    split
    next => decide
    next h => exact Nat.pos_of_ne_zero h)
  capacity_eq := by simp [create, ofCapacity, capacity, Bounded.create, defaultCapacity]

theorem Shows.push {b : Bounded α} (h : r.Shows b) (x : α) : (r.push x).Shows (b.push x) where
  holds := by
    rw [Bounded.push, ← h.capacity_eq]
    exact h.holds.push x
  capacity_eq := by rw [capacity_push, h.capacity_eq, Bounded.push]

theorem Shows.resize {b : Bounded α} (h : r.Shows b) (n : Nat) :
    (r.resize n).Shows (b.resize n) := by
  unfold Ring.resize Bounded.resize
  split
  next => exact h
  next hn => exact ⟨h.holds.rebuild (Nat.pos_of_ne_zero hn), capacity_rebuild r n⟩

theorem Shows.clear {b : Bounded α} (h : r.Shows b) : r.clear.Shows b.clear :=
  ⟨h.holds.clear, (capacity_clear r).trans h.capacity_eq⟩

/-- One action does the same to a ring and to the list it shows, and no check of it fails. -/
theorem Shows.act {b : Bounded α} (h : r.Shows b) (a : Action α) :
    (r.act a).Shows (b.act a) ∧ r.act? a = some (r.act a) := by
  cases a with
  | push x => exact ⟨h.push x, h.holds.push?_eq x⟩
  | resize n => exact ⟨h.resize n, h.holds.resize?_eq n⟩
  | clear => exact ⟨h.clear, rfl⟩

theorem Shows.run {b : Bounded α} (h : r.Shows b) (actions : List (Action α)) :
    (actions.foldl Ring.act r).Shows (actions.foldl Bounded.act b)
      ∧ actions.foldlM act? r = some (actions.foldl Ring.act r) := by
  induction actions generalizing r b with
  | nil => exact ⟨h, rfl⟩
  | cons a actions ih =>
    obtain ⟨hact, hcheck⟩ := h.act a
    obtain ⟨hrun, hchecks⟩ := ih hact
    refine ⟨hrun, ?_⟩
    rw [List.foldlM_cons, hcheck]
    exact hchecks

/-- Whatever is done to a ring, no check of an index, a remainder or a difference fails, and what
can be read of the ring afterwards is what the bounded list says. -/
theorem run_create (n : Nat) (actions : List (Action α)) :
    let r := actions.foldl Ring.act (create n)
    let b := actions.foldl Bounded.act (.create n)
    actions.foldlM act? (create n) = some r
      ∧ r.toList? = some r.toList ∧ (∀ k, r.last? k = some (r.last k))
      ∧ r.toList = b.items ∧ r.count = b.items.length ∧ r.capacity = b.capacity
      ∧ ∀ k, r.last k = b.items.drop (b.items.length - k) := by
  intro r b
  obtain ⟨hshows, hchecks⟩ := (shows_create (α := α) n).run actions
  have hholds : r.Holds b.items := hshows.holds
  exact ⟨hchecks, by rw [hholds.toList?_eq, hholds.toList_eq], hholds.last?_eq, hholds.toList_eq,
    hholds.count_eq, hshows.capacity_eq, hholds.last_eq⟩

end Ring

end Uplink
