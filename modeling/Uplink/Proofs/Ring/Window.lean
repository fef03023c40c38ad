import Uplink.Ring.Basic
import Mathlib.Data.List.DropRight
import Mathlib.Tactic.Common
/-!
The window of a ring: which slot holds which item.  An item stands as many slots behind the head as
there are older ones, counted around the end of the array, and all other slots are empty.  Every
change of a ring moves the window and nothing else, and reading gives what stands in it.
-/
namespace Uplink

namespace Ring

variable {α : Type}

/-- How far slot `i` is behind the head. -/
def offset (r : Ring α) (i : Nat) : Nat := (i + r.capacity - r.head) % r.capacity

/-- The window of a ring holds `xs`, oldest first. -/
structure Holds (r : Ring α) (xs : List α) : Prop where
  head_lt : r.head < r.capacity
  count_le : r.count ≤ r.capacity
  tail_eq : r.tail = (r.head + r.count) % r.capacity
  count_eq : r.count = xs.length
  slot : ∀ i < r.capacity, r.slots[i]? = some xs[r.offset i]?

/-! ### Counting around the end of the array -/

theorem wrap_eq {i n : Nat} (h : i < 2 * n) : i % n = if i < n then i else i - n := by
  split
  next hi => exact Nat.mod_eq_of_lt hi
  next hi => rw [Nat.mod_eq_sub_mod (by omega), Nat.mod_eq_of_lt (by omega)]

theorem offset_eq {r : Ring α} {i : Nat} (hh : r.head < r.capacity) (hi : i < r.capacity) :
    r.offset i = if r.head ≤ i then i - r.head else i + r.capacity - r.head := by
  rw [offset, wrap_eq (by omega)]
  split <;> split <;> omega

theorem offset_wrap {r : Ring α} {k : Nat} (hh : r.head < r.capacity) (hk : k < r.capacity) :
    r.offset ((r.head + k) % r.capacity) = k := by
  rw [offset_eq hh (Nat.mod_lt _ (by omega)), wrap_eq (by omega)]
  split <;> split <;> omega

/-! ### Making -/

theorem holds_ofCapacity {n : Nat} (hn : 0 < n) : (ofCapacity n : Ring α).Holds [] where
  head_lt := by simpa [capacity, ofCapacity] using hn
  count_le := Nat.zero_le _
  tail_eq := by simp [ofCapacity]
  count_eq := rfl
  slot i hi := by
    have hi : i < n := by simpa [capacity, ofCapacity] using hi
    simp [ofCapacity, hi]

theorem Holds.capacity_pos {r : Ring α} {xs : List α} (h : r.Holds xs) : 0 < r.capacity :=
  Nat.zero_lt_of_lt h.head_lt

theorem Holds.tail_lt {r : Ring α} {xs : List α} (h : r.Holds xs) : r.tail < r.capacity := by
  rw [h.tail_eq]
  exact Nat.mod_lt _ h.capacity_pos

/-! ### Pushing -/

@[simp] theorem capacity_push (r : Ring α) (x : α) : (r.push x).capacity = r.capacity := by
  simp [push, capacity]

theorem slots_push (r : Ring α) (x : α) :
    (r.push x).slots = r.slots.setIfInBounds r.tail (some x) := rfl

theorem head_push (r : Ring α) (x : α) :
    (r.push x).head = if r.count = r.capacity then (r.head + 1) % r.capacity else r.head := rfl

theorem tail_push (r : Ring α) (x : α) : (r.push x).tail = (r.tail + 1) % r.capacity := rfl

theorem count_push (r : Ring α) (x : α) :
    (r.push x).count = if r.count = r.capacity then r.count else r.count + 1 := rfl

/-- A ring that is not full takes one more item. -/
theorem Holds.push_of_lt {r : Ring α} {xs : List α} (h : r.Holds xs) (x : α)
    (hlt : r.count < r.capacity) : (r.push x).Holds (xs ++ [x]) := by
  have hne : r.count ≠ r.capacity := hlt.ne
  have hh := h.head_lt
  have hhead : (r.push x).head = r.head := by rw [head_push, if_neg hne]
  have hoffset (i : Nat) : (r.push x).offset i = r.offset i := by simp [offset, hhead]
  have htail := h.tail_eq
  rw [wrap_eq (by omega)] at htail
  refine ⟨by simpa [hhead] using hh, ?_, ?_, ?_, fun i hi => ?_⟩
  · rw [count_push, if_neg hne, capacity_push]
    exact hlt
  · rw [tail_push, count_push, if_neg hne, hhead, capacity_push, h.tail_eq, Nat.mod_add_mod,
      Nat.add_assoc]
  · rw [count_push, if_neg hne, List.length_append, h.count_eq, List.length_singleton]
  · rw [capacity_push] at hi
    have ho := offset_eq hh hi
    have hi' : i < r.slots.size := hi
    rw [hoffset, slots_push, Array.getElem?_setIfInBounds]
    by_cases heq : r.tail = i
    · have hat : r.offset i = xs.length := by
        rw [ho, ← h.count_eq]
        split at htail <;> split <;> omega
      simp [heq, hi', hat]
    · have hne : r.offset i ≠ xs.length := by
        rw [ho, ← h.count_eq]
        split at htail <;> split <;> omega
      rw [if_neg heq, h.slot i hi]
      congr 1
      rcases Nat.lt_or_ge (r.offset i) xs.length with hl | hl
      · rw [List.getElem?_append_left hl]
      · rw [List.getElem?_eq_none hl, List.getElem?_eq_none (by simp; omega)]

/-- A full ring takes an item in place of its oldest one. -/
theorem Holds.push_of_eq {r : Ring α} {xs : List α} (h : r.Holds xs) (x : α)
    (heq : r.count = r.capacity) : (r.push x).Holds ((xs ++ [x]).drop 1) := by
  have hh := h.head_lt
  have hlen : xs.length = r.capacity := h.count_eq ▸ heq
  have htail : r.tail = r.head := by
    rw [h.tail_eq, heq, Nat.add_mod_right, Nat.mod_eq_of_lt hh]
  have hhead : (r.push x).head = (r.head + 1) % r.capacity := by rw [head_push, if_pos heq]
  have hhead_lt : (r.push x).head < (r.push x).capacity := by
    rw [hhead, capacity_push]
    exact Nat.mod_lt _ h.capacity_pos
  refine ⟨hhead_lt, ?_, ?_, ?_, fun i hi => ?_⟩
  · rw [count_push, if_pos heq, capacity_push]
    exact h.count_le
  · rw [tail_push, count_push, if_pos heq, hhead, capacity_push, htail, heq, Nat.add_mod_right,
      Nat.mod_mod]
  · rw [count_push, if_pos heq, List.length_drop, List.length_append, List.length_singleton]
    omega
  · have ho' := offset_eq hhead_lt hi
    rw [capacity_push] at hi
    have hi' : i < r.slots.size := hi
    have ho := offset_eq hh hi
    rw [hhead, capacity_push, wrap_eq (by omega)] at ho'
    rw [slots_push, Array.getElem?_setIfInBounds, htail, List.getElem?_drop]
    by_cases hat : r.head = i
    · have hlast : 1 + (r.push x).offset i = xs.length := by
        rw [ho']
        split <;> split <;> omega
      simp [hat, hi', hlast]
    · have hnext : 1 + (r.push x).offset i = r.offset i := by
        rw [ho', ho]
        split <;> split <;> split <;> omega
      have hl : r.offset i < xs.length := hlen ▸ Nat.mod_lt _ h.capacity_pos
      rw [if_neg hat, hnext, h.slot i hi, List.getElem?_append_left hl]

/-- A push appends, and keeps the newest items that fit. -/
theorem Holds.push {r : Ring α} {xs : List α} (h : r.Holds xs) (x : α) :
    (r.push x).Holds ((xs ++ [x]).rtake r.capacity) := by
  have hle := h.count_le
  have hc := h.count_eq
  rw [List.rtake, List.length_append, List.length_singleton]
  rcases hle.lt_or_eq with hlt | heq
  · have hdrop : xs.length + 1 - r.capacity = 0 := by omega
    rw [hdrop]
    exact h.push_of_lt x hlt
  · have hdrop : xs.length + 1 - r.capacity = 1 := by omega
    rw [hdrop]
    exact h.push_of_eq x heq

/-! ### Clearing and rebuilding -/

@[simp] theorem capacity_clear (r : Ring α) : r.clear.capacity = r.capacity := by
  simp [clear, capacity]

theorem Holds.clear {r : Ring α} {xs : List α} (h : r.Holds xs) : r.clear.Holds [] where
  head_lt := by
    rw [capacity_clear]
    exact h.capacity_pos
  count_le := Nat.zero_le _
  tail_eq := by simp [Ring.clear]
  count_eq := rfl
  slot i hi := by
    have hi : i < r.slots.size := by simpa [capacity, Ring.clear] using hi
    simp [Ring.clear, hi]

@[simp] theorem capacity_rebuild (r : Ring α) (n : Nat) : (r.rebuild n).capacity = n := by
  have hkeep : min r.count n ≤ n := Nat.min_le_right _ _
  simp only [rebuild, capacity, Array.size_append, List.size_toArray, List.length_map,
    List.length_range, Array.size_replicate]
  exact Nat.add_sub_cancel' hkeep

/-- The item that stands `k` slots behind the head. -/
theorem Holds.getElem?_wrap {r : Ring α} {xs : List α} (h : r.Holds xs) {k : Nat}
    (hk : k < xs.length) : r.slots[(r.head + k) % r.capacity]? = some xs[k]? := by
  have hh := h.head_lt
  have hkc : k < r.capacity := by have := h.count_le; have := h.count_eq; omega
  rw [h.slot _ (Nat.mod_lt _ h.capacity_pos), offset_wrap hh hkc]

/-- Rebuilding keeps the newest items that fit. -/
theorem Holds.rebuild {r : Ring α} {xs : List α} (h : r.Holds xs) {n : Nat} (hn : 0 < n) :
    (r.rebuild n).Holds (xs.rtake n) := by
  have hcount : (r.rebuild n).count = min xs.length n := by rw [← h.count_eq]; rfl
  have hlen : (xs.rtake n).length = min xs.length n := by
    rw [List.rtake, List.length_drop]
    omega
  refine ⟨?_, ?_, ?_, by rw [hcount, hlen], fun i hi => ?_⟩
  · rw [capacity_rebuild]
    exact hn
  · rw [hcount, capacity_rebuild]
    exact Nat.min_le_right _ _
  · rw [capacity_rebuild]
    simp [Ring.rebuild]
  · rw [capacity_rebuild] at hi
    have hoffset : (r.rebuild n).offset i = i := by
      rw [offset, capacity_rebuild]
      simp [Ring.rebuild, Nat.mod_eq_of_lt hi]
    rw [hoffset, List.rtake, List.getElem?_drop]
    simp only [Ring.rebuild, h.count_eq]
    rcases Nat.lt_or_ge i (min xs.length n) with hk | hk
    · have hskip : xs.length - min xs.length n + i < xs.length := by omega
      have hsame : xs.length - min xs.length n = xs.length - n := by omega
      have hslot := h.getElem?_wrap hskip
      rw [hsame] at hslot
      rw [Array.getElem?_append_left (by simpa using hk)]
      simp [hk, hsame, hslot]
    · have hend : xs.length ≤ xs.length - n + i := by omega
      have hsize : ((List.range (min xs.length n)).map fun i =>
          (r.slots[(r.head + (xs.length - min xs.length n + i)) % r.capacity]?).join).toArray.size
          = min xs.length n := by simp
      rw [Array.getElem?_append_right (by omega), List.getElem?_eq_none hend, hsize,
        Array.getElem?_replicate, if_pos (by omega)]

/-! ### Reading -/

/-- The slots from the head on, around the end of the array, are the items and then the empty
ones. -/
theorem Holds.rotate {r : Ring α} {xs : List α} (h : r.Holds xs) :
    r.slots.toList.drop r.head ++ r.slots.toList.take r.head
      = xs.map some ++ List.replicate (r.capacity - xs.length) none := by
  have hh := h.head_lt
  have hle : xs.length ≤ r.capacity := h.count_eq ▸ h.count_le
  have hsize : r.slots.toList.length = r.capacity := by simp [capacity]
  refine List.ext_getElem? fun k => ?_
  rcases Nat.lt_or_ge k r.capacity with hk | hk
  · have hwrap : (r.slots.toList.drop r.head ++ r.slots.toList.take r.head)[k]?
        = r.slots[(r.head + k) % r.capacity]? := by
      rw [wrap_eq (by omega)]
      split
      · rw [List.getElem?_append_left (by simp [hsize]; omega), List.getElem?_drop]
        simp
      · rw [List.getElem?_append_right (by simp [hsize]; omega), List.length_drop, hsize,
          List.getElem?_take_of_lt (by omega), show k - (r.capacity - r.head)
            = r.head + k - r.capacity by omega]
        simp
    rw [hwrap, h.slot _ (Nat.mod_lt _ h.capacity_pos), offset_wrap hh hk]
    rcases Nat.lt_or_ge k xs.length with hx | hx
    · rw [List.getElem?_append_left (by simpa using hx)]
      simp [hx]
    · rw [List.getElem?_append_right (by simpa using hx), List.getElem?_eq_none hx,
        List.getElem?_replicate, List.length_map, if_pos (by omega)]
  · rw [List.getElem?_eq_none (by simp [hsize]; omega),
      List.getElem?_eq_none (by simp; omega)]

/-- Reading gives the items of the window. -/
theorem Holds.toList_eq {r : Ring α} {xs : List α} (h : r.Holds xs) : r.toList = xs := by
  have hh := h.head_lt
  have hcount := h.count_eq
  have hcap : r.slots.size = r.capacity := rfl
  have hsegments : (if r.head + r.count ≤ r.capacity then r.slots.extract r.head (r.head + r.count)
      else r.slots.extract r.head r.capacity
        ++ r.slots.extract 0 (r.head + r.count - r.capacity)).toList = xs.map some := by
    have htake := congrArg (List.take xs.length) h.rotate
    have hitems : (xs.map some ++ List.replicate (r.capacity - xs.length) none).take xs.length
        = xs.map some := List.take_left' (by simp)
    rw [← hitems, ← htake, List.take_append]
    split
    next hle =>
      have hnone : xs.length - (r.slots.toList.drop r.head).length = 0 := by simp; omega
      rw [hnone]
      simp [List.extract_eq_take_drop, hcount]
    next hle =>
      have hall : (r.slots.toList.drop r.head).length ≤ xs.length := by simp; omega
      have hrest : min (xs.length - (r.capacity - r.head)) r.head
          = r.head + r.count - r.capacity := by have := h.count_le; omega
      have hfirst : (r.slots.toList.drop r.head).take (r.capacity - r.head)
          = r.slots.toList.drop r.head := List.take_of_length_le (by simp [hcap])
      rw [List.take_of_length_le hall]
      simp [List.extract_eq_take_drop, hcap, List.take_take, hrest, hfirst]
  simp only [toList]
  rw [hsegments]
  simp

theorem Holds.last_eq {r : Ring α} {xs : List α} (h : r.Holds xs) (n : Nat) :
    r.last n = xs.rtake n := by
  have hcount := h.count_eq
  rw [last, h.toList_eq, List.rtake, hcount]
  split
  next hz =>
    simp only [Bool.or_eq_true, decide_eq_true_eq] at hz
    rw [List.drop_of_length_le]
    omega
  next => rfl

end Ring

end Uplink
