import Uplink.Proofs.Ring.Bounded
/-!
The slots of a ring that hold an item.  They are those less than `count` behind the head, so a read
of the window meets no empty slot, and no item that was given up stays behind in the array.
-/
namespace Uplink

namespace Ring

variable {α : Type} {r : Ring α} {xs : List α}

/-- Whether a slot of the array holds an item. -/
def Occupied (r : Ring α) (i : Nat) : Prop := ∃ x, r.slots[i]? = some (some x)

/-- All items in the array, in the order of their slots. -/
def stored (r : Ring α) : List α := r.slots.toList.filterMap id

theorem Holds.occupied_iff (h : r.Holds xs) {i : Nat} (hi : i < r.capacity) :
    r.Occupied i ↔ r.offset i < r.count := by
  rw [Occupied, h.slot i hi, h.count_eq]
  refine ⟨fun ⟨x, hx⟩ => ?_, fun hlt => ⟨xs[r.offset i], by rw [List.getElem?_eq_getElem hlt]⟩⟩
  exact (List.getElem?_eq_some_iff.mp (Option.some.inj hx)).1

/-- The array holds the items of the window and nothing else. -/
theorem Holds.stored_perm (h : r.Holds xs) : r.stored.Perm xs := by
  have hrotate : (r.slots.toList.drop r.head ++ r.slots.toList.take r.head).filterMap id = xs := by
    rw [h.rotate, List.filterMap_append, List.filterMap_replicate_of_none rfl, List.append_nil,
      List.filterMap_map]
    exact List.filterMap_some
  have hsplit : r.stored = (r.slots.toList.take r.head).filterMap id
      ++ (r.slots.toList.drop r.head).filterMap id := by
    rw [stored, ← List.filterMap_append, List.take_append_drop]
  rw [hsplit]
  refine List.perm_append_comm.trans (List.Perm.of_eq ?_)
  rw [← List.filterMap_append, hrotate]

/-- Whatever is done to a ring for at least one item, its head and its count stay in range, its tail
is `count` slots behind the head, and the slots less than `count` behind the head hold an item and
no others do.  Reading gives all `count` items of the bounded list, and the array holds these items
only. -/
theorem occupied_run {n : Nat} (hn : 0 < n) (actions : List (Action α)) :
    let r := actions.foldl act (ofCapacity n)
    let b := actions.foldl Bounded.act ⟨[], n⟩
    r.count ≤ r.capacity ∧ r.head < r.capacity ∧ r.tail = (r.head + r.count) % r.capacity
      ∧ (∀ i < r.capacity, r.Occupied i ↔ (i + r.capacity - r.head) % r.capacity < r.count)
      ∧ r.toList = b.items ∧ r.toList.length = r.count ∧ r.stored.Perm b.items := by
  intro r b
  have hfirst : (ofCapacity n : Ring α).Shows ⟨[], n⟩ :=
    ⟨holds_ofCapacity hn, by simp [capacity, ofCapacity]⟩
  have hholds : r.Holds b.items := (hfirst.run actions).1.holds
  refine ⟨hholds.count_le, hholds.head_lt, hholds.tail_eq, fun i hi => hholds.occupied_iff hi,
    hholds.toList_eq, ?_, hholds.stored_perm⟩
  rw [hholds.toList_eq, hholds.count_eq]

/-- Of the items pushed into a ring for two the first is gone, and with one slot more the others
stand at the front of the array. -/
theorem occupied_run_widened :
    ([.push 1, .push 2, .push 3].foldl act (ofCapacity 2) : Ring Nat).slots = #[some 3, some 2]
      ∧ ([.push 1, .push 2, .push 3, .resize 3].foldl act (ofCapacity 2) : Ring Nat).slots
        = #[some 2, some 3, none]
      ∧ ([.push 1, .push 2, .push 3, .resize 3].foldl act (ofCapacity 2) : Ring Nat).stored.Perm
        [2, 3] := by
  have h := occupied_run (α := Nat) (n := 2) (by decide) [.push 1, .push 2, .push 3, .resize 3]
  exact ⟨by decide, by decide, h.2.2.2.2.2.2⟩

end Ring

end Uplink
