/-!
A history of bounded size.  The newest items are kept in a circular array; reading gives them
oldest first.
-/
namespace Uplink

/-- `head` is the slot of the oldest item and `tail` the slot the next item goes to. -/
structure Ring (α : Type) where
  slots : Array (Option α)
  head : Nat
  tail : Nat
  count : Nat
  deriving Repr

namespace Ring

variable {α : Type}

def defaultCapacity : Nat := 1024

def ofCapacity (capacity : Nat) : Ring α := ⟨Array.replicate capacity none, 0, 0, 0⟩

/-- A ring for `capacity` items, where zero asks for the default capacity. -/
def create (capacity : Nat) : Ring α :=
  ofCapacity (if capacity = 0 then defaultCapacity else capacity)

def capacity (r : Ring α) : Nat := r.slots.size

/-- A full ring gives up its oldest item. -/
def push (r : Ring α) (x : α) : Ring α :=
  let ⟨slots, head, tail, count⟩ := r
  let capacity := slots.size
  { slots := slots.setIfInBounds tail (some x)
    tail := (tail + 1) % capacity
    head := if count = capacity then (head + 1) % capacity else head
    count := if count = capacity then count else count + 1 }

/-- The items oldest first: the slots from the head, then those wrapped to the front. -/
def toList (r : Ring α) : List α :=
  let stop := r.head + r.count
  let segments :=
    if stop ≤ r.capacity then r.slots.extract r.head stop
    else r.slots.extract r.head r.capacity ++ r.slots.extract 0 (stop - r.capacity)
  segments.toList.filterMap id

/-- The `n` newest items, oldest first. -/
def last (r : Ring α) (n : Nat) : List α :=
  if n = 0 || r.count = 0 then [] else r.toList.drop (r.count - n)

def clear (r : Ring α) : Ring α :=
  { slots := r.slots.map fun _ => none, head := 0, tail := 0, count := 0 }

/-- The newest items that fit are moved to the front of a new array. -/
def rebuild (r : Ring α) (capacity : Nat) : Ring α :=
  let keep := min r.count capacity
  let skip := r.count - keep
  let kept := (List.range keep).map fun i => (r.slots[(r.head + (skip + i)) % r.capacity]?).join
  { slots := kept.toArray ++ Array.replicate (capacity - keep) none
    head := 0
    tail := keep % capacity
    count := keep }

/-- A capacity of zero is ignored. -/
def resize (r : Ring α) (capacity : Nat) : Ring α :=
  if capacity = 0 then r else r.rebuild capacity

/-- What a history answers to a request for `n` records: nothing below zero, all for zero. -/
def recent (r : Ring α) (n : Int) : List α :=
  if n < 0 then [] else if n = 0 then r.toList else r.last n.toNat

/-- Requests for a capacity of zero or less are ignored. -/
def adjust (r : Ring α) (n : Int) : Ring α := if n ≤ 0 then r else r.resize n.toNat

end Ring

end Uplink
