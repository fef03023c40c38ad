import Uplink.Kpi.Amount
import Uplink.Text.Dictionary
/-!
Counters by key.  A flush takes a sample of all of them, and once the sample is delivered it is
taken out of the counters again.  A stamp tells a counter that was set or created since the sample
from one that only grew.
-/
namespace Uplink

/-- The stamp changes whenever the counter is created or set. -/
structure Cell where
  amount : Amount
  stamp : UInt64
  deriving DecidableEq, Repr

inductive Change where
  | set (key : String) (a : Amount)
  | add (key : String) (delta : Amount)
  | delete (key : String)
  deriving DecidableEq, Repr

namespace Change

def key : Change → String
  | set k _ => k
  | add k _ => k
  | delete k => k

def setTo (k : String) (x : Double) : Change := .set k (.ofDouble x)

def addOf (k : String) (x : Double) : Change := .add k (.ofDouble x)

def increment (k : String) : Change := addOf k (.ofInt 1)

def decrement (k : String) : Change := addOf k (.ofInt (-1))

end Change

/-- Cells by key, and the last stamp given out. -/
structure Counters where
  cells : Dictionary Cell := .empty
  stamps : UInt64 := 0
  deriving DecidableEq, Repr

namespace Counters

/-- What a key holds, zero when it is absent. -/
def amount (c : Counters) (k : String) : Amount := ((c.cells.get? k).map Cell.amount).getD 0

def put (c : Counters) (k : String) (a : Amount) : Counters :=
  { cells := c.cells.put k ⟨a, c.stamps + 1⟩, stamps := c.stamps + 1 }

def set (c : Counters) (k : String) (a : Amount) : Counters := c.put k a

/-- An absent counter is created. -/
def add (c : Counters) (k : String) (delta : Amount) : Counters :=
  match c.cells.get? k with
  | some cell => { c with cells := c.cells.put k { cell with amount := cell.amount + delta } }
  | none => c.put k delta

def delete (c : Counters) (k : String) : Counters := { c with cells := c.cells.erase k }

def value (c : Counters) (k : String) : Double := (c.amount k).toDouble

def apply (c : Counters) : Change → Counters
  | .set k a => c.set k a
  | .add k delta => c.add k delta
  | .delete k => c.delete k

def values (cells : Dictionary Cell) : Dictionary Double := cells.map fun c => c.amount.toDouble

/-- What is left of a cell once a sample of it is taken out: a cell that was set or created since
is left alone, and one that comes to zero disappears. -/
def remainder (cell sample : Cell) : Option Cell :=
  if cell.stamp ≠ sample.stamp then some cell
  else if cell.amount = sample.amount then none
  else some { cell with amount := cell.amount - sample.amount }

/-- Takes a delivered sample out of the counters. -/
def settle (c : Counters) (sample : Dictionary Cell) : Counters :=
  { c with
    cells := c.cells.filterMap fun k cell =>
      match sample.get? k with
      | some s => remainder cell s
      | none => some cell }

end Counters

end Uplink
