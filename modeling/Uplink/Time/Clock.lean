import Uplink.Record.Basic
/-!
The clocks that stamp records, with epoch milliseconds in a signed word: one that is set and moved
by hand, and the system's, of which nothing is known but what it shows when it is read.
-/
namespace Uplink

structure Clock where
  now : Int64 := 0
  deriving DecidableEq, Repr

namespace Clock

def set (_ : Clock) (now : Int64) : Clock := ⟨now⟩

def advance (c : Clock) (millis : Int64) : Clock := ⟨c.now + millis⟩

end Clock

/-- What the system's clock is going to show, from one reading to the next, to each service and to
the aggregator. -/
structure SystemClock where
  services : Kind → Nat → Int64 := fun _ _ => 0
  aggregator : Nat → Int64 := fun _ => 0

namespace SystemClock

def readBy (c : SystemClock) (k : Kind) : SystemClock :=
  { c with services := fun k' n => c.services k' (if k' = k then n + 1 else n) }

def readForReport (c : SystemClock) : SystemClock :=
  { c with aggregator := fun n => c.aggregator (n + 1) }

end SystemClock

end Uplink
