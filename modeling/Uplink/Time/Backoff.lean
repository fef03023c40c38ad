import Uplink.Time.Duration
/-!
The wait before the next attempt of a periodic flush.
-/
namespace Uplink

/-- The factor on the granularity doubles with each consecutive failure, up to four. -/
def backoffFactor (failures : UInt32) : Nat :=
  if failures = 0 then 1 else if failures = 1 then 2 else 4

def backoff? (granularity : Duration) (failures : UInt32) : Option Duration :=
  granularity.times? (backoffFactor failures)

end Uplink
