import Uplink.Time.Clock
/-!
What a session meets by chance, apart from the answers of its receiver.  Nothing is known of it.
-/
namespace Uplink

/-- A task that was told to stop may find that what it waits for has come as well.  Then chance
decides: `flusher` whether a flusher goes on with it, and `generator` whether the generator does
after so many rounds. -/
structure Chance where
  clock : SystemClock := {}
  flusher : Nat → Bool := fun _ => false
  generator : UInt64 → Bool := fun _ => false

end Uplink
