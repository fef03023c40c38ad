/-!
The identity of the network element.  All handles show one identity, so a change through any of
them is seen through every other.
-/
namespace Uplink

structure Identity where
  orgUid : String := ""
  neUid : String := ""
  deriving DecidableEq, Repr

/-- An identity with the number of handles on it. -/
structure SharedIdentity where
  identity : Identity := {}
  handles : Nat := 1
  deriving DecidableEq, Repr

namespace SharedIdentity

def addHandle (s : SharedIdentity) : SharedIdentity := { s with handles := s.handles + 1 }

def set (s : SharedIdentity) (identity : Identity) : SharedIdentity := { s with identity }

/-- What each handle shows. -/
def views (s : SharedIdentity) : List Identity := List.replicate s.handles s.identity

end SharedIdentity

end Uplink
