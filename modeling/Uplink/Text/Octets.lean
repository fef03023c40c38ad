/-!
Texts as octets.  Everything that travels is a list of octets; a text is such a list that is
well-formed UTF-8.
-/
namespace Uplink

abbrev Octets := List UInt8

namespace Octets

def ofText (s : String) : Octets := s.toByteArray.data.toList

def toByteArray (o : Octets) : ByteArray := ⟨o.toArray⟩

/-- The text these octets spell, if they are well-formed UTF-8. -/
def text? (o : Octets) : Option String := String.fromUTF8? o.toByteArray

theorem text?_ofText (s : String) : text? (ofText s) = some s := by
  have h : toByteArray (ofText s) = s.toByteArray := by
    simp [toByteArray, ofText]
  unfold text? String.fromUTF8?
  rw [h, dif_pos s.isValidUTF8]
  rfl

/-- The octet of an ASCII character. -/
def ascii (c : Char) : UInt8 := c.toNat.toUInt8

end Octets

end Uplink
