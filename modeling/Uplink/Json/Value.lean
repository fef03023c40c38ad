import Uplink.Double.Shortest
import Uplink.Text.Octets
/-!
JSON values and their compact wire text.  Integers and doubles are kept apart, and the members of
an object are written in the order they are held in.
-/
namespace Uplink

/-- A JSON number: an integer that fits a signed or an unsigned word, or a finite double. -/
inductive Number where
  | integer (n : Int) (fits : Int64.minValue.toInt ≤ n ∧ n.toNat < UInt64.size)
  | real (x : Double) (finite : x.isFinite = true)
  deriving DecidableEq

instance : Repr Number := ⟨fun
  | .integer n _, p => reprPrec n p
  | .real x _, p => reprPrec x p⟩

namespace Number

def signed (n : Int64) : Number :=
  .integer n.toInt ⟨n.minValue_le_toInt, by have := n.toInt_lt; simp only [UInt64.size]; omega⟩

def unsigned (n : UInt64) : Number :=
  .integer n.toNat ⟨Int.le_trans (by decide) (Int.natCast_nonneg _), n.toNat_lt⟩

def toDouble : Number → Double
  | .integer n _ => .ofInt n
  | .real x _ => x

end Number

inductive Json where
  | null
  | bool (b : Bool)
  | number (n : Number)
  | text (s : String)
  | array (items : List Json)
  | object (members : List (String × Json))
  deriving Repr, Inhabited

namespace Json

def signed (n : Int64) : Json := .number (.signed n)

def unsigned (n : UInt64) : Json := .number (.unsigned n)

/-- A double as a value; one that is not finite has no numeral. -/
def real (x : Double) : Json := if h : x.isFinite = true then .number (.real x h) else .null

def digits (n : Nat) : Octets :=
  if n < 10 then [48 + n.toUInt8] else digits (n / 10) ++ [48 + (n % 10).toUInt8]

def writeNumber : Number → Octets
  | .integer n _ => (if n < 0 then [45] else []) ++ digits n.natAbs
  | .real x _ => Octets.ofText x.text

def hexDigit (n : Nat) : UInt8 := if n < 10 then 48 + n.toUInt8 else 87 + n.toUInt8

/-- How an octet of a text is written: quotes, backslashes and controls are escaped, all else
stands for itself. -/
def writeOctet (b : UInt8) : Octets :=
  match b with
  | 34 => [92, 34]
  | 92 => [92, 92]
  | 8 => [92, 98]
  | 12 => [92, 102]
  | 10 => [92, 110]
  | 13 => [92, 114]
  | 9 => [92, 116]
  | _ => if b < 32 then [92, 117, 48, 48, hexDigit (b.toNat / 16), hexDigit (b.toNat % 16)] else [b]

def writeText (s : String) : Octets := 34 :: (Octets.ofText s).flatMap writeOctet ++ [34]

mutual

/-- The compact text of a value. -/
def write : Json → Octets
  | .null => [110, 117, 108, 108]
  | .bool true => [116, 114, 117, 101]
  | .bool false => [102, 97, 108, 115, 101]
  | .number n => writeNumber n
  | .text s => writeText s
  | .array items => 91 :: writeItems items
  | .object members => 123 :: writeMembers members

/-- The items of an array with commas between them, and the closing bracket. -/
def writeItems : List Json → Octets
  | [] => [93]
  | x :: rest => x.write ++ writeMoreItems rest

def writeMoreItems : List Json → Octets
  | [] => [93]
  | x :: rest => 44 :: x.write ++ writeMoreItems rest

/-- The members of an object with commas between them, and the closing bracket. -/
def writeMembers : List (String × Json) → Octets
  | [] => [125]
  | (k, v) :: rest => writeText k ++ 58 :: v.write ++ writeMoreMembers rest

def writeMoreMembers : List (String × Json) → Octets
  | [] => [125]
  | (k, v) :: rest => 44 :: writeText k ++ 58 :: v.write ++ writeMoreMembers rest

end

end Json

end Uplink
