/-!
Doubles in exact arithmetic.  A finite double is `significand * 2 ^ scale` up to its sign, and
every operation rounds the exact rational result to the nearest double, ties to even.
-/
namespace Uplink

/-- A double by its sixty-four bits. -/
structure Double where
  bits : UInt64
  deriving DecidableEq, Repr, Inhabited

namespace Double

def signBit : Nat := 1 <<< 63

/-- The leading digit of a significand, which is not written out. -/
def leadingBit : Nat := 1 <<< 52

/-- The bits below the sign bit, which order doubles by absolute value. -/
def magnitude (x : Double) : Nat := x.bits.toNat % signBit

def negative (x : Double) : Bool := signBit ≤ x.bits.toNat

/-- The magnitude of the infinities; what lies above is no number. -/
def infinite : Nat := 2047 * leadingBit

def isFinite (x : Double) : Bool := x.magnitude < infinite

def isNaN (x : Double) : Bool := infinite < x.magnitude

def significand (x : Double) : Nat :=
  if x.magnitude < leadingBit then x.magnitude else leadingBit + x.magnitude % leadingBit

def scale (x : Double) : Int := (max (x.magnitude / leadingBit) 1 : Nat) - 1075

def ofMagnitude (negative : Bool) (m : Nat) : Double :=
  ⟨UInt64.ofNat (if negative then signBit + m else m)⟩

def nan : Double := ofMagnitude false (infinite + leadingBit / 2)

/-- The numerator of the absolute value, over `denominator`. -/
def numerator (x : Double) : Nat := x.significand <<< x.scale.toNat

def denominator (x : Double) : Nat := 1 <<< (-x.scale).toNat

def toRat (x : Double) : Rat :=
  mkRat (if x.negative then -x.numerator else x.numerator) x.denominator

/-- The quotient rounded to an integer, a half going to the even neighbour. -/
def halfEven (num den : Nat) : Nat :=
  let q := num / den
  match compare (2 * (num % den)) den with
  | .lt => q
  | .gt => q + 1
  | .eq => q + q % 2

/-- The binary exponent of the leading digit of `num / den`. -/
def leading (num den : Nat) : Int :=
  let e : Int := (num.log2 : Int) - den.log2
  if den <<< e.toNat ≤ num <<< (-e).toNat then e else e - 1

/-- The magnitude of the double nearest to `num / den`: fifty-three digits, fewer where the
exponent has reached its least value. -/
def nearest (num den : Nat) : Nat :=
  if num = 0 then 0
  else
    let unit := max (leading num den - 52) (-1074)
    let q := halfEven (num <<< (-unit).toNat) (den <<< unit.toNat)
    min infinite ((unit + 1074).toNat * leadingBit + q)

def ofRat (q : Rat) : Double := ofMagnitude (q.num < 0) (nearest q.num.natAbs q.den)

def ofInt (n : Int) : Double := ofMagnitude (n < 0) (nearest n.natAbs 1)

def ofNat (n : Nat) : Double := ofMagnitude false (nearest n 1)

def times (x y : Double) : Double :=
  let sign := x.negative != y.negative
  if x.isNaN || y.isNaN then nan
  else if x.isFinite && y.isFinite then
    ofMagnitude sign (nearest (x.numerator * y.numerator) (x.denominator * y.denominator))
  else if x.magnitude = 0 || y.magnitude = 0 then nan
  else ofMagnitude sign infinite

def dividedBy (x y : Double) : Double :=
  let sign := x.negative != y.negative
  if x.isNaN || y.isNaN then nan
  else if x.isFinite && y.isFinite then
    if y.magnitude = 0 then
      if x.magnitude = 0 then nan else ofMagnitude sign infinite
    else ofMagnitude sign (nearest (x.numerator * y.denominator) (x.denominator * y.numerator))
  else if x.isFinite then ofMagnitude sign 0
  else if y.isFinite then ofMagnitude sign infinite
  else nan

def negate (x : Double) : Double := ofMagnitude (!x.negative) x.magnitude

/-- The integer nearest to the absolute value, a half going up. -/
def halfUp (x : Double) : Nat := (2 * x.numerator + x.denominator) / (2 * x.denominator)

/-- The nearest integer, a half going away from zero, held within the signed words; what is no
number counts as zero. -/
def toWord (x : Double) : Int64 :=
  if x.isNaN then 0
  else if x.isFinite then
    let n : Int := if x.negative then -x.halfUp else x.halfUp
    Int64.ofInt (max Int64.minValue.toInt (min Int64.maxValue.toInt n))
  else if x.negative then Int64.minValue
  else Int64.maxValue

end Double

end Uplink
