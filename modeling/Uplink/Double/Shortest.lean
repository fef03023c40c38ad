import Uplink.Double.Basic
/-!
The shortest decimal of a double: the fewest digits that still read back as the same double, and
of these the nearest to it.
-/
namespace Uplink

/-- `digits * 10 ^ exponent`. -/
structure Decimal where
  digits : Nat
  exponent : Int
  deriving DecidableEq, Repr

namespace Decimal

/-- Compares `a * 10 ^ i` with `b * 2 ^ j`. -/
def compareScaled (a : Nat) (i : Int) (b : Nat) (j : Int) : Ordering :=
  compare ((a * Nat.pow 10 i.toNat) <<< (-j).toNat) ((b * Nat.pow 10 (-i).toNat) <<< j.toNat)

/-- Zeros at the end move into the exponent, at most `fuel` of them. -/
def trim (d : Decimal) : Nat → Decimal
  | 0 => d
  | fuel + 1 =>
    if d.digits % 10 = 0 && d.digits ≠ 0 then trim ⟨d.digits / 10, d.exponent + 1⟩ fuel else d

end Decimal

namespace Double

/-- The value below is nearer than the value above where the significand starts anew. -/
def narrowBelow (x : Double) : Bool := x.significand = leadingBit && -1074 < x.scale

/-- The decimal lies among the reals that round to `x`; the ends belong to them when the
significand is even. -/
def readsBack (x : Double) (d : Decimal) : Bool :=
  let low := 4 * x.significand - (if x.narrowBelow then 1 else 2)
  let high := 4 * x.significand + 2
  let ends := x.significand % 2 = 0
  let fromLow := Decimal.compareScaled d.digits d.exponent low (x.scale - 2)
  let fromHigh := Decimal.compareScaled d.digits d.exponent high (x.scale - 2)
  (fromLow = .gt || (ends && fromLow = .eq)) && (fromHigh = .lt || (ends && fromHigh = .eq))

/-- The number of digits before the point, negative when zeros follow the point. -/
def decimalPoint (x : Double) : Int :=
  let estimate := ((x.numerator.log2 : Int) - x.denominator.log2) * 30103 / 100000
  let below (k : Int) : Bool :=
    x.numerator * Nat.pow 10 (-k).toNat < x.denominator * Nat.pow 10 k.toNat
  (([-1, 0, 1].map (estimate + ·)).find? below).getD (estimate + 2)

/-- The neighbour of `x` among the multiples of `10 ^ grid` that reads back, the nearer of two;
of two equally near the even one. -/
def onGrid? (x : Double) (grid : Int) : Option Decimal :=
  let num := x.numerator * Nat.pow 10 (-grid).toNat
  let den := x.denominator * Nat.pow 10 grid.toNat
  let lower : Decimal := ⟨num / den, grid⟩
  let upper : Decimal := ⟨num / den + 1, grid⟩
  match x.readsBack lower, x.readsBack upper with
  | true, true =>
    match compare (2 * (num % den)) den with
    | .lt => some lower
    | .gt => some upper
    | .eq => some (if lower.digits % 2 = 0 then lower else upper)
  | true, false => some lower
  | false, true => some upper
  | false, false => none

def exactDecimal (x : Double) : Decimal :=
  ⟨x.numerator * Nat.pow 5 (-x.scale).toNat, min x.scale 0⟩

/-- The shortest decimal of the absolute value of a finite double. -/
def shortest (x : Double) : Decimal :=
  if x.magnitude = 0 then ⟨0, 0⟩
  else
    let point := x.decimalPoint
    let tried := (List.range 17).findSome? fun n => x.onGrid? (point - (n + 1 : Nat))
    (tried.getD x.exactDecimal).trim 400

end Double

/-- How decimals are laid out: positional for a decimal point within `least` and `most` digits,
otherwise one digit before the point and an exponent. -/
structure Layout where
  least : Int
  most : Int

/-- The form doubles have on the wire: `0.00001` and below `1e+16` positional, always with a
fraction, else `1.5e-7` or `1e+16`. -/
def Layout.wire : Layout := ⟨-4, 16⟩

namespace Layout

def zeros (n : Int) : String := String.ofList (List.replicate n.toNat '0')

def arrange (l : Layout) (d : Decimal) : String :=
  let digits := toString d.digits
  let length : Int := digits.length
  let point := length + d.exponent
  if 0 ≤ d.exponent && point ≤ l.most then digits ++ zeros d.exponent ++ ".0"
  else if 0 < point && point ≤ l.most then
    String.ofList (digits.toList.take point.toNat) ++ "."
      ++ String.ofList (digits.toList.drop point.toNat)
  else if l.least ≤ point && point ≤ 0 then "0." ++ zeros (-point) ++ digits
  else
    let whole := String.ofList (digits.toList.take 1)
    let fraction := String.ofList (digits.toList.drop 1)
    let power := point - 1
    whole ++ (if fraction.isEmpty then "" else "." ++ fraction) ++ "e"
      ++ (if power < 0 then "-" else "+") ++ toString power.natAbs

end Layout

namespace Double

def text (x : Double) : String :=
  (if x.negative then "-" else "") ++ Layout.wire.arrange x.shortest

end Double

end Uplink
