import Uplink.Json.Value
/-!
JSON numerals: the grammar, and the number a numeral denotes.  A numeral without fraction and
power is an integer if it fits a word; any other is read as a double in two roundings, first its
digits, then the scaling by a power of ten.
-/
namespace Uplink

structure Numeral where
  negative : Bool
  whole : List Nat
  fraction : List Nat
  power : Option Int
  deriving DecidableEq, Repr

namespace Numeral

def isDigit (b : UInt8) : Bool := 48 ≤ b && b ≤ 57

def digitsOf (o : Octets) : List Nat := (o.takeWhile isDigit).map fun b => b.toNat - 48

def afterDigits (o : Octets) : Octets := o.dropWhile isDigit

theorem length_afterDigits_le (o : Octets) : (afterDigits o).length ≤ o.length :=
  (List.dropWhile_suffix _).length_le

theorem length_afterDigits_lt {o : Octets} (h : digitsOf o ≠ []) :
    (afterDigits o).length < o.length := by
  unfold digitsOf at h
  unfold afterDigits
  cases o with
  | nil => simp at h
  | cons b r =>
    by_cases hb : isDigit b
    · rw [List.dropWhile_cons_of_pos hb]
      exact Nat.lt_succ_of_le (length_afterDigits_le r)
    · simp [hb] at h

def natural (ds : List Nat) : Nat := ds.foldl (fun n d => 10 * n + d) 0

/-- A point must be followed by a digit. -/
def scanFraction : Octets → Option (List Nat × Octets)
  | 46 :: o => if digitsOf o = [] then none else some (digitsOf o, afterDigits o)
  | o => some ([], o)

def scanPowerDigits (negative : Bool) (o : Octets) : Option (Option Int × Octets) :=
  if digitsOf o = [] then none
  else
    let n : Int := natural (digitsOf o)
    some (some (if negative then -n else n), afterDigits o)

/-- The mark of a power is followed by a sign, if any, and a digit. -/
def scanPower : Octets → Option (Option Int × Octets)
  | b :: o =>
    if b = 101 || b = 69 then
      match o with
      | 43 :: o => scanPowerDigits false o
      | 45 :: o => scanPowerDigits true o
      | o => scanPowerDigits false o
    else some (none, b :: o)
  | [] => some (none, [])

/-- A numeral without its sign; a leading zero stands alone. -/
def scanUnsigned (negative : Bool) (o : Octets) : Option (Numeral × Octets) :=
  let whole := digitsOf o
  if whole = [] || (whole.head? = some 0 && 1 < whole.length) then none
  else do
    let (fraction, o) ← scanFraction (afterDigits o)
    let (power, o) ← scanPower o
    some (⟨negative, whole, fraction, power⟩, o)

/-- The numeral the octets begin with, and what follows it. -/
def scan : Octets → Option (Numeral × Octets)
  | 45 :: o => scanUnsigned true o
  | o => scanUnsigned false o

theorem length_scanFraction_le {o r : Octets} {f : List Nat} (h : scanFraction o = some (f, r)) :
    r.length ≤ o.length := by
  unfold scanFraction at h
  split at h
  · split at h
    · simp at h
    · simp only [Option.some.injEq, Prod.mk.injEq] at h
      rw [← h.2]
      exact Nat.le_succ_of_le (length_afterDigits_le _)
  · simp only [Option.some.injEq, Prod.mk.injEq] at h
    exact Nat.le_of_eq (congrArg List.length h.2.symm)

theorem length_scanPowerDigits_le {negative : Bool} {o r : Octets} {p : Option Int}
    (h : scanPowerDigits negative o = some (p, r)) : r.length ≤ o.length := by
  unfold scanPowerDigits at h
  split at h
  · simp at h
  · simp only [Option.some.injEq, Prod.mk.injEq] at h
    rw [← h.2]
    exact length_afterDigits_le _

theorem length_scanPower_le {o r : Octets} {p : Option Int} (h : scanPower o = some (p, r)) :
    r.length ≤ o.length := by
  unfold scanPower at h
  split at h
  · split at h
    · split at h <;> have := length_scanPowerDigits_le h <;>
        simp only [List.length_cons] at * <;> omega
    · simp only [Option.some.injEq, Prod.mk.injEq] at h
      exact Nat.le_of_eq (congrArg List.length h.2.symm)
  · simp only [Option.some.injEq, Prod.mk.injEq] at h
    exact Nat.le_of_eq (congrArg List.length h.2.symm)

theorem length_scanUnsigned_lt {negative : Bool} {o r : Octets} {n : Numeral}
    (h : scanUnsigned negative o = some (n, r)) : r.length < o.length := by
  unfold scanUnsigned at h
  simp only [] at h
  split at h
  · simp at h
  · rename_i hw
    simp only [Option.bind_eq_bind, Option.bind_eq_some_iff, Option.some.injEq, Prod.mk.injEq,
      Prod.exists] at h
    obtain ⟨_, o₁, h₁, _, o₂, h₂, _, rfl⟩ := h
    have hne : digitsOf o ≠ [] := by
      intro e
      simp [e] at hw
    have a := length_afterDigits_lt hne
    have b := length_scanFraction_le h₁
    have c := length_scanPower_le h₂
    omega

theorem length_scan_lt {o r : Octets} {n : Numeral} (h : scan o = some (n, r)) :
    r.length < o.length := by
  unfold scan at h
  split at h
  · exact Nat.lt_succ_of_lt (length_scanUnsigned_lt h)
  · exact length_scanUnsigned_lt h

/-- Digits are gathered while the number they spell fits a word. -/
def gather (n : Nat) : List Nat → Nat × List Nat
  | [] => (n, [])
  | d :: ds => if n * 10 + d < UInt64.size then gather (n * 10 + d) ds else (n, d :: ds)

/-- A double times a power of ten, itself the nearest double; beyond the doubles there is none. -/
def scaled (x : Double) (power : Int) : Option Double :=
  if 308 < power then if x.magnitude = 0 then some x else none
  else if 0 ≤ power then
    let y := x.times (Double.ofNat (Nat.pow 10 power.toNat))
    if y.isFinite then some y else none
  else if -308 ≤ power then some (x.dividedBy (Double.ofNat (Nat.pow 10 (-power).toNat)))
  else if x.magnitude = 0 then some x
  else scaled (x.dividedBy (Double.ofNat (Nat.pow 10 308))) (power + 308)
termination_by (-power).toNat
decreasing_by omega

/-- The double a numeral denotes: digits beyond a word are dropped, those of the whole part
counting towards the power. -/
def double? (x : Numeral) : Option Double :=
  let (n, left) := gather 0 x.whole
  let (m, dropped) := gather n x.fraction
  let taken := x.fraction.length - dropped.length
  let power := (left.length : Int) - taken + x.power.getD 0
  (scaled (Double.ofNat m) power).map fun y => if x.negative then y.negate else y

/-- The integer a numeral without fraction and power denotes; `-0` is none. -/
def integer? (x : Numeral) : Option Int :=
  if x.fraction = [] && x.power = none then
    if x.negative then
      if natural x.whole = 0 then none else some (-(natural x.whole : Int))
    else some (natural x.whole)
  else none

/-- The number a numeral denotes, unless it lies beyond the doubles. -/
def number? (x : Numeral) : Option Number :=
  let real := x.double?.bind fun y =>
    if finite : y.isFinite = true then some (.real y finite) else none
  match x.integer? with
  | some n =>
    if fits : Int64.minValue.toInt ≤ n ∧ n.toNat < UInt64.size then some (.integer n fits) else real
  | none => real

end Numeral

end Uplink
