import Mathlib.Algebra.Order.Field.Power
import Mathlib.Data.Rat.Cast.Order
import Mathlib.Tactic.FieldSimp
import Mathlib.Tactic.Linarith
import Mathlib.Tactic.NormNum
import Mathlib.Tactic.Positivity
import Mathlib.Tactic.Ring
import Uplink.Double.Basic
/-!
How far rounding goes.  The rounded quotient is the multiple of the last digit that is nearest to
the quotient, so it is off by half a digit at most, and no double is nearer.
-/
namespace Uplink

namespace Double

/-! ### Quotients in binary -/

/-- A quotient whose numerator or denominator is shifted. -/
theorem shift_div_shift (a b : ℕ) (e : ℤ) :
    ((a <<< (-e).toNat : ℕ) : ℚ) / (b <<< e.toNat : ℕ) = a / b / 2 ^ e := by
  rw [Nat.shiftLeft_eq, Nat.shiftLeft_eq]
  obtain ⟨n, rfl | rfl⟩ := e.eq_nat_or_neg
  · simp [div_div]
  · simp [div_mul_eq_mul_div]

theorem pow_mul_zpow (n : ℕ) (e : ℤ) : (2 : ℚ) ^ n * 2 ^ e = 2 ^ (e + n) := by
  rw [zpow_add₀ two_ne_zero, zpow_natCast, mul_comm]

theorem shiftLeft_pos {a : ℕ} (ha : 0 < a) (n : ℕ) : 0 < a <<< n := by
  rw [Nat.shiftLeft_eq]
  positivity

variable {num den : ℕ}

/-- The leading digit of a quotient. -/
theorem leading_spec (hnum : 0 < num) (hden : 0 < den) :
    (2 : ℚ) ^ leading num den ≤ num / den ∧ (num : ℚ) / den < 2 ^ (leading num den + 1) := by
  have hn : (2 : ℚ) ^ num.log2 ≤ num ∧ (num : ℚ) < 2 ^ (num.log2 + 1) :=
    ⟨mod_cast Nat.log2_self_le hnum.ne', mod_cast Nat.lt_log2_self⟩
  have hd : (2 : ℚ) ^ den.log2 ≤ den ∧ (den : ℚ) < 2 ^ (den.log2 + 1) :=
    ⟨mod_cast Nat.log2_self_le hden.ne', mod_cast Nat.lt_log2_self⟩
  have hden' : (0 : ℚ) < den := mod_cast hden
  set e : ℤ := (num.log2 : ℤ) - den.log2 with he
  have low : (2 : ℚ) ^ (e - 1) ≤ num / den := by
    rw [le_div_iff₀ hden']
    calc (2 : ℚ) ^ (e - 1) * den ≤ 2 ^ (e - 1) * 2 ^ (den.log2 + 1) := by gcongr; exact hd.2.le
      _ = 2 ^ num.log2 := by
          rw [mul_comm, pow_mul_zpow, ← zpow_natCast]
          congr 1
          push_cast
          omega
      _ ≤ num := hn.1
  have high : (num : ℚ) / den < 2 ^ (e + 1) := by
    rw [div_lt_iff₀ hden']
    calc (num : ℚ) < 2 ^ (num.log2 + 1) := hn.2
      _ = 2 ^ (e + 1) * 2 ^ den.log2 := by
          rw [mul_comm, pow_mul_zpow, ← zpow_natCast]
          congr 1
          push_cast
          omega
      _ ≤ 2 ^ (e + 1) * den := by gcongr; exact hd.1
  have htest : den <<< e.toNat ≤ num <<< (-e).toNat ↔ (2 : ℚ) ^ e ≤ num / den := by
    have hpos : (0 : ℚ) < (den <<< e.toNat : ℕ) := mod_cast shiftLeft_pos hden _
    rw [← one_le_div₀ (by positivity : (0 : ℚ) < 2 ^ e), ← shift_div_shift, one_le_div₀ hpos]
    exact Nat.cast_le.symm
  unfold leading
  dsimp only
  rw [← he]
  split
  next h => exact ⟨htest.mp h, high⟩
  next h => exact ⟨low, by rw [sub_add_cancel]; exact lt_of_not_ge fun hle => h (htest.mpr hle)⟩

theorem le_leading {e : ℤ} (hnum : 0 < num) (hden : 0 < den) (h : (2 : ℚ) ^ e ≤ num / den) :
    e ≤ leading num den := by
  have hlt := h.trans_lt (leading_spec hnum hden).2
  exact Int.lt_add_one_iff.mp ((zpow_lt_zpow_iff_right₀ (one_lt_two (α := ℚ))).mp hlt)

theorem leading_le {e : ℤ} (hnum : 0 < num) (hden : 0 < den) (h : (num : ℚ) / den < 2 ^ (e + 1)) :
    leading num den ≤ e := by
  have hlt := (leading_spec hnum hden).1.trans_lt h
  exact Int.lt_add_one_iff.mp ((zpow_lt_zpow_iff_right₀ (one_lt_two (α := ℚ))).mp hlt)

/-! ### The nearest integer -/

theorem abs_halfEven_sub_le (num : ℕ) (hden : 0 < den) :
    |(halfEven num den : ℚ) - num / den| ≤ 1 / 2 := by
  have hden' : (0 : ℚ) < den := mod_cast hden
  have hdiv : (num : ℚ) / den = (num / den : ℕ) + (num % den : ℕ) / den := by
    rw [eq_comm, ← mul_right_inj' hden'.ne']
    field_simp
    exact_mod_cast Nat.div_add_mod num den
  have hrest {r : ℚ} : (num % den : ℕ) / (den : ℚ) ≤ r ↔ (num % den : ℕ) ≤ r * den :=
    div_le_iff₀ hden'
  have hrest' {r : ℚ} : r ≤ (num % den : ℕ) / (den : ℚ) ↔ r * den ≤ (num % den : ℕ) :=
    le_div_iff₀ hden'
  have hnonneg : (0 : ℚ) ≤ (num % den : ℕ) / (den : ℚ) := by positivity
  have hlt : (num % den : ℕ) / (den : ℚ) < 1 := by
    rw [div_lt_one hden']
    exact_mod_cast Nat.mod_lt num hden
  rw [hdiv, abs_le]
  unfold halfEven
  dsimp only
  split
  next h =>
    have h : (2 * (num % den : ℕ) : ℚ) < den := mod_cast Nat.compare_eq_lt.mp h
    have := hrest.mpr (show ((num % den : ℕ) : ℚ) ≤ 1 / 2 * den by linarith)
    constructor <;> linarith
  next h =>
    have h : (den : ℚ) < 2 * (num % den : ℕ) := mod_cast Nat.compare_eq_gt.mp h
    have := hrest'.mpr (show 1 / 2 * (den : ℚ) ≤ (num % den : ℕ) by linarith)
    push_cast
    constructor <;> linarith
  next h =>
    have h : (2 * (num % den : ℕ) : ℚ) = den := mod_cast Nat.compare_eq_eq.mp h
    have hle := hrest.mpr (show ((num % den : ℕ) : ℚ) ≤ 1 / 2 * den by linarith)
    have hge := hrest'.mpr (show 1 / 2 * (den : ℚ) ≤ (num % den : ℕ) by linarith)
    have hodd : (((num / den) % 2 : ℕ) : ℚ) ≤ 1 := by
      exact_mod_cast Nat.le_of_lt_succ (Nat.mod_lt _ two_pos)
    have hodd' : (0 : ℚ) ≤ ((num / den) % 2 : ℕ) := by positivity
    push_cast at *
    constructor <;> linarith

/-- No integer is nearer to a quotient. -/
theorem abs_halfEven_sub_le_abs (num : ℕ) (hden : 0 < den) (z : ℤ) :
    |(halfEven num den : ℚ) - num / den| ≤ |(z : ℚ) - num / den| := by
  have hhalf := abs_halfEven_sub_le num hden
  by_cases hz : z = halfEven num den
  · rw [hz, Int.cast_natCast]
  · have hone : (1 : ℚ) ≤ |(z : ℚ) - halfEven num den| := by
      exact_mod_cast Int.one_le_abs (sub_ne_zero.mpr hz)
    have htriangle := abs_sub_le (z : ℚ) (num / den) (halfEven num den)
    rw [abs_sub_comm ((num : ℚ) / den)] at htriangle
    linarith

theorem halfEven_mul_left {c : ℕ} (hc : 0 < c) (num den : ℕ) :
    halfEven (c * num) (c * den) = halfEven num den := by
  have hcompare : compare (2 * (c * (num % den))) (c * den) = compare (2 * (num % den)) den := by
    rw [Nat.mul_left_comm, Nat.compare_eq_ite_lt, Nat.compare_eq_ite_lt]
    simp only [Nat.mul_lt_mul_left hc]
  unfold halfEven
  rw [Nat.mul_div_mul_left _ _ hc, Nat.mul_mod_mul_left, hcompare]

/-- Rounding depends on the quotient alone. -/
theorem halfEven_congr {num' den' : ℕ} (hden : 0 < den) (hden' : 0 < den')
    (h : num * den' = num' * den) : halfEven num den = halfEven num' den' := by
  rw [← halfEven_mul_left hden' num den, ← halfEven_mul_left hden num' den', mul_comm den' num,
    h, mul_comm num', mul_comm den']

/-! ### The nearest double -/

/-- The quotient in units of its last digit, rounded. -/
def digits (num den : ℕ) : ℕ :=
  let unit := leading num den - 52
  halfEven (num <<< (-unit).toNat) (den <<< unit.toNat)

theorem abs_digits_sub_le_abs (num : ℕ) (hden : 0 < den) (z : ℤ) :
    |(digits num den : ℚ) - num / den / 2 ^ (leading num den - 52)|
      ≤ |(z : ℚ) - num / den / 2 ^ (leading num den - 52)| := by
  rw [← shift_div_shift]
  exact abs_halfEven_sub_le_abs _ (shiftLeft_pos hden _) z

theorem abs_digits_sub_le (num : ℕ) (hden : 0 < den) :
    |(digits num den : ℚ) - num / den / 2 ^ (leading num den - 52)| ≤ 1 / 2 := by
  rw [← shift_div_shift]
  exact abs_halfEven_sub_le _ (shiftLeft_pos hden _)

/-- There are fifty-three digits, unless rounding carries. -/
theorem digits_bounds (hnum : 0 < num) (hden : 0 < den) :
    2 ^ 52 ≤ digits num den ∧ digits num den ≤ 2 ^ 53 := by
  obtain ⟨hlow, hhigh⟩ := leading_spec hnum hden
  have hhalf := abs_le.mp (abs_digits_sub_le num hden)
  have hunit : (0 : ℚ) < 2 ^ (leading num den - 52) := by positivity
  have low : (2 : ℚ) ^ 52 ≤ num / den / 2 ^ (leading num den - 52) := by
    rw [le_div_iff₀ hunit, pow_mul_zpow,
      show leading num den - 52 + (52 : ℕ) = leading num den by omega]
    exact hlow
  have high : (num : ℚ) / den / 2 ^ (leading num den - 52) < 2 ^ 53 := by
    rw [div_lt_iff₀ hunit, pow_mul_zpow,
      show leading num den - 52 + (53 : ℕ) = leading num den + 1 by omega]
    exact hhigh
  constructor
  · have : (2 : ℚ) ^ 52 < digits num den + 1 := by linarith
    exact Nat.lt_succ_iff.mp (by exact_mod_cast this)
  · have : (digits num den : ℚ) < 2 ^ 53 + 1 := by linarith
    exact Nat.lt_succ_iff.mp (by exact_mod_cast this)

/-- The exponent of a quotient is one of a double with fifty-three digits. -/
def Normal (num den : ℕ) : Prop := -1022 ≤ leading num den ∧ leading num den ≤ 1022

theorem nearest_eq (hnum : 0 < num) (hden : 0 < den) (h : Normal num den) :
    nearest num den = (leading num den + 1022).toNat * leadingBit + digits num den := by
  obtain ⟨hlow, hhigh⟩ := h
  obtain ⟨-, hdigits⟩ := digits_bounds hnum hden
  have hunit : max (leading num den - 52) (-1074) = leading num den - 52 := max_eq_left (by omega)
  have hshift : leading num den - 52 + 1074 = leading num den + 1022 := by omega
  have hfits : (leading num den + 1022).toNat * leadingBit + digits num den ≤ infinite := by
    show _ * 2 ^ 52 + _ ≤ 2047 * 2 ^ 52
    omega
  unfold nearest
  dsimp only
  rw [if_neg hnum.ne', hunit, hshift]
  exact min_eq_right hfits

/-- Rounding to a double depends on the quotient alone. -/
theorem nearest_congr {num' den' : ℕ} (hden : 0 < den) (hden' : 0 < den')
    (h : num * den' = num' * den) : nearest num den = nearest num' den' := by
  rcases Nat.eq_zero_or_pos num with rfl | hnum
  · have : num' = 0 := by simpa [hden.ne'] using h.symm
    simp [nearest, this]
  · have hnum' : num' ≠ 0 := by
      rintro rfl
      simp [hnum.ne', hden'.ne'] at h
    have hdenQ : (den : ℚ) ≠ 0 := mod_cast hden.ne'
    have hdenQ' : (den' : ℚ) ≠ 0 := mod_cast hden'.ne'
    have hquotient : (num' : ℚ) / den' = num / den := by
      rw [div_eq_div_iff hdenQ' hdenQ]
      exact_mod_cast h.symm
    have hleading : leading num' den' = leading num den := by
      have hnum' := Nat.pos_of_ne_zero hnum'
      obtain ⟨low, high⟩ := leading_spec hnum hden
      exact le_antisymm (leading_le hnum' hden' (hquotient ▸ high))
        (le_leading hnum' hden' (hquotient ▸ low))
    unfold nearest
    dsimp only
    rw [if_neg hnum.ne', if_neg hnum', hleading]
    rw [halfEven_congr (shiftLeft_pos hden _) (shiftLeft_pos hden' _)]
    simp only [Nat.shiftLeft_eq]
    calc num * _ * (den' * _) = num * den' * _ := mul_mul_mul_comm _ _ _ _
      _ = num' * den * _ := by rw [h]
      _ = _ := mul_mul_mul_comm _ _ _ _

/-! ### Values of doubles -/

def value (x : Double) : ℚ := x.significand * 2 ^ x.scale

theorem denominator_pos (x : Double) : 0 < x.denominator := shiftLeft_pos one_pos _

theorem numerator_div_denominator (x : Double) :
    (x.numerator : ℚ) / x.denominator = x.value := by
  have h := shift_div_shift x.significand 1 (-x.scale)
  rw [neg_neg] at h
  unfold numerator denominator value
  rw [h, Nat.cast_one, div_one, zpow_neg, div_inv_eq_mul]

theorem toRat_eq (x : Double) : x.toRat = if x.negative then -x.value else x.value := by
  unfold toRat
  rw [Rat.mkRat_eq_div, ← numerator_div_denominator]
  split <;> push_cast <;> ring

theorem magnitude_ofMagnitude {m : ℕ} (sign : Bool) (h : m < signBit) :
    (ofMagnitude sign m).magnitude = m := by
  have hbit : signBit = 2 ^ 63 := rfl
  rw [hbit] at h
  unfold magnitude ofMagnitude
  rw [UInt64.toNat_ofNat', hbit]
  cases sign <;> simp <;> omega

theorem negative_ofMagnitude {m : ℕ} (sign : Bool) (h : m < signBit) :
    (ofMagnitude sign m).negative = sign := by
  have hbit : signBit = 2 ^ 63 := rfl
  rw [hbit] at h
  unfold negative ofMagnitude
  rw [UInt64.toNat_ofNat', hbit]
  cases sign <;> simp <;> omega

/-- A magnitude stands for its digits in units of the last one, also where rounding carried. -/
theorem value_ofMagnitude {t q : ℕ} (sign : Bool) (ht : t + 2 ≤ 2047) (low : 2 ^ 52 ≤ q)
    (high : q ≤ 2 ^ 53) :
    (ofMagnitude sign (t * leadingBit + q)).value = q * 2 ^ ((t : ℤ) - 1074) := by
  have hleading : leadingBit = 2 ^ 52 := rfl
  have hmagnitude := magnitude_ofMagnitude (m := t * leadingBit + q) sign (by
    show _ * 2 ^ 52 + _ < 2 ^ 63
    omega)
  unfold value significand scale
  rw [hmagnitude, hleading, if_neg (by omega)]
  rcases Nat.lt_or_eq_of_le high with hlt | rfl
  · have hdiv : (t * 2 ^ 52 + q) / 2 ^ 52 = t + 1 := by omega
    have hmod : 2 ^ 52 + (t * 2 ^ 52 + q) % 2 ^ 52 = q := by omega
    rw [hdiv, hmod, max_eq_left (Nat.le_add_left 1 t)]
    congr 2
    push_cast
    ring
  · have hdiv : (t * 2 ^ 52 + 2 ^ 53) / 2 ^ 52 = t + 2 := by omega
    have hmod : 2 ^ 52 + (t * 2 ^ 52 + 2 ^ 53) % 2 ^ 52 = 2 ^ 52 := by omega
    rw [hdiv, hmod, max_eq_left (by omega)]
    have hexp : ((t + 2 : ℕ) : ℤ) - 1075 = (t : ℤ) - 1074 + 1 := by
      push_cast
      ring
    rw [hexp, zpow_add_one₀ two_ne_zero]
    push_cast
    ring

theorem value_nonneg (x : Double) : 0 ≤ x.value := by
  unfold value
  positivity

theorem significand_lt (x : Double) : x.significand < 2 ^ 53 := by
  have hleading : leadingBit = 2 ^ 52 := rfl
  unfold significand
  rw [hleading]
  split
  · omega
  · have := Nat.mod_lt x.magnitude (show 0 < 2 ^ 52 by positivity)
    omega

theorem nearest_lt_signBit (num den : ℕ) : nearest num den < signBit := by
  have hinfinite : infinite < signBit := by decide
  unfold nearest
  dsimp only
  split
  · decide
  · exact lt_of_le_of_lt (min_le_left _ _) hinfinite

section Nearest

variable (sign : Bool) (hnum : 0 < num) (hden : 0 < den) (h : Normal num den)
include hnum hden h

theorem value_nearest :
    (ofMagnitude sign (nearest num den)).value
      = digits num den * 2 ^ (leading num den - 52) := by
  obtain ⟨hlow, hhigh⟩ := digits_bounds hnum hden
  have hexp : (((leading num den + 1022).toNat : ℕ) : ℤ) - 1074 = leading num den - 52 := by
    have := h.1
    omega
  rw [nearest_eq hnum hden h, value_ofMagnitude sign _ hlow hhigh, hexp]
  have := h.2
  omega

theorem isFinite_nearest : (ofMagnitude sign (nearest num den)).isFinite := by
  obtain ⟨-, hdigits⟩ := digits_bounds hnum hden
  have := h.1
  have := h.2
  unfold isFinite
  rw [magnitude_ofMagnitude sign (nearest_lt_signBit num den), nearest_eq hnum hden h]
  refine decide_eq_true ?_
  show _ * 2 ^ 52 + _ < 2047 * 2 ^ 52
  omega

theorem value_nearest_sub :
    (ofMagnitude sign (nearest num den)).value - num / den
      = (digits num den - num / den / 2 ^ (leading num den - 52)) * 2 ^ (leading num den - 52) := by
  have hunit : (2 : ℚ) ^ (leading num den - 52) ≠ 0 := by positivity
  rw [value_nearest sign hnum hden h, sub_mul, div_mul_cancel₀ _ hunit]

/-- Rounding is off by half of the last digit at most. -/
theorem abs_value_nearest_sub_le :
    |(ofMagnitude sign (nearest num den)).value - num / den| ≤ 2 ^ (leading num den - 53) := by
  have hunit : (0 : ℚ) < 2 ^ (leading num den - 52) := by positivity
  have hhalf : (2 : ℚ) ^ (leading num den - 53) = 1 / 2 * 2 ^ (leading num den - 52) := by
    rw [show leading num den - 53 = leading num den - 52 - 1 by ring, zpow_sub_one₀ two_ne_zero]
    ring
  rw [value_nearest_sub sign hnum hden h, hhalf, abs_mul, abs_of_pos hunit]
  exact mul_le_mul_of_nonneg_right (abs_digits_sub_le num hden) hunit.le

/-- No multiple of the last digit is nearer. -/
theorem abs_value_nearest_sub_le_abs_mul (z : ℤ) :
    |(ofMagnitude sign (nearest num den)).value - num / den|
      ≤ |(z : ℚ) * 2 ^ (leading num den - 52) - num / den| := by
  have hunit : (0 : ℚ) < 2 ^ (leading num den - 52) := by positivity
  have hmultiple : (z : ℚ) * 2 ^ (leading num den - 52) - num / den
      = (z - num / den / 2 ^ (leading num den - 52)) * 2 ^ (leading num den - 52) := by
    rw [sub_mul, div_mul_cancel₀ _ hunit.ne']
  rw [value_nearest_sub sign hnum hden h, hmultiple, abs_mul, abs_mul]
  exact mul_le_mul_of_nonneg_right (abs_digits_sub_le_abs num hden z) (abs_nonneg _)

/-- No double is nearer: it is a multiple of the last digit, or its exponent is so small that it
lies below the least double that has the exponent of the quotient. -/
theorem abs_value_nearest_sub_le_abs (x : Double) :
    |(ofMagnitude sign (nearest num den)).value - num / den| ≤ |x.value - num / den| := by
  obtain ⟨hlow, -⟩ := leading_spec hnum hden
  rcases le_or_gt (leading num den - 52) x.scale with hscale | hscale
  · obtain ⟨n, hn⟩ := Int.le.dest hscale
    have hmultiple : x.value = ((x.significand * 2 ^ n : ℕ) : ℤ) * 2 ^ (leading num den - 52) := by
      unfold value
      rw [← hn, zpow_add₀ two_ne_zero, zpow_natCast]
      push_cast
      ring
    rw [hmultiple]
    exact abs_value_nearest_sub_le_abs_mul sign hnum hden h _
  · have hleast : ((2 ^ 52 : ℕ) : ℤ) * (2 : ℚ) ^ (leading num den - 52) = 2 ^ leading num den := by
      rw [Int.cast_natCast, Nat.cast_pow, Nat.cast_ofNat, pow_mul_zpow]
      congr 1
      omega
    have hsmall : x.value ≤ 2 ^ leading num den := by
      have hsignificand : (x.significand : ℚ) ≤ 2 ^ 53 := by
        exact_mod_cast x.significand_lt.le
      calc x.value ≤ 2 ^ 53 * 2 ^ x.scale := by unfold value; gcongr
        _ = 2 ^ (x.scale + 53) := pow_mul_zpow 53 x.scale
        _ ≤ 2 ^ leading num den := zpow_le_zpow_right₀ one_le_two (by omega)
    have hmultiple := abs_value_nearest_sub_le_abs_mul sign hnum hden h (2 ^ 52 : ℕ)
    rw [hleast, abs_of_nonpos (sub_nonpos.mpr hlow)] at hmultiple
    rw [abs_of_nonpos (sub_nonpos.mpr (hsmall.trans hlow))]
    linarith

end Nearest

/-! ### The double nearest to a rational -/

/-- A fraction need not be in lowest terms. -/
theorem ofRat_div (a : ℤ) {b : ℕ} (hb : 0 < b) :
    ofRat (a / b) = ofMagnitude (a < 0) (nearest a.natAbs b) := by
  have hbQ : (0 : ℚ) < b := mod_cast hb
  set r : ℚ := a / b with hr
  have hsign : r.num < 0 ↔ a < 0 := by
    rw [Rat.num_neg, hr, div_neg_iff]
    simp [hbQ, hbQ.le.not_gt]
  have hcross : r.num * b = a * r.den := by
    have hden : (r.den : ℚ) ≠ 0 := mod_cast r.den_nz
    have h := r.num_div_den.trans hr
    rw [div_eq_div_iff hden hbQ.ne'] at h
    exact_mod_cast h
  have hnearest : nearest r.num.natAbs r.den = nearest a.natAbs b :=
    nearest_congr r.den_pos hb (by simpa [Int.natAbs_mul] using congrArg Int.natAbs hcross)
  unfold ofRat
  rw [hnearest]
  simp only [hsign]

theorem abs_toRat (x : Double) : |x.toRat| = x.value := by
  rw [toRat_eq]
  split
  · rw [abs_neg, abs_of_nonneg x.value_nonneg]
  · exact abs_of_nonneg x.value_nonneg

/-- The double nearest to a fraction is what its name says. -/
theorem abs_toRat_ofRat_sub_le_abs {a : ℤ} {b : ℕ} (ha : a ≠ 0) (hb : 0 < b)
    (h : Normal a.natAbs b) (x : Double) :
    |(ofRat (a / b)).toRat - a / b| ≤ |x.toRat - a / b| := by
  have hnatAbs : |(a : ℚ) / b| = (a.natAbs : ℚ) / b := by
    rw [abs_div, Nat.abs_cast, Nat.cast_natAbs, Int.cast_abs]
  have hnearest := abs_value_nearest_sub_le_abs (a < 0) (Int.natAbs_pos.mpr ha) hb h x
  have hown : |(ofRat (a / b)).toRat - a / b|
      = |(ofMagnitude (a < 0) (nearest a.natAbs b)).value - a.natAbs / b| := by
    rw [ofRat_div a hb, toRat_eq, negative_ofMagnitude _ (nearest_lt_signBit _ _), ← hnatAbs]
    by_cases hneg : a < 0
    · have hquotient : (a : ℚ) / b < 0 := by
        have hbQ : (0 : ℚ) < b := mod_cast hb
        exact div_neg_of_neg_of_pos (mod_cast hneg) hbQ
      rw [abs_of_neg hquotient, if_pos (by simpa using hneg), ← abs_neg]
      congr 1
      ring
    · have hquotient : (0 : ℚ) ≤ a / b := div_nonneg (mod_cast not_lt.mp hneg) b.cast_nonneg
      rw [abs_of_nonneg hquotient, if_neg (by simpa using hneg)]
  calc |(ofRat (a / b)).toRat - a / b| ≤ |x.value - a.natAbs / b| := hown ▸ hnearest
    _ = |(|x.toRat|) - (|(a : ℚ) / b|)| := by rw [abs_toRat, hnatAbs]
    _ ≤ |x.toRat - a / b| := abs_abs_sub_abs_le_abs_sub _ _

/-! ### The nearest word -/

/-- A value less than a half from an integer is rounded to it. -/
theorem halfUp_eq {x : Double} {n : ℕ} (h : |x.value - n| < 1 / 2) : x.halfUp = n := by
  have hden : (0 : ℚ) < x.denominator := mod_cast x.denominator_pos
  rw [← numerator_div_denominator, abs_lt] at h
  obtain ⟨low, high⟩ := h
  have hlow : ((n : ℚ) - 1 / 2) * x.denominator < x.numerator := by
    rw [← lt_div_iff₀ hden]
    linarith
  have hhigh : (x.numerator : ℚ) < (n + 1 / 2) * x.denominator := by
    rw [← div_lt_iff₀ hden]
    linarith
  unfold halfUp
  apply Nat.div_eq_of_lt_le
  · have : (n * (2 * x.denominator) : ℚ) < 2 * x.numerator + x.denominator := by linarith
    exact_mod_cast this.le
  · have : (2 * x.numerator + x.denominator : ℚ) < (n + 1) * (2 * x.denominator) := by linarith
    exact_mod_cast this

theorem isNaN_of_isFinite {x : Double} (h : x.isFinite) : x.isNaN = false := by
  unfold isFinite at h
  unfold isNaN
  have := of_decide_eq_true h
  exact decide_eq_false (by omega)

/-- A value less than a half from a signed word is rounded to it. -/
theorem toWord_eq {x : Double} {k : ℤ} (finite : x.isFinite) (sign : x.negative = decide (k < 0))
    (near : |x.value - k.natAbs| < 1 / 2) (low : -2 ^ 63 ≤ k) (high : k < 2 ^ 63) :
    x.toWord = Int64.ofInt k := by
  have hmin : Int64.minValue.toInt = -2 ^ 63 := rfl
  have hmax : Int64.maxValue.toInt = 2 ^ 63 - 1 := rfl
  unfold toWord
  rw [isNaN_of_isFinite finite, finite, halfUp_eq near, sign, hmin, hmax]
  have hsigned : (if decide (k < 0) = true then -(k.natAbs : ℤ) else k.natAbs) = k := by
    split
    next hneg => have := of_decide_eq_true hneg; omega
    next hneg => simp at hneg; omega
  simp only [Bool.false_eq_true, if_false, if_true, hsigned]
  congr 1
  omega

end Double

end Uplink
