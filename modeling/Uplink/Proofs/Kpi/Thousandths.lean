import Uplink.Proofs.Double.Rounding
import Uplink.Proofs.Kpi.Conservation
/-!
Thousandths in a counter.  A counter set to the double nearest to a number of thousandths holds
exactly that number, and reads as that double again.  Of the two roundings on the way, the first is
off by less than a quarter of a thousandth and the second by a quarter at most.
-/
namespace Uplink

namespace Double

variable {x y : Double} {n : ℕ}

theorem times_eq (hx : x.isFinite) (hy : y.isFinite) :
    x.times y = ofMagnitude (x.negative != y.negative)
      (nearest (x.numerator * y.numerator) (x.denominator * y.denominator)) := by
  unfold times
  dsimp only
  rw [isNaN_of_isFinite hx, isNaN_of_isFinite hy, hx, hy]
  rfl

theorem dividedBy_eq (hx : x.isFinite) (hy : y.isFinite) (hzero : y.magnitude ≠ 0) :
    x.dividedBy y = ofMagnitude (x.negative != y.negative)
      (nearest (x.numerator * y.denominator) (x.denominator * y.numerator)) := by
  unfold dividedBy
  dsimp only
  rw [isNaN_of_isFinite hx, isNaN_of_isFinite hy, hx, hy, if_neg hzero]
  rfl

theorem product_eq (x y : Double) :
    ((x.numerator * y.numerator : ℕ) : ℚ) / (x.denominator * y.denominator : ℕ)
      = x.value * y.value := by
  rw [← numerator_div_denominator, ← numerator_div_denominator]
  push_cast
  exact (div_mul_div_comm _ _ _ _).symm

/-- An integer of at most fifty-three digits is a double. -/
theorem value_nearest_one (sign : Bool) (hn : 0 < n) (small : n < 2 ^ 53) :
    (ofMagnitude sign (nearest n 1)).value = n
      ∧ (ofMagnitude sign (nearest n 1)).isFinite := by
  have hlow : 0 ≤ leading n 1 := le_leading hn one_pos (by simpa using Nat.one_le_of_lt hn)
  have hhigh : leading n 1 ≤ 52 := leading_le hn one_pos (by
    rw [Nat.cast_one, div_one]
    exact_mod_cast small)
  have hnormal : Normal n 1 := ⟨by omega, by omega⟩
  refine ⟨?_, isFinite_nearest sign hn one_pos hnormal⟩
  -- it is a multiple of its last digit
  obtain ⟨m, hm⟩ := Int.eq_ofNat_of_zero_le (show 0 ≤ 52 - leading n 1 by omega)
  have hmultiple : ((n * 2 ^ m : ℕ) : ℤ) * (2 : ℚ) ^ (leading n 1 - 52) = n / (1 : ℕ) := by
    rw [show leading n 1 - 52 = -(m : ℤ) by omega, zpow_neg, zpow_natCast]
    push_cast
    field_simp
  have hexact := abs_value_nearest_sub_le_abs_mul sign hn one_pos hnormal (n * 2 ^ m : ℕ)
  rw [hmultiple, sub_self, abs_zero, Nat.cast_one, div_one] at hexact
  exact sub_eq_zero.mp (abs_nonpos_iff.mp hexact)

end Double

namespace Amount

open Double

theorem scale_facts : scale.isFinite ∧ scale.negative = false ∧ scale.magnitude ≠ 0
    ∧ scale.numerator = 1000 * scale.denominator := by
  decide +kernel

theorem value_scale : scale.value = 1000 := by
  have hden : (scale.denominator : ℚ) ≠ 0 := mod_cast scale.denominator_pos.ne'
  rw [← numerator_div_denominator, scale_facts.2.2.2]
  push_cast
  field_simp

/-! ### From the double to the amount -/

section Thousandths

variable {n : ℕ} (hn : 0 < n) (small : n ≤ 2 ^ 51)
include hn small

theorem leading_thousandths : -10 ≤ leading n 1000 ∧ leading n 1000 ≤ 41 := by
  have hone : (1 : ℚ) ≤ n := by exact_mod_cast hn
  have hsmall : (n : ℚ) ≤ 2251799813685248 := by exact_mod_cast small
  constructor
  · apply le_leading hn (by norm_num)
    norm_num
    linarith
  · apply leading_le hn (by norm_num)
    norm_num
    linarith

theorem normal_thousandths : Normal n 1000 := by
  obtain ⟨low, high⟩ := leading_thousandths hn small
  exact ⟨by omega, by omega⟩

/-- The double is off by less than a quarter of a thousandth. -/
theorem abs_nearest_thousandths_sub_le (sign : Bool) :
    |(ofMagnitude sign (nearest n 1000)).value * 1000 - n| ≤ 1000 / 4096 := by
  have herror := abs_value_nearest_sub_le sign hn (by norm_num) (normal_thousandths hn small)
  have hbound : (2 : ℚ) ^ (leading n 1000 - 53) ≤ 2 ^ (-12 : ℤ) :=
    zpow_le_zpow_right₀ one_le_two (by have := (leading_thousandths hn small).2; omega)
  have hscaled : (ofMagnitude sign (nearest n 1000)).value * 1000 - n
      = ((ofMagnitude sign (nearest n 1000)).value - n / (1000 : ℕ)) * 1000 := by
    push_cast
    ring
  rw [hscaled, abs_mul, abs_of_pos (by norm_num : (0 : ℚ) < 1000)]
  norm_num at hbound herror ⊢
  linarith

/-- A thousand times the double, rounded, is less than a half off. -/
theorem times_scale (sign : Bool) :
    let x := (ofMagnitude sign (nearest n 1000)).times scale
    x.isFinite ∧ x.negative = sign ∧ |x.value - n| < 1 / 2 := by
  intro x
  have hone : (1 : ℚ) ≤ n := by exact_mod_cast hn
  have hsmall : (n : ℚ) ≤ 2251799813685248 := by exact_mod_cast small
  have hfirst := abs_nearest_thousandths_sub_le hn small sign
  have hfinite := isFinite_nearest sign hn (by norm_num) (normal_thousandths hn small)
  have hsign := negative_ofMagnitude sign (nearest_lt_signBit n 1000)
  generalize hv : ofMagnitude sign (nearest n 1000) = v at hfirst hfinite hsign
  obtain ⟨hbelow, habove⟩ := abs_le.mp hfirst
  set num := v.numerator * scale.numerator with hnum
  set den := v.denominator * scale.denominator with hden
  have hx : x = ofMagnitude sign (nearest num den) := by
    show (ofMagnitude sign (nearest n 1000)).times scale = _
    rw [hv, times_eq hfinite scale_facts.1, hsign, scale_facts.2.1, Bool.bne_false]
  have hproduct : (num : ℚ) / den = v.value * 1000 := by
    rw [hnum, hden, product_eq, value_scale]
  have hdenPos : 0 < den := Nat.mul_pos v.denominator_pos scale.denominator_pos
  have hnumPos : 0 < num := by
    refine Nat.pos_of_ne_zero fun hzero => ?_
    rw [hzero, Nat.cast_zero, zero_div] at hproduct
    linarith
  have hleast : -1 ≤ leading num den := by
    apply le_leading hnumPos hdenPos
    rw [hproduct]
    norm_num
    linarith
  have hmost : leading num den ≤ 51 := by
    apply leading_le hnumPos hdenPos
    rw [hproduct]
    norm_num
    linarith
  have hnormal : Normal num den := ⟨by omega, by omega⟩
  have hsecond : |x.value - v.value * 1000| ≤ 1 / 4 := by
    have herror := abs_value_nearest_sub_le sign hnumPos hdenPos hnormal
    have hbound : (2 : ℚ) ^ (leading num den - 53) ≤ 2 ^ (-2 : ℤ) :=
      zpow_le_zpow_right₀ one_le_two (by omega)
    rw [← hx, hproduct] at herror
    norm_num at hbound
    linarith
  refine ⟨hx ▸ isFinite_nearest sign hnumPos hdenPos hnormal,
    hx ▸ negative_ofMagnitude sign (nearest_lt_signBit _ _), ?_⟩
  calc |x.value - n| ≤ |x.value - v.value * 1000| + |v.value * 1000 - n| := abs_sub_le _ _ _
    _ < 1 / 2 := by linarith

end Thousandths

theorem ofRat_thousandths (k : ℤ) :
    ofRat (k / 1000) = ofMagnitude (k < 0) (nearest k.natAbs 1000) := by
  exact_mod_cast ofRat_div k (show 0 < 1000 by norm_num)

variable {k : ℤ}

theorem natAbs_le (small : |k| ≤ 2 ^ 51) : k.natAbs ≤ 2 ^ 51 := by
  rw [← Int.natCast_natAbs] at small
  exact_mod_cast small

/-- A number of thousandths comes back from the double nearest to it. -/
theorem signed_ofDouble (small : |k| ≤ 2 ^ 51) : signed (ofDouble (ofRat (k / 1000))) = k := by
  rw [ofRat_thousandths]
  by_cases hk : k = 0
  · subst hk
    decide +kernel
  · obtain ⟨finite, sign, near⟩ := times_scale (Int.natAbs_pos.mpr hk) (natAbs_le small) (k < 0)
    obtain ⟨low, high⟩ := abs_le.mp small
    unfold ofDouble signed
    rw [toWord_eq finite sign near (by omega) (by omega)]
    rw [Int64.toInt64_toUInt64, Int64.toInt_ofInt_of_le (by omega) (by omega)]

/-! ### From the amount to the double -/

/-- A number of thousandths reads as the double nearest to it. -/
theorem toDouble_eq {a : Amount} (ha : a.signed = k) (small : |k| ≤ 2 ^ 51) :
    a.toDouble = ofRat (k / 1000) := by
  unfold toDouble
  rw [show a.toInt64.toInt = k from ha, ofRat_thousandths]
  by_cases hk : k = 0
  · subst hk
    decide +kernel
  · have hpos := Int.natAbs_pos.mpr hk
    have hsmall := natAbs_le small
    obtain ⟨hvalue, hfinite⟩ := value_nearest_one (k < 0) hpos (by omega)
    have hsign := negative_ofMagnitude (k < 0) (nearest_lt_signBit k.natAbs 1)
    obtain ⟨scaleFinite, scaleSign, scaleNonzero, hscale⟩ := scale_facts
    unfold ofInt
    generalize ofMagnitude (k < 0) (nearest k.natAbs 1) = x at hvalue hfinite hsign
    have hx : x.numerator = k.natAbs * x.denominator := by
      have hden : (x.denominator : ℚ) ≠ 0 := mod_cast x.denominator_pos.ne'
      rw [← numerator_div_denominator, div_eq_iff hden] at hvalue
      exact_mod_cast hvalue
    rw [dividedBy_eq hfinite scaleFinite scaleNonzero, hsign, scaleSign, Bool.bne_false]
    congr 1
    apply nearest_congr
    · rw [hscale]
      have := x.denominator_pos
      have := scale.denominator_pos
      positivity
    · norm_num
    · rw [hx, hscale]
      ring

end Amount

/-! ### Steps up and down -/

namespace Counters

theorem amount_apply_of_ne (c : Counters) {x : Change} {k : String} (h : x.key ≠ k) :
    (c.apply x).amount k = c.amount k := by
  cases x with
  | set j a => exact amount_put_of_ne c (Ne.symm h) a
  | add j delta => exact amount_add_of_ne c (Ne.symm h) delta
  | delete j => exact amount_delete_of_ne c (Ne.symm h)

end Counters

theorem Change.increment_eq (k : String) : increment k = .add k 1000 := by
  have h : Amount.ofDouble (.ofInt 1) = 1000 := by decide +kernel
  rw [increment, addOf, h]

theorem Change.decrement_eq (k : String) : decrement k = .add k (-1000) := by
  have h : Amount.ofDouble (.ofInt (-1)) = -1000 := by decide +kernel
  rw [decrement, addOf, h]

namespace Aggregator

variable {key : String} {k : ℤ}

/-- The steps up that were made are in the counter, less the steps down. -/
theorem amount_foldl_count (changes : List Change) (a : Aggregator)
    (only : ∀ c ∈ changes, c.key = key → c = .increment key ∨ c = .decrement key) :
    (changes.foldl count a).counters.amount key
        + changes.count (.decrement key) • (1000 : Amount)
      = a.counters.amount key + changes.count (.increment key) • (1000 : Amount) := by
  have hdiffer : Change.increment key ≠ .decrement key := by
    rw [Change.increment_eq, Change.decrement_eq]
    exact fun h => absurd (Change.add.inj h).2 (by decide)
  induction changes generalizing a with
  | nil => simp
  | cons c changes ih =>
    have hrest := ih (a.count c) fun c' hc' => only c' (List.mem_cons_of_mem _ hc')
    rw [show (a.count c).counters = a.counters.apply c from rfl] at hrest
    by_cases hkey : c.key = key
    · rcases only c List.mem_cons_self hkey with rfl | rfl
      · have happly : (a.counters.apply (.increment key)).amount key
            = a.counters.amount key + 1000 := by
          rw [Change.increment_eq]
          exact Counters.amount_add_self _ _ _
        rw [List.foldl_cons, List.count_cons_self, List.count_cons_of_ne hdiffer, hrest, happly,
          succ_nsmul]
        abel
      · have happly : (a.counters.apply (.decrement key)).amount key
            = a.counters.amount key + -1000 := by
          rw [Change.decrement_eq]
          exact Counters.amount_add_self _ _ _
        rw [List.foldl_cons, List.count_cons_self, List.count_cons_of_ne hdiffer.symm, succ_nsmul,
          ← add_assoc, hrest, happly]
        abel
    · have hother {d : Change} (hd : d.key = key) : c ≠ d := fun h => hkey (h ▸ hd)
      rw [List.foldl_cons, List.count_cons_of_ne (hother rfl), List.count_cons_of_ne (hother rfl),
        hrest, Counters.amount_apply_of_ne _ hkey]

/-- A counter that is set to the double nearest to a number of thousandths holds just that number
and reads as that double, and it does so again after as many steps up as down. -/
theorem thousandths_restored (a : Aggregator) (key : String) {k : ℤ} (small : |k| ≤ 2 ^ 51) :
    let v := Double.ofRat (k / 1000)
    let held := a.count (.setTo key v)
    (∀ x : Double, |v.toRat - k / 1000| ≤ |x.toRat - k / 1000|)
    ∧ (∃ cell, held.counters.cells.get? key = some cell ∧ cell.amount.signed = k)
    ∧ held.counters.value key = v
    ∧ ∀ changes : List Change,
      (∀ c ∈ changes, c.key = key → c = .increment key ∨ c = .decrement key) →
      changes.count (.increment key) = changes.count (.decrement key) →
      (changes.foldl count held).counters.value key = v := by
  intro v held
  have hsigned := Amount.signed_ofDouble small
  have hamount : held.counters.amount key = .ofDouble v := Counters.amount_put_self _ _ _
  refine ⟨?_, ⟨_, Dictionary.get?_put_self _ _ _, hsigned⟩, ?_, fun changes only even => ?_⟩
  · by_cases hk : k = 0
    · subst hk
      have hzero : v = .ofMagnitude false 0 := by
        show Double.ofRat _ = _
        rw [Amount.ofRat_thousandths]
        rfl
      have : (Double.ofMagnitude false 0).toRat = 0 := by decide +kernel
      simp [hzero, this]
    · have hnearest := Double.abs_toRat_ofRat_sub_le_abs hk (show 0 < 1000 by norm_num)
        (Amount.normal_thousandths (Int.natAbs_pos.mpr hk) (Amount.natAbs_le small))
      rwa [Nat.cast_ofNat] at hnearest
  · unfold Counters.value
    rw [hamount, Amount.toDouble_eq hsigned small]
  · have hback := amount_foldl_count changes held only
    rw [even, add_left_inj] at hback
    unfold Counters.value
    rw [hback, hamount, Amount.toDouble_eq hsigned small]

/-- At the least number of thousandths, with a step down, a step up and another counter deleted in
between. -/
theorem thousandths_restored_least :
    |(-2 ^ 51 : ℤ)| ≤ 2 ^ 51
    ∧ let v := Double.ofRat ((-2 ^ 51 : ℤ) / 1000)
      let held := (create {}).count (.setTo "load" v)
      (∃ cell, held.counters.cells.get? "load" = some cell ∧ cell.amount.signed = -2 ^ 51)
      ∧ ([.decrement "load", .delete "calls", .increment "load"].foldl count
          held).counters.value "load" = v := by
  have small : |(-2 ^ 51 : ℤ)| ≤ 2 ^ 51 := by norm_num
  obtain ⟨-, amount, -, restored⟩ := thousandths_restored (create {}) "load" small
  exact ⟨small, amount, restored _ (by decide +kernel) (by decide +kernel)⟩

end Aggregator

end Uplink
