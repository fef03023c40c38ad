import Mathlib.Data.List.TakeWhile
import Uplink.Json.Token
/-!
Numerals before whatever ends a value.  A numeral is read the same whether it ends the text or
stands before a comma or a closing bracket, and a written integer is the numeral of that integer.
-/
namespace Uplink

/-- What may follow a value: nothing, or a comma or closing bracket first. -/
def Octets.Closing : Octets → Prop
  | [] => True
  | b :: _ => b = 44 ∨ b = 93 ∨ b = 125

/-- The printed text of a finite double is, to its last octet, a numeral that denotes it. -/
def Double.Faithful (x : Double) : Prop :=
  ∃ finite : x.isFinite = true,
    (Numeral.scan (Octets.ofText x.text)).map (fun (n, rest) => (n.number?, rest)) =
      some (some (.real x finite), [])

instance (x : Double) : Decidable x.Faithful :=
  inferInstanceAs (Decidable (∃ finite : x.isFinite = true,
    (Numeral.scan (Octets.ofText x.text)).map (fun (n, rest) => (n.number?, rest)) =
      some (some (.real x finite), [])))

def Number.doubles : Number → List Double
  | .integer _ _ => []
  | .real x _ => [x]

namespace Numeral

/-! ### Reading before the end of a value -/

section Closing

variable {o r rest : Octets}

theorem digitsOf_append (h : rest.Closing) : digitsOf (o ++ rest) = digitsOf o := by
  have none : rest.takeWhile isDigit = [] := by
    cases rest with
    | nil => rfl
    | cons b _ => obtain rfl | rfl | rfl := h <;> rfl
  rw [digitsOf, digitsOf, List.takeWhile_append, none]
  split <;> rename_i all
  · rw [List.append_nil, (List.takeWhile_prefix _).eq_of_length all]
  · rfl

theorem afterDigits_append (h : rest.Closing) :
    afterDigits (o ++ rest) = afterDigits o ++ rest := by
  have all : rest.dropWhile isDigit = rest := by
    cases rest with
    | nil => rfl
    | cons b _ => obtain rfl | rfl | rfl := h <;> rfl
  rw [afterDigits, afterDigits, List.dropWhile_append, all]
  split <;> rename_i none
  · rw [List.isEmpty_iff.mp none, List.nil_append]
  · rfl

theorem scanFraction_append {f : List Nat} (h : rest.Closing) (hs : scanFraction o = some (f, r)) :
    scanFraction (o ++ rest) = some (f, r ++ rest) := by
  unfold scanFraction at hs
  split at hs
  · rename_i o'
    split at hs
    · cases hs
    · rename_i digit
      cases hs
      rw [List.cons_append, scanFraction, digitsOf_append h, afterDigits_append h, if_neg digit]
  · rename_i noPoint
    cases hs
    match o with
    | b :: o' =>
      rw [List.cons_append, scanFraction]
      intro _ eq
      exact noPoint o' (by rw [(List.cons.inj eq).1])
    | [] =>
      match rest, h with
      | [], _ => rfl
      | b :: _, h => obtain rfl | rfl | rfl := h <;> rfl

theorem scanPowerDigits_append {negative : Bool} {p : Option Int} (h : rest.Closing)
    (hs : scanPowerDigits negative o = some (p, r)) :
    scanPowerDigits negative (o ++ rest) = some (p, r ++ rest) := by
  unfold scanPowerDigits at hs ⊢
  rw [digitsOf_append h, afterDigits_append h]
  split at hs
  · cases hs
  · rename_i digit
    cases hs
    rw [if_neg digit]

theorem scanPower_append {p : Option Int} (h : rest.Closing) (hs : scanPower o = some (p, r)) :
    scanPower (o ++ rest) = some (p, r ++ rest) := by
  unfold scanPower at hs
  split at hs
  · rename_i b o
    split at hs <;> rename_i mark
    · split at hs
      · rw [List.cons_append, List.cons_append, scanPower, if_pos mark]
        exact scanPowerDigits_append h hs
      · rw [List.cons_append, List.cons_append, scanPower, if_pos mark]
        exact scanPowerDigits_append h hs
      · rename_i noPlus noMinus
        match o with
        -- A mark without digits is no power, so what follows cannot be taken for its digits.
        | [] => cases hs
        | c :: o =>
          rw [List.cons_append, List.cons_append, scanPower, if_pos mark, ← List.cons_append]
          · exact scanPowerDigits_append h hs
          · exact fun _ eq => noPlus o (by rw [(List.cons.inj eq).1])
          · exact fun _ eq => noMinus o (by rw [(List.cons.inj eq).1])
    · cases hs
      unfold scanPower
      rw [List.cons_append]
      exact if_neg mark
  · cases hs
    match rest, h with
    | [], _ => rfl
    | b :: _, h => obtain rfl | rfl | rfl := h <;> rfl

theorem scanUnsigned_append {negative : Bool} {n : Numeral} (h : rest.Closing)
    (hs : scanUnsigned negative o = some (n, r)) :
    scanUnsigned negative (o ++ rest) = some (n, r ++ rest) := by
  simp only [scanUnsigned, digitsOf_append h, afterDigits_append h] at hs ⊢
  split at hs <;> rename_i whole
  · cases hs
  · rw [if_neg whole]
    simp only [Option.bind_eq_bind, Option.bind_eq_some_iff, Prod.exists, Option.some.injEq,
      Prod.mk.injEq] at hs
    obtain ⟨f, o₁, hf, p, o₂, hp, rfl, rfl⟩ := hs
    simp [scanFraction_append h hf, scanPower_append h hp]

theorem scan_append {n : Numeral} (h : rest.Closing) (hs : scan o = some (n, r)) :
    scan (o ++ rest) = some (n, r ++ rest) := by
  unfold scan at hs
  split at hs
  · exact scanUnsigned_append h hs
  · rename_i noSign
    match o with
    | [] => cases hs
    | b :: o =>
      rw [List.cons_append, scan]
      · exact scanUnsigned_append h hs
      · intro _ eq
        exact noSign o (by rw [(List.cons.inj eq).1])

end Closing

/-- A numeral begins with its sign or a digit. -/
theorem head_of_scan {b : UInt8} {o r : Octets} {n : Numeral} (h : scan (b :: o) = some (n, r)) :
    b = 45 ∨ isDigit b := by
  unfold scan at h
  split at h
  · rename_i eq
    exact .inl (List.cons.inj eq).1
  · right
    unfold scanUnsigned at h
    simp only [] at h
    split at h <;> rename_i whole
    · cases h
    · by_cases digit : isDigit b
      · exact digit
      · simp [digitsOf, digit] at whole

/-! ### Written integers -/

theorem toNat_digit {d : Nat} (h : d < 10) : (48 + d.toUInt8).toNat = 48 + d := by
  have : d < 256 := by omega
  simp [UInt8.toNat_add, Nat.mod_eq_of_lt this]
  omega

theorem isDigit_digit {d : Nat} (h : d < 10) : isDigit (48 + d.toUInt8) := by
  simp only [isDigit, Bool.and_eq_true, decide_eq_true_eq, UInt8.le_iff_toNat_le, toNat_digit h]
  exact ⟨Nat.le_add_right _ _, by simp; omega⟩

theorem isDigit_of_mem_digits {n : Nat} : ∀ b ∈ Json.digits n, isDigit b := by
  fun_induction Json.digits n with
  | case1 n small => simpa using isDigit_digit small
  | case2 n large ih =>
    intro b hb
    rcases List.mem_append.mp hb with hb | hb
    · exact ih b hb
    · rw [List.mem_singleton.mp hb]
      exact isDigit_digit (Nat.mod_lt _ (by decide))

/-- Whatever holds only digits is read to its end. -/
theorem digitsOf_eq_map {o : Octets} (h : ∀ b ∈ o, isDigit b) :
    digitsOf o = o.map fun b => b.toNat - 48 := by
  rw [digitsOf, List.takeWhile_eq_self_iff.mpr h]

theorem afterDigits_eq_nil {o : Octets} (h : ∀ b ∈ o, isDigit b) : afterDigits o = [] :=
  List.dropWhile_eq_nil_iff.mpr h

theorem natural_append_singleton (ds : List Nat) (d : Nat) :
    natural (ds ++ [d]) = 10 * natural ds + d := by
  simp [natural, List.foldl_append]

theorem natural_digitsOf_digits (n : Nat) : natural (digitsOf (Json.digits n)) = n := by
  rw [digitsOf_eq_map isDigit_of_mem_digits]
  fun_induction Json.digits n with
  | case1 n small => simp [natural, toNat_digit small]
  | case2 n large ih =>
    have last : n % 10 < 10 := Nat.mod_lt _ (by decide)
    rw [List.map_append, List.map_singleton, natural_append_singleton, ih, toNat_digit last]
    omega

/-- Only zero is written with a leading zero. -/
theorem head?_digits {n : Nat} (h : 0 < n) :
    ∃ d, (digitsOf (Json.digits n)).head? = some d ∧ d ≠ 0 := by
  rw [digitsOf_eq_map isDigit_of_mem_digits]
  fun_induction Json.digits n with
  | case1 n small => exact ⟨n, by simp [toNat_digit small], by omega⟩
  | case2 n large ih =>
    obtain ⟨d, hd, nonzero⟩ := ih (by omega)
    exact ⟨d, by rw [List.map_append, List.head?_append, hd]; rfl, nonzero⟩

theorem scanUnsigned_digits (negative : Bool) (n : Nat) :
    scanUnsigned negative (Json.digits n) =
      some (⟨negative, digitsOf (Json.digits n), [], none⟩, []) := by
  have whole : ¬(digitsOf (Json.digits n) = [] || (digitsOf (Json.digits n)).head? = some 0
      && 1 < (digitsOf (Json.digits n)).length) := by
    rcases Nat.eq_zero_or_pos n with rfl | h
    · rw [digitsOf_eq_map isDigit_of_mem_digits, Json.digits]
      decide
    · obtain ⟨d, hd, nonzero⟩ := head?_digits h
      have nonempty : digitsOf (Json.digits n) ≠ [] := by
        intro e
        simp [e] at hd
      simp [hd, nonzero, nonempty]
  simp only [scanUnsigned, if_neg whole, afterDigits_eq_nil isDigit_of_mem_digits]
  rfl

theorem scan_digits (n : Nat) :
    scan (Json.digits n) = some (⟨false, digitsOf (Json.digits n), [], none⟩, []) := by
  rw [scan]
  · exact scanUnsigned_digits false n
  · intro o eq
    exact absurd (isDigit_of_mem_digits 45 (eq ▸ List.mem_cons_self)) (by decide)

theorem integer?_digits (n : Int) :
    integer? ⟨decide (n < 0), digitsOf (Json.digits n.natAbs), [], none⟩ = some n := by
  simp only [integer?, natural_digitsOf_digits, decide_true, Bool.and_self, if_true]
  rcases Int.lt_or_le n 0 with h | h
  · have nonzero : n.natAbs ≠ 0 := by omega
    rw [decide_eq_true h, if_pos rfl, if_neg nonzero, Option.some.injEq]
    omega
  · rw [decide_eq_false (Int.not_lt.mpr h), if_neg Bool.false_ne_true, Option.some.injEq]
    omega

/-- What is written for a number is a numeral that denotes it. -/
theorem scan_writeNumber (n : Number) (faithful : ∀ x ∈ n.doubles, x.Faithful) :
    ∃ m, scan (Json.writeNumber n) = some (m, []) ∧ m.number? = some n := by
  cases n with
  | integer n fits =>
    refine ⟨⟨decide (n < 0), digitsOf (Json.digits n.natAbs), [], none⟩, ?_, ?_⟩
    · rw [Json.writeNumber]
      split <;> rename_i h
      · rw [decide_eq_true h]
        exact scanUnsigned_digits true _
      · rw [decide_eq_false h]
        exact scan_digits _
    · rw [number?, integer?_digits]
      exact dif_pos fits
  | real x finite =>
    obtain ⟨_, read⟩ := faithful x List.mem_cons_self
    obtain ⟨⟨m, rest⟩, hm, eq⟩ := Option.map_eq_some_iff.mp read
    obtain ⟨denotes, rfl⟩ := Prod.mk.inj eq
    exact ⟨m, hm, denotes⟩

end Numeral

namespace Token

/-- No numeral begins like a text or a literal. -/
theorem scan_of_scan_numeral {o r : Octets} {n : Numeral} (h : Numeral.scan o = some (n, r)) :
    scan o = some (.number n.number?, r) := by
  unfold scan
  split
  · exact absurd (Numeral.head_of_scan h) (by decide)
  · exact absurd (Numeral.head_of_scan h) (by decide)
  · exact absurd (Numeral.head_of_scan h) (by decide)
  · exact absurd (Numeral.head_of_scan h) (by decide)
  · rw [h]
    rfl

theorem scan_writeNumber {n : Number} {rest : Octets} (faithful : ∀ x ∈ n.doubles, x.Faithful)
    (h : rest.Closing) : scan (Json.writeNumber n ++ rest) = some (.number (some n), rest) := by
  obtain ⟨m, hm, denotes⟩ := Numeral.scan_writeNumber n faithful
  rw [scan_of_scan_numeral (Numeral.scan_append h hm), denotes]
  rfl

end Token

end Uplink
