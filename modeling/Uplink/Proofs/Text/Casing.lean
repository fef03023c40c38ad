import Mathlib.Tactic.Common
import Uplink.Text.LowerCase
/-!
Lower case of plain words.  A text has a word of plain ASCII letters for its lower case exactly if
its own ASCII letters in lower case make that word: no other character becomes a plain letter.  The
letter k is not plain, for it is also what the Kelvin sign becomes.
-/
namespace Uplink.Text

/-- A small ASCII letter that only its own capital becomes. -/
def Plain (c : Char) : Prop := 97 ≤ c.toNat ∧ c.toNat ≤ 122 ∧ c.toNat ≠ 107

instance (c : Char) : Decidable (Plain c) :=
  inferInstanceAs (Decidable (97 ≤ c.toNat ∧ c.toNat ≤ 122 ∧ c.toNat ≠ 107))

variable {c x : Char}

/-! ### One character -/

/-- Of all runs but the first none leads to small ASCII letters, except for one character that leads
to k. -/
theorem lowerRuns_apart : ∀ run ∈ lowerRuns.tail,
    122 < run.1 + run.2.2.2 ∨ run.2.1 + run.2.2.2 < 97
      ∨ run.1 + run.2.2.2 = 107 ∧ run.2.1 = run.1 := by
  decide +kernel

theorem lowerChar_capital : ∀ n : Nat, n < 26 →
    lowerChar (Char.ofNat (65 + n)) = Char.ofNat (97 + n) := by
  decide +kernel

theorem lowerChar_small : ∀ n : Nat, n < 26 →
    lowerChar (Char.ofNat (97 + n)) = Char.ofNat (97 + n) := by
  decide +kernel

theorem toLower_capital : ∀ n : Nat, n < 26 →
    (Char.ofNat (65 + n)).toLower = Char.ofNat (97 + n) := by
  decide +kernel

theorem toLower_of_not_capital (h : ¬(65 ≤ c.toNat ∧ c.toNat ≤ 90)) : c.toLower = c := by
  unfold Char.toLower
  split
  next hc => exact absurd ⟨UInt32.le_iff_toNat_le.mp hc.1, UInt32.le_iff_toNat_le.mp hc.2⟩ h
  next => rfl

theorem ofNat_offset {n : Nat} (h : n ≤ c.toNat) : Char.ofNat (n + (c.toNat - n)) = c := by
  rw [Nat.add_sub_of_le h, Char.ofNat_toNat]

/-- A number that is no character stands for the null character. -/
theorem toNat_of_ofNat_eq {n : Nat} (h : Char.ofNat n = c) (hc : c.toNat ≠ 0) : c.toNat = n := by
  by_cases valid : n.isValidChar
  · have hn : Char.ofNat n = Char.ofNatAux n valid := dif_pos valid
    rw [← h, hn]
    rfl
  · have hn : Char.ofNat n = Char.ofNat 0 := dif_neg valid
    exact absurd (by rw [← h, hn]; rfl) hc

/-- Both ways to lower case agree on what becomes a plain letter. -/
theorem lowerChar_eq_iff (hx : Plain x) : lowerChar c = x ↔ c.toLower = x := by
  obtain ⟨hfirst, hlast, hk⟩ := hx
  by_cases capital : 65 ≤ c.toNat ∧ c.toNat ≤ 90
  · have hn : c.toNat - 65 < 26 := by omega
    rw [← ofNat_offset capital.1, lowerChar_capital _ hn, toLower_capital _ hn]
  · rw [toLower_of_not_capital capital]
    constructor
    · unfold lowerChar
      split
      next run first last step distance hfind =>
        intro h
        have hmem := List.mem_of_find?_eq_some hfind
        have hrange := List.find?_some hfind
        simp only [Bool.and_eq_true, decide_eq_true_eq] at hrange
        have hto := toNat_of_ofNat_eq h (by omega)
        rcases List.mem_cons.mp (show _ ∈ _ :: lowerRuns.tail from hmem) with heq | htail
        · cases heq
          exact absurd hrange.1 capital
        · have hapart := lowerRuns_apart _ htail
          dsimp only at hapart
          omega
      next => exact id
    · rintro rfl
      have hn : c.toNat - 97 < 26 := by omega
      have hsmall := lowerChar_small _ hn
      rwa [ofNat_offset hfirst] at hsmall

/-! ### A text -/

theorem lowerFrom_eq_iff {w : List Char} (hw : ∀ x ∈ w, Plain x) (before cs : List Char) :
    lowerFrom before cs = w ↔ cs.map Char.toLower = w := by
  induction cs generalizing before w with
  | nil => exact Iff.rfl
  | cons c cs ih =>
    unfold lowerFrom
    cases w with
    | nil =>
      refine iff_of_false ?_ (by simp)
      dsimp only
      split
      · simp
      · split <;> simp
    | cons x w =>
      obtain ⟨hx, hw⟩ := List.forall_mem_cons.mp hw
      rw [List.map_cons, List.cons.injEq]
      dsimp only
      split
      next hc =>
        -- the mark above the i is no letter
        refine iff_of_false (fun h => ?_) (fun h => ?_)
        · have hmark : '\u0307' ∈ w := by
            rw [List.cons_append, List.cons.injEq] at h
            simp [← h.2]
          exact absurd (hw _ hmark) (by decide)
        · rw [hc] at h
          exact absurd (h.1 ▸ hx) (by decide)
      next =>
        split
        next hc =>
          refine iff_of_false (fun h => ?_) (fun h => ?_)
          · rw [List.singleton_append, List.cons.injEq] at h
            have hsigma := h.1
            split at hsigma
            · exact absurd (hsigma ▸ hx) (by decide)
            · exact absurd (hsigma ▸ hx) (by decide)
          · rw [hc] at h
            exact absurd (h.1 ▸ hx) (by decide)
        next =>
          rw [List.singleton_append, List.cons.injEq, lowerChar_eq_iff hx, ih hw]

/-- A text has a plain word for its lower case exactly if it is that word up to the case of its
ASCII letters. -/
theorem lower_eq_iff {w : String} (hw : ∀ x ∈ w.toList, Plain x) (s : String) :
    lower s = w ↔ s.toList.map Char.toLower = w.toList := by
  rw [← lowerFrom_eq_iff hw [], lower]
  exact ⟨fun h => by rw [← h, String.toList_ofList], fun h => by rw [h, String.ofList_toList]⟩

end Uplink.Text
