import Mathlib.Data.List.DropRight
import Uplink.Text.Blank
/-!
Texts without what stands at their ends.  Dropping characters at the end leaves a beginning of the
text that does not end in one of them, and trimming leaves the only part of a text that has blanks
around it and none at its own ends.
-/
namespace Uplink.Text

variable {p : Char → Bool} {cs mid xs ys : List Char} {c : Char}

theorem dropEnd_eq (p : Char → Bool) (cs : List Char) : dropEnd p cs = cs.rdropWhile p := rfl

/-- What is dropped at the end satisfies the condition. -/
theorem exists_dropEnd (p : Char → Bool) (cs : List Char) :
    ∃ after, cs = dropEnd p cs ++ after ∧ ∀ c ∈ after, p c := by
  refine ⟨(cs.reverse.takeWhile p).reverse, ?_, fun c hc => ?_⟩
  · rw [dropEnd, ← List.reverse_append, List.takeWhile_append_dropWhile, List.reverse_reverse]
  · exact List.mem_takeWhile_imp (List.mem_reverse.mp hc)

theorem getLast?_dropEnd (h : (dropEnd p cs).getLast? = some c) : p c = false := by
  have hne : cs.rdropWhile p ≠ [] := by
    rintro hnil
    simp [dropEnd_eq, hnil] at h
  have hlast := List.rdropWhile_last_not p cs hne
  rw [dropEnd_eq, List.getLast?_eq_some_getLast hne] at h
  rw [← Option.some.inj h]
  exact Bool.eq_false_iff.mpr hlast

theorem dropEnd_append_of_pos (h : ∀ c ∈ ys, p c) : dropEnd p (xs ++ ys) = dropEnd p xs := by
  rw [dropEnd, List.reverse_append,
    List.dropWhile_append_of_pos fun c hc => h c (List.mem_reverse.mp hc), dropEnd]

theorem dropEnd_append_of_exists (h : ∃ c ∈ ys, p c = false) :
    dropEnd p (xs ++ ys) = xs ++ dropEnd p ys := by
  obtain ⟨c, hc, hp⟩ := h
  have hrest : (ys.reverse.dropWhile p).isEmpty = false := by
    rw [← Bool.not_eq_true, List.isEmpty_iff, List.dropWhile_eq_nil_iff]
    intro hall
    exact absurd (hall c (List.mem_reverse.mpr hc)) (by simp [hp])
  rw [dropEnd, List.reverse_append, List.dropWhile_append, hrest, if_neg Bool.false_ne_true,
    List.reverse_append, List.reverse_reverse, dropEnd]

theorem dropEnd_of_getLast? (h : ∀ c ∈ cs.getLast?, p c = false) : dropEnd p cs = cs := by
  rw [dropEnd_eq, List.rdropWhile_eq_self_iff]
  intro hne hp
  have hlast := h _ (List.getLast?_eq_some_getLast hne)
  exact Bool.false_ne_true (hlast.symm.trans hp)

/-- A text has blanks around `mid`, which has none at its own ends. -/
structure Trims (cs mid : List Char) : Prop where
  around : ∃ before after, cs = before ++ (mid ++ after)
    ∧ (∀ c ∈ before, isBlank c) ∧ ∀ c ∈ after, isBlank c
  first : ∀ c ∈ mid.head?, isBlank c = false
  last : ∀ c ∈ mid.getLast?, isBlank c = false

theorem trims_trimChars (cs : List Char) : Trims cs (trimChars cs) := by
  obtain ⟨after, hafter, hblank⟩ := exists_dropEnd isBlank (cs.dropWhile isBlank)
  refine ⟨⟨cs.takeWhile isBlank, after, ?_, fun c => List.mem_takeWhile_imp, hblank⟩,
    fun c hc => ?_, fun c => getLast?_dropEnd⟩
  · rw [trimChars, ← hafter, List.takeWhile_append_dropWhile]
  · have hhead : (cs.dropWhile isBlank).head? = some c := by
      rw [hafter, List.head?_append]
      exact Option.or_eq_some_iff.mpr (.inl hc)
    exact Bool.eq_false_iff.mpr fun hb => by
      have hnot := List.head?_dropWhile_not isBlank cs
      rw [hhead] at hnot
      simp [hb] at hnot

/-- Only one part of a text is left when it is trimmed. -/
theorem Trims.trimChars_eq (h : Trims cs mid) : trimChars cs = mid := by
  obtain ⟨⟨before, after, rfl, hbefore, hafter⟩, hfirst, hlast⟩ := h
  rw [trimChars, List.dropWhile_append_of_pos hbefore]
  cases mid with
  | nil =>
    have hall : after.dropWhile isBlank = [] := List.dropWhile_eq_nil_iff.mpr hafter
    rw [List.nil_append, hall]
    rfl
  | cons c mid =>
    have hc : isBlank c = false := hfirst c rfl
    rw [List.cons_append, List.dropWhile_cons_of_neg (by simp [hc]), ← List.cons_append,
      dropEnd_append_of_pos hafter, dropEnd_of_getLast? hlast]

end Uplink.Text
