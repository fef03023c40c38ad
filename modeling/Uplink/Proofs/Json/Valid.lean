import Uplink.Json.Canonical
/-!
Which outlines denote a value: those without a break whose texts are Unicode, whose numbers lie
within the doubles and which nest no deeper than a reader follows.  In an object in which a key
stands more than once, the last value counts.
-/
namespace Uplink

/-- Ascending entries are known by what is found in them. -/
theorem Ascending.ext {α : Type} {a b : List (String × α)} (ha : Ascending a) (hb : Ascending b)
    (same : ∀ k, a.lookup k = b.lookup k) : a = b := by
  -- the first key of one list cannot stand below the first key of the other: it would not be found
  have first {k l : String} {v w : α} {as bs : List (String × α)} (hb : Ascending ((l, w) :: bs))
      (same : ∀ j, ((k, v) :: as).lookup j = ((l, w) :: bs).lookup j) : ¬k < l := by
    intro below
    have absent : ((l, w) :: bs).lookup k = none := by
      refine Dictionary.lookup_eq_none_of_forall_ne fun e he => ?_
      rcases List.mem_cons.mp he with rfl | he
      · exact (Std.ne_of_lt below).symm
      · exact (Std.ne_of_lt (String.lt_trans below ((List.pairwise_cons.mp hb).1 e he))).symm
    have found := same k
    rw [List.lookup_cons_self, absent] at found
    cases found
  induction a generalizing b with
  | nil =>
    cases b with
    | nil => rfl
    | cons e b =>
      have found := same e.1
      rw [List.lookup_cons_self] at found
      cases found
  | cons d a ih =>
    cases b with
    | nil =>
      have found := same d.1
      rw [List.lookup_cons_self] at found
      cases found
    | cons e b =>
      obtain ⟨k, v⟩ := d
      obtain ⟨l, w⟩ := e
      obtain rfl : k = l :=
        String.le_antisymm (String.not_lt.mp (first ha fun j => (same j).symm))
          (String.not_lt.mp (first hb same))
      obtain rfl : v = w := by
        have found := same k
        rwa [List.lookup_cons_self, List.lookup_cons_self, Option.some.injEq] at found
      obtain ⟨newA, ha⟩ := List.pairwise_cons.mp ha
      obtain ⟨newB, hb⟩ := List.pairwise_cons.mp hb
      refine congrArg _ (ih ha hb fun j => ?_)
      have found := same j
      by_cases h : j = k
      · subst h
        rw [Dictionary.lookup_eq_none_of_forall_ne fun e he => (Std.ne_of_lt (newA e he)).symm,
          Dictionary.lookup_eq_none_of_forall_ne fun e he => (Std.ne_of_lt (newB e he)).symm]
      · have other : (j == k) = false := beq_false_of_ne h
        rwa [List.lookup_cons, other, List.lookup_cons, other] at found

theorem Dictionary.ext_get? {α : Type} {a b : Dictionary α} (same : ∀ k, a.get? k = b.get? k) :
    a = b := by
  cases a with
  | mk as ha =>
    cases b with
    | mk bs hb => cases ha.ext hb same; rfl

namespace Outline

mutual

/-- Whether nothing is broken off, every text is Unicode and every number within the doubles. -/
def isValid : Outline → Bool
  | .number n => n.isSome
  | .text s => s.isSome
  | .array items => allValid items
  | .object members => allMembersValid members
  | .broken => false
  | _ => true

def allValid : List Outline → Bool
  | [] => true
  | x :: rest => x.isValid && allValid rest

/-- Keys are texts. -/
def allMembersValid : List (Outline × Outline) → Bool
  | [] => true
  | (.text k, x) :: rest => k.isSome && x.isValid && allMembersValid rest
  | _ :: _ => false

end

mutual

/-- How many arrays and objects are open at once, at most. -/
def nesting : Outline → Nat
  | .array items => itemNesting items + 1
  | .object members => memberNesting members + 1
  | _ => 0

def itemNesting : List Outline → Nat
  | [] => 0
  | x :: rest => max x.nesting (itemNesting rest)

def memberNesting : List (Outline × Outline) → Nat
  | [] => 0
  | (_, x) :: rest => max x.nesting (memberNesting rest)

end

mutual

/-- A value is had exactly from a valid outline that is not too deep. -/
theorem isSome_value? : ∀ (x : Outline) (depth : Nat),
    (x.value? depth).isSome ↔ x.isValid ∧ x.nesting ≤ depth
  | .null, _ => by simp [value?, isValid, nesting]
  | .bool _, _ => by simp [value?, isValid, nesting]
  | .number _, _ => by simp [value?, isValid, nesting]
  | .text _, _ => by simp [value?, isValid, nesting]
  | .broken, _ => by simp [value?, isValid]
  | .array items, 0 => by simp [value?, nesting]
  | .array items, depth + 1 => by
    simp [value?, isValid, nesting, isSome_values? items depth]
  | .object members, 0 => by simp [value?, nesting]
  | .object members, depth + 1 => by
    simp [value?, isValid, nesting, isSome_memberValues? members depth]

theorem isSome_values? : ∀ (items : List Outline) (depth : Nat),
    (values? depth items).isSome ↔ allValid items ∧ itemNesting items ≤ depth
  | [], _ => by simp [values?, allValid, itemNesting]
  | x :: rest, depth => by
    have first := isSome_value? x depth
    have others := isSome_values? rest depth
    simp only [values?, allValid, itemNesting]
    cases hx : x.value? depth <;> cases hr : values? depth rest <;> grind

theorem isSome_memberValues? : ∀ (members : List (Outline × Outline)) (depth : Nat)
    (entries : List (String × Json)), (memberValues? depth entries members).isSome ↔
      allMembersValid members ∧ memberNesting members ≤ depth
  | [], _, _ => by simp [memberValues?, allMembersValid, memberNesting]
  | (.text (some k), x) :: rest, depth, entries => by
    have first := isSome_value? x depth
    have others := isSome_memberValues? rest depth
    simp only [memberValues?, allMembersValid, memberNesting]
    cases hx : x.value? depth <;> grind
  | (.text none, _) :: _, _, _ => by simp [memberValues?, allMembersValid]
  | (.null, _) :: _, _, _ | (.bool _, _) :: _, _, _ | (.number _, _) :: _, _, _
  | (.array _, _) :: _, _, _ | (.object _, _) :: _, _, _ | (.broken, _) :: _, _, _ => by
    simp [memberValues?, allMembersValid]

end

mutual

/-- A value does not depend on how deep the reader could still follow. -/
theorem value?_of_le : ∀ (x : Outline) {v : Json} {depth depth' : Nat}, depth ≤ depth' →
    x.value? depth = some v → x.value? depth' = some v
  | .null, _, _, _, _, h | .bool _, _, _, _, _, h | .number _, _, _, _, _, h
  | .text _, _, _, _, _, h => h
  | .array items, v, depth, depth', le, h => by
    rw [value?] at h ⊢
    split at h <;> rename_i positive
    · cases h
    · obtain ⟨vs, values, rfl⟩ := Option.map_eq_some_iff.mp h
      rw [if_neg (by omega), values?_of_le items (Nat.sub_le_sub_right le 1) values]
      rfl
  | .object members, v, depth, depth', le, h => by
    rw [value?] at h ⊢
    split at h <;> rename_i positive
    · cases h
    · obtain ⟨all, values, rfl⟩ := Option.map_eq_some_iff.mp h
      rw [if_neg (by omega), memberValues?_of_le members (Nat.sub_le_sub_right le 1) values]
      rfl

theorem values?_of_le : ∀ (items : List Outline) {vs : List Json} {depth depth' : Nat},
    depth ≤ depth' → values? depth items = some vs → values? depth' items = some vs
  | [], _, _, _, _, h => h
  | x :: rest, vs, depth, depth', le, h => by
    obtain ⟨v, first, h⟩ := Option.bind_eq_some_iff.mp h
    obtain ⟨others, last, h⟩ := Option.bind_eq_some_iff.mp h
    rw [values?, value?_of_le x le first, values?_of_le rest le last]
    exact h

theorem memberValues?_of_le : ∀ (members : List (Outline × Outline))
    {entries all : List (String × Json)} {depth depth' : Nat}, depth ≤ depth' →
    memberValues? depth entries members = some all →
    memberValues? depth' entries members = some all
  | [], _, _, _, _, _, h => h
  | (.text (some k), x) :: rest, entries, all, depth, depth', le, h => by
    obtain ⟨v, first, h⟩ := Option.bind_eq_some_iff.mp h
    rw [memberValues?, value?_of_le x le first]
    exact memberValues?_of_le rest le h
  | (.text none, _) :: _, _, _, _, _, _, h | (.null, _) :: _, _, _, _, _, _, h
  | (.bool _, _) :: _, _, _, _, _, _, h | (.number _, _) :: _, _, _, _, _, _, h
  | (.array _, _) :: _, _, _, _, _, _, h | (.object _, _) :: _, _, _, _, _, _, h
  | (.broken, _) :: _, _, _, _, _, _, h => nomatch h

end

theorem itemNesting_le {items : List Outline} {depth : Nat} :
    itemNesting items ≤ depth ↔ ∀ x ∈ items, x.nesting ≤ depth := by
  induction items with
  | nil => simp [itemNesting]
  | cons x rest ih => rw [itemNesting, Nat.max_le, ih, List.forall_mem_cons]

theorem allMembersValid_iff {members : List (Outline × Outline)} :
    allMembersValid members ↔ ∀ e ∈ members, (∃ k, e.1 = .text (some k)) ∧ e.2.isValid := by
  induction members with
  | nil => simp [allMembersValid]
  | cons e rest ih =>
    obtain ⟨key, x⟩ := e
    rw [List.forall_mem_cons, ← ih]
    cases key with
    | text k => cases k <;> simp [allMembersValid]
    | _ => simp [allMembersValid]

theorem memberNesting_le {members : List (Outline × Outline)} {depth : Nat} :
    memberNesting members ≤ depth ↔ ∀ e ∈ members, e.2.nesting ≤ depth := by
  induction members with
  | nil => simp [memberNesting]
  | cons e rest ih => rw [memberNesting, Nat.max_le, ih, List.forall_mem_cons]

theorem nesting_array_le {items : List Outline} {depth : Nat} :
    (array items).nesting ≤ depth ↔ 0 < depth ∧ ∀ x ∈ items, x.nesting ≤ depth - 1 := by
  rw [nesting, ← itemNesting_le]
  omega

theorem nesting_object_le {members : List (Outline × Outline)} {depth : Nat} :
    (object members).nesting ≤ depth ↔ 0 < depth ∧ ∀ e ∈ members, e.2.nesting ≤ depth - 1 := by
  rw [nesting, ← memberNesting_le]
  omega

theorem allMembersWhole_iff {members : List (Outline × Outline)} :
    allMembersWhole members ↔ ∀ e ∈ members, e.1.isWhole ∧ e.2.isWhole := by
  induction members with
  | nil => simp [allMembersWhole]
  | cons e rest ih => simp [allMembersWhole, ih]

end Outline

end Uplink
