import Uplink.Proofs.Json.Outlines
/-!
How deep values are open inside each other, and that a canonical value comes back from its outline
as long as it nests no deeper than a reader follows.
-/
namespace Uplink

namespace Json

mutual

def nesting : Json → Nat
  | .array items => itemNesting items + 1
  | .object members => memberNesting members + 1
  | _ => 0

def itemNesting : List Json → Nat
  | [] => 0
  | x :: rest => max x.nesting (itemNesting rest)

def memberNesting : List (String × Json) → Nat
  | [] => 0
  | (_, v) :: rest => max v.nesting (memberNesting rest)

end

end Json

namespace Outline

open Json

mutual

/-- A canonical value is what its outline holds. -/
theorem value?_ofJson : ∀ (j : Json) (depth : Nat), j.Canonical → j.nesting ≤ depth →
    (ofJson j).value? depth = some j
  | .null, _, _, _ => rfl
  | .bool _, _, _, _ => rfl
  | .number _, _, _, _ => rfl
  | .text _, _, _, _ => rfl
  | .array items, 0, _, h => absurd h (Nat.not_succ_le_zero _)
  | .array items, depth + 1, canonical, h => by
    rw [ofJson, value?, if_neg (Nat.succ_ne_zero depth), Nat.add_sub_cancel,
      values?_ofItems items depth canonical (Nat.le_of_succ_le_succ h)]
    rfl
  | .object members, 0, _, h => absurd h (Nat.not_succ_le_zero _)
  | .object members, depth + 1, canonical, h => by
    rw [ofJson, value?, if_neg (Nat.succ_ne_zero depth), Nat.add_sub_cancel,
      memberValues?_ofMembers members depth [] canonical.1 canonical.2
        (Nat.le_of_succ_le_succ h)]
    rfl

theorem values?_ofItems : ∀ (items : List Json) (depth : Nat), AllCanonical items →
    itemNesting items ≤ depth → values? depth (ofItems items) = some items
  | [], _, _, _ => rfl
  | x :: items, depth, canonical, h => by
    obtain ⟨first, others⟩ := Nat.max_le.mp h
    rw [ofItems, values?, value?_ofJson x depth canonical.1 first,
      values?_ofItems items depth canonical.2 others]
    rfl

/-- Members in ascending order go one after another to the end of the map read so far. -/
theorem memberValues?_ofMembers : ∀ (members : List (String × Json)) (depth : Nat)
    (entries : List (String × Json)), Ascending (entries ++ members) → MembersCanonical members →
    memberNesting members ≤ depth →
    memberValues? depth entries (ofMembers members) = some (entries ++ members)
  | [], _, entries, _, _, _ => by rw [ofMembers, memberValues?, List.append_nil]
  | (k, v) :: members, depth, entries, ascending, canonical, h => by
    obtain ⟨first, others⟩ := Nat.max_le.mp h
    have below : ∀ e ∈ entries, e.1 < k := fun e he =>
      (List.pairwise_append.mp ascending).2.2 e he (k, v) List.mem_cons_self
    rw [List.append_cons] at ascending ⊢
    rw [ofMembers, memberValues?, value?_ofJson v depth canonical.1 first, Option.bind_eq_bind,
      Option.bind_some, putEntry_eq_append below,
      memberValues?_ofMembers members depth _ ascending canonical.2 others]

end

end Outline

/-- Every canonical value of doubles that read back, nested no deeper than a reader follows, is
read back from its compact text. -/
theorem Json.read?_write (j : Json) (faithful : ∀ x ∈ j.doubles, x.Faithful)
    (canonical : j.Canonical) (nesting : j.nesting ≤ Outline.maximalDepth) :
    Json.read? j.write = some j := by
  rw [Json.read?, Outline.ofOctets_write j faithful]
  exact Outline.value?_ofJson j _ canonical nesting

end Uplink
