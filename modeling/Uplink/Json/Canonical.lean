import Uplink.Json.Outline
/-!
Canonical values, in which every object is a map with its keys in ascending order.  Whatever is
read from a text is canonical.
-/
namespace Uplink

namespace Json

mutual

def Canonical : Json → Prop
  | .array items => AllCanonical items
  | .object members => Ascending members ∧ MembersCanonical members
  | _ => True

def AllCanonical : List Json → Prop
  | [] => True
  | x :: rest => x.Canonical ∧ AllCanonical rest

def MembersCanonical : List (String × Json) → Prop
  | [] => True
  | (_, v) :: rest => v.Canonical ∧ MembersCanonical rest

end

theorem membersCanonical_putEntry {k : String} {v : Json} {entries : List (String × Json)}
    (hv : v.Canonical) (h : MembersCanonical entries) :
    MembersCanonical (putEntry k v entries) := by
  induction entries with
  | nil => simp [putEntry, MembersCanonical, hv]
  | cons head rest ih =>
    obtain ⟨k', v'⟩ := head
    simp only [MembersCanonical] at h
    unfold putEntry
    split
    · simp [MembersCanonical, hv, h]
    · split
      · simp [MembersCanonical, hv, h]
      · simp [MembersCanonical, h, ih h.2]

end Json

namespace Outline

open Json

mutual

theorem canonical_value? : ∀ (x : Outline) (depth : Nat) (v : Json),
    x.value? depth = some v → v.Canonical
  | .null, _, v, h => by simp [value?] at h; subst h; simp [Canonical]
  | .bool _, _, v, h => by simp [value?] at h; subst h; simp [Canonical]
  | .number n, _, v, h => by
    simp only [value?, Option.map_eq_some_iff] at h
    obtain ⟨_, _, rfl⟩ := h
    simp [Canonical]
  | .text s, _, v, h => by
    simp only [value?, Option.map_eq_some_iff] at h
    obtain ⟨_, _, rfl⟩ := h
    simp [Canonical]
  | .array items, depth, v, h => by
    simp only [value?] at h
    split at h
    · simp at h
    · simp only [Option.map_eq_some_iff] at h
      obtain ⟨vs, hvs, rfl⟩ := h
      exact allCanonical_values? items _ vs hvs
  | .object members, depth, v, h => by
    simp only [value?] at h
    split at h
    · simp at h
    · simp only [Option.map_eq_some_iff] at h
      obtain ⟨entries, he, rfl⟩ := h
      exact canonical_memberValues? members _ [] entries he List.Pairwise.nil trivial
  | .broken, _, v, h => by simp [value?] at h

theorem allCanonical_values? : ∀ (items : List Outline) (depth : Nat) (vs : List Json),
    values? depth items = some vs → AllCanonical vs
  | [], _, vs, h => by simp [values?] at h; subst h; simp [AllCanonical]
  | x :: rest, depth, vs, h => by
    simp only [values?, Option.bind_eq_bind, Option.bind_eq_some_iff, Option.some.injEq] at h
    obtain ⟨v, hv, rest', hrest, rfl⟩ := h
    exact ⟨canonical_value? x depth v hv, allCanonical_values? rest depth rest' hrest⟩

theorem canonical_memberValues? : ∀ (members : List (Outline × Outline)) (depth : Nat)
    (entries result : List (String × Json)), memberValues? depth entries members = some result →
    Ascending entries → MembersCanonical entries → Canonical (.object result)
  | [], _, entries, result, h, ha, hc => by
    simp only [memberValues?, Option.some.injEq] at h
    subst h
    exact ⟨ha, hc⟩
  | (k, x) :: rest, depth, entries, result, h, ha, hc => by
    simp only [memberValues?] at h
    split at h
    · simp only [Option.bind_eq_bind, Option.bind_eq_some_iff] at h
      obtain ⟨v, hv, hrest⟩ := h
      exact canonical_memberValues? rest depth _ result hrest (ascending_putEntry _ _ ha)
        (membersCanonical_putEntry (canonical_value? x depth v hv) hc)
    · simp at h

end

end Outline

end Uplink
