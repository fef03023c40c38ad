import Uplink.Proofs.Json.Numerals
import Uplink.Proofs.Json.Quoted
/-!
The tokens of a written value, from its first octet to its last.
-/
namespace Uplink

namespace Token

theorem eq_of_isBlank {b : UInt8} (h : isBlank b = true) : b = 32 ∨ b = 10 ∨ b = 13 ∨ b = 9 := by
  simpa [isBlank, or_assoc] using h

/-- Blanks and marks begin neither texts nor literals nor numerals. -/
theorem head_of_scan {b : UInt8} {o r : Octets} {t : Token} (h : scan (b :: o) = some (t, r)) :
    isBlank b = false ∧ mark? b = none := by
  unfold scan at h
  split at h
  iterate 4
    · rename_i eq
      cases eq
      decide
  · obtain ⟨⟨n, r⟩, hn, _⟩ := Option.map_eq_some_iff.mp h
    rcases Numeral.head_of_scan hn with rfl | digit
    · decide
    · constructor
      · by_contra blank
        rcases eq_of_isBlank (Bool.not_eq_false _ ▸ blank) with rfl | rfl | rfl | rfl <;>
          exact absurd digit (by decide)
      · unfold mark?
        split <;> first | rfl | exact absurd digit (by decide)

theorem ofOctets_of_scan {o r : Octets} {t : Token} (h : scan o = some (t, r)) :
    ofOctets o = t :: ofOctets r := by
  cases o with
  | nil => cases h
  | cons b o =>
    obtain ⟨blank, mark⟩ := head_of_scan h
    rw [ofOctets, blank, if_neg Bool.false_ne_true, mark]
    dsimp only
    split
    · rename_i scanned
      cases h.symm.trans scanned
      rfl
    · rename_i unread
      cases h.symm.trans unread

theorem ofOctets_of_mark {b : UInt8} {t : Token} (h : mark? b = some t) (o : Octets) :
    ofOctets (b :: o) = t :: ofOctets o := by
  have blank : isBlank b = false := by
    by_contra blank
    rcases eq_of_isBlank (Bool.not_eq_false _ ▸ blank) with rfl | rfl | rfl | rfl <;> cases h
  rw [ofOctets, blank, if_neg Bool.false_ne_true, h]

end Token

namespace Json

mutual

def doubles : Json → List Double
  | .number n => n.doubles
  | .array items => itemDoubles items
  | .object members => memberDoubles members
  | _ => []

def itemDoubles : List Json → List Double
  | [] => []
  | x :: rest => x.doubles ++ itemDoubles rest

def memberDoubles : List (String × Json) → List Double
  | [] => []
  | (_, v) :: rest => v.doubles ++ memberDoubles rest

end

mutual

/-- The tokens of the compact text of a value. -/
def tokens : Json → List Token
  | .null => [.null]
  | .bool b => [.bool b]
  | .number n => [.number (some n)]
  | .text s => [.text (some s)]
  | .array items => .openArray :: itemTokens items
  | .object members => .openObject :: memberTokens members

def itemTokens : List Json → List Token
  | [] => [.closeArray]
  | x :: rest => x.tokens ++ moreItemTokens rest

def moreItemTokens : List Json → List Token
  | [] => [.closeArray]
  | x :: rest => .comma :: x.tokens ++ moreItemTokens rest

def memberTokens : List (String × Json) → List Token
  | [] => [.closeObject]
  | (k, v) :: rest => .text (some k) :: .colon :: v.tokens ++ moreMemberTokens rest

def moreMemberTokens : List (String × Json) → List Token
  | [] => [.closeObject]
  | (k, v) :: rest => .comma :: .text (some k) :: .colon :: v.tokens ++ moreMemberTokens rest

end

theorem closing_writeMoreItems (items : List Json) (rest : Octets) :
    (writeMoreItems items ++ rest).Closing := by
  cases items with
  | nil => exact .inr (.inl rfl)
  | cons => exact .inl rfl

theorem closing_writeMoreMembers (members : List (String × Json)) (rest : Octets) :
    (writeMoreMembers members ++ rest).Closing := by
  cases members with
  | nil => exact .inr (.inr rfl)
  | cons => exact .inl rfl

open Token (ofOctets ofOctets_of_scan ofOctets_of_mark)

mutual

/-- A written value is read token by token, and what follows it is left as it is. -/
theorem ofOctets_write : ∀ (j : Json) (rest : Octets), (∀ x ∈ j.doubles, x.Faithful) →
    rest.Closing → ofOctets (j.write ++ rest) = j.tokens ++ ofOctets rest
  | .null, rest, _, _ => ofOctets_of_scan rfl
  | .bool true, rest, _, _ => ofOctets_of_scan rfl
  | .bool false, rest, _, _ => ofOctets_of_scan rfl
  | .number n, rest, faithful, h => ofOctets_of_scan (Token.scan_writeNumber faithful h)
  | .text s, rest, _, _ => ofOctets_of_scan (Token.scan_writeText s rest)
  | .array items, rest, faithful, _ => by
    rw [write, List.cons_append, ofOctets_of_mark rfl, ofOctets_writeItems items rest faithful]
    rfl
  | .object members, rest, faithful, _ => by
    rw [write, List.cons_append, ofOctets_of_mark rfl, ofOctets_writeMembers members rest faithful]
    rfl

theorem ofOctets_writeItems : ∀ (items : List Json) (rest : Octets),
    (∀ x ∈ itemDoubles items, x.Faithful) →
    ofOctets (writeItems items ++ rest) = itemTokens items ++ ofOctets rest
  | [], rest, _ => ofOctets_of_mark rfl rest
  | x :: items, rest, faithful => by
    obtain ⟨first, others⟩ := List.forall_mem_append.mp faithful
    rw [writeItems, List.append_assoc,
      ofOctets_write x _ first (closing_writeMoreItems items rest),
      ofOctets_writeMoreItems items rest others, itemTokens, List.append_assoc]

theorem ofOctets_writeMoreItems : ∀ (items : List Json) (rest : Octets),
    (∀ x ∈ itemDoubles items, x.Faithful) →
    ofOctets (writeMoreItems items ++ rest) = moreItemTokens items ++ ofOctets rest
  | [], rest, _ => ofOctets_of_mark rfl rest
  | x :: items, rest, faithful => by
    obtain ⟨first, others⟩ := List.forall_mem_append.mp faithful
    rw [writeMoreItems, List.append_assoc, List.cons_append, ofOctets_of_mark rfl,
      ofOctets_write x _ first (closing_writeMoreItems items rest),
      ofOctets_writeMoreItems items rest others, moreItemTokens, List.append_assoc]
    rfl

theorem ofOctets_writeMembers : ∀ (members : List (String × Json)) (rest : Octets),
    (∀ x ∈ memberDoubles members, x.Faithful) →
    ofOctets (writeMembers members ++ rest) = memberTokens members ++ ofOctets rest
  | [], rest, _ => ofOctets_of_mark rfl rest
  | (k, v) :: members, rest, faithful => by
    obtain ⟨first, others⟩ := List.forall_mem_append.mp faithful
    simp only [writeMembers, memberTokens, List.append_assoc, List.cons_append]
    rw [ofOctets_of_scan (Token.scan_writeText k _), ofOctets_of_mark rfl,
      ofOctets_write v _ first (closing_writeMoreMembers members rest),
      ofOctets_writeMoreMembers members rest others]

theorem ofOctets_writeMoreMembers : ∀ (members : List (String × Json)) (rest : Octets),
    (∀ x ∈ memberDoubles members, x.Faithful) →
    ofOctets (writeMoreMembers members ++ rest) = moreMemberTokens members ++ ofOctets rest
  | [], rest, _ => ofOctets_of_mark rfl rest
  | (k, v) :: members, rest, faithful => by
    obtain ⟨first, others⟩ := List.forall_mem_append.mp faithful
    simp only [writeMoreMembers, moreMemberTokens, List.append_assoc, List.cons_append]
    rw [ofOctets_of_mark rfl, ofOctets_of_scan (Token.scan_writeText k _), ofOctets_of_mark rfl,
      ofOctets_write v _ first (closing_writeMoreMembers members rest),
      ofOctets_writeMoreMembers members rest others]

end

end Json

end Uplink
