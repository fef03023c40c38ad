import Uplink.Json.Numeral
/-!
The tokens of a JSON text.  A text is cut into tokens as far as it can be; where no token fits,
the last one is a fault.  A text or number whose content cannot be had (an unpaired surrogate,
octets that are not UTF-8, a value beyond the doubles) is still a token, without content.
-/
namespace Uplink

/-- What a quoted text is made of: octets, and the units of `\u` escapes. -/
inductive Piece where
  | octet (b : UInt8)
  | unit (n : Nat)
  deriving DecidableEq, Repr

namespace Piece

def hexValue? (b : UInt8) : Option Nat :=
  if 48 ≤ b && b ≤ 57 then some (b.toNat - 48)
  else if 97 ≤ b && b ≤ 102 then some (b.toNat - 87)
  else if 65 ≤ b && b ≤ 70 then some (b.toNat - 55)
  else none

def unit? (a b c d : UInt8) : Option Nat := do
  let a ← hexValue? a
  let b ← hexValue? b
  let c ← hexValue? c
  let d ← hexValue? d
  some (((a * 16 + b) * 16 + c) * 16 + d)

def escaped? : UInt8 → Option UInt8
  | 34 => some 34
  | 92 => some 92
  | 47 => some 47
  | 98 => some 8
  | 102 => some 12
  | 110 => some 10
  | 114 => some 13
  | 116 => some 9
  | _ => none

/-- The pieces up to the closing quote, and what follows it. -/
def scan : Octets → Option (List Piece × Octets)
  | [] => none
  | 34 :: o => some ([], o)
  | 92 :: 117 :: a :: b :: c :: d :: o => do
    let n ← unit? a b c d
    let (pieces, rest) ← scan o
    some (.unit n :: pieces, rest)
  | 92 :: e :: o => do
    let b ← escaped? e
    let (pieces, rest) ← scan o
    some (.octet b :: pieces, rest)
  | b :: o =>
    if b < 32 || b = 92 then none
    else do
      let (pieces, rest) ← scan o
      some (.octet b :: pieces, rest)

theorem length_scan_le {o r : Octets} {pieces : List Piece} (h : scan o = some (pieces, r)) :
    r.length ≤ o.length := by
  fun_induction scan o generalizing pieces with
  | case1 => simp at h
  | case2 o =>
    simp only [Option.some.injEq, Prod.mk.injEq] at h
    simp [h.2]
  | case3 a b c d o ih =>
    simp only [Option.bind_eq_bind, Option.bind_eq_some_iff, Option.some.injEq, Prod.mk.injEq,
      Prod.exists] at h
    obtain ⟨_, _, _, _, hr, _, rfl⟩ := h
    have := ih hr
    simp only [List.length_cons]
    omega
  | case4 e o _ ih =>
    simp only [Option.bind_eq_bind, Option.bind_eq_some_iff, Option.some.injEq, Prod.mk.injEq,
      Prod.exists] at h
    obtain ⟨_, _, _, _, hr, _, rfl⟩ := h
    have := ih hr
    simp only [List.length_cons]
    omega
  | case5 => simp at h
  | case6 b o _ _ _ _ ih =>
    simp only [Option.bind_eq_bind, Option.bind_eq_some_iff, Option.some.injEq, Prod.mk.injEq,
      Prod.exists] at h
    obtain ⟨_, _, hr, _, rfl⟩ := h
    have := ih hr
    simp only [List.length_cons]
    omega

def isHigh (n : Nat) : Bool := 0xD800 ≤ n && n < 0xDC00

def isLow (n : Nat) : Bool := 0xDC00 ≤ n && n < 0xE000

def encode (n : Nat) : Octets := String.utf8EncodeChar (Char.ofNat n)

/-- A high unit needs a low one right after it, and a low one stands nowhere else. -/
def assemble : List Piece → Option Octets
  | [] => some []
  | .octet b :: rest => (assemble rest).map (b :: ·)
  | .unit n :: .unit m :: rest =>
    if isHigh n then
      if isLow m then
        (assemble rest).map (encode (0x10000 + (n - 0xD800) * 0x400 + (m - 0xDC00)) ++ ·)
      else none
    else if isLow n then none
    else (assemble (.unit m :: rest)).map (encode n ++ ·)
  | .unit n :: rest =>
    if isHigh n || isLow n then none else (assemble rest).map (encode n ++ ·)

def content? (pieces : List Piece) : Option String := (assemble pieces).bind Octets.text?

end Piece

inductive Token where
  | openArray
  | closeArray
  | openObject
  | closeObject
  | comma
  | colon
  | null
  | bool (b : Bool)
  | number (n : Option Number)
  | text (s : Option String)
  | fault
  deriving DecidableEq, Repr

namespace Token

def isBlank (b : UInt8) : Bool := b = 32 || b = 10 || b = 13 || b = 9

def mark? : UInt8 → Option Token
  | 91 => some .openArray
  | 93 => some .closeArray
  | 123 => some .openObject
  | 125 => some .closeObject
  | 44 => some .comma
  | 58 => some .colon
  | _ => none

/-- The text, literal or numeral the octets begin with. -/
def scan : Octets → Option (Token × Octets)
  | 34 :: o => (Piece.scan o).map fun (pieces, r) => (.text (Piece.content? pieces), r)
  | 110 :: 117 :: 108 :: 108 :: o => some (.null, o)
  | 116 :: 114 :: 117 :: 101 :: o => some (.bool true, o)
  | 102 :: 97 :: 108 :: 115 :: 101 :: o => some (.bool false, o)
  | o => (Numeral.scan o).map fun (n, r) => (.number n.number?, r)

theorem length_scan_lt {o r : Octets} {t : Token} (h : scan o = some (t, r)) :
    r.length < o.length := by
  unfold scan at h
  split at h
  · simp only [Option.map_eq_some_iff, Prod.mk.injEq, Prod.exists] at h
    obtain ⟨_, _, hs, _, rfl⟩ := h
    exact Nat.lt_succ_of_le (Piece.length_scan_le hs)
  · simp only [Option.some.injEq, Prod.mk.injEq] at h
    simp only [← h.2, List.length_cons]
    omega
  · simp only [Option.some.injEq, Prod.mk.injEq] at h
    simp only [← h.2, List.length_cons]
    omega
  · simp only [Option.some.injEq, Prod.mk.injEq] at h
    simp only [← h.2, List.length_cons]
    omega
  · simp only [Option.map_eq_some_iff, Prod.mk.injEq, Prod.exists] at h
    obtain ⟨_, _, hs, _, rfl⟩ := h
    exact Numeral.length_scan_lt hs

/-- The tokens of a text up to its first fault. -/
def ofOctets : Octets → List Token
  | [] => []
  | b :: o =>
    if isBlank b then ofOctets o
    else
      match mark? b with
      | some t => t :: ofOctets o
      | none =>
        match _h : scan (b :: o) with
        | some (t, r) => t :: ofOctets r
        | none => [.fault]
termination_by o => o.length
decreasing_by
  · simp
  · simp
  · exact length_scan_lt _h

end Token

end Uplink
