import Uplink.Json.Token
/-!
A written text reads back: each octet comes back as one piece, and the pieces spell the text.
-/
namespace Uplink

namespace Piece

open Json

/-- The piece a written octet is read as: controls without a short escape come back as units. -/
def ofOctet (b : UInt8) : Piece :=
  if b < 32 && !(b = 8 || b = 9 || b = 10 || b = 12 || b = 13) then .unit b.toNat else .octet b

theorem unit?_hexDigit {n : Nat} (h : n < 32) :
    unit? 48 48 (hexDigit (n / 16)) (hexDigit (n % 16)) = some n := by
  have all : ∀ m : Fin 32, unit? 48 48 (hexDigit (m / 16)) (hexDigit (m % 16)) = some m.val := by
    decide
  exact all ⟨n, h⟩

theorem scan_short {e b : UInt8} (h : escaped? e = some b) (o : Octets) :
    scan (92 :: e :: o) = (scan o).map fun (pieces, rest) => (.octet b :: pieces, rest) := by
  rw [scan, h]
  · cases scan o <;> rfl
  · rintro _ _ _ _ _ rfl _
    simp [escaped?] at h

theorem scan_plain {b : UInt8} (quote : b ≠ 34) (backslash : b ≠ 92) (h : ¬b < 32) (o : Octets) :
    scan (b :: o) = (scan o).map fun (pieces, rest) => (.octet b :: pieces, rest) := by
  rw [scan, if_neg (by simp [h, backslash])]
  · cases scan o <;> rfl
  · exact quote
  · exact fun _ _ _ _ _ heq _ => backslash heq
  · exact fun _ _ heq _ => backslash heq

theorem scan_writeOctet (b : UInt8) (o : Octets) :
    scan (writeOctet b ++ o) = (scan o).map fun (pieces, rest) => (ofOctet b :: pieces, rest) := by
  unfold writeOctet
  split
  iterate 7 exact scan_short rfl o
  rename_i quote backslash h8 h12 h10 h13 h9
  split <;> rename_i control
  · have hn : b.toNat < 32 := by simpa [UInt8.lt_iff_toNat_lt] using control
    have hb : ofOctet b = .unit b.toNat := by
      simpa [ofOctet, control] using ⟨h8, h9, h10, h12, h13⟩
    simp only [List.cons_append, List.nil_append, scan, unit?_hexDigit hn, hb,
      Option.bind_eq_bind, Option.bind_some]
    cases scan o <;> rfl
  · have hb : ofOctet b = .octet b := by simp [ofOctet, control]
    rw [hb]
    exact scan_plain quote backslash control o

theorem scan_flatMap_writeOctet (bs rest : Octets) :
    scan (bs.flatMap writeOctet ++ 34 :: rest) = some (bs.map ofOctet, rest) := by
  induction bs with
  | nil => rfl
  | cons b bs ih => rw [List.flatMap_cons, List.append_assoc, scan_writeOctet, ih]; rfl

theorem encode_control {n : Nat} (h : n < 32) : encode n = [n.toUInt8] := by
  have all : ∀ m : Fin 32, encode m = [m.val.toUInt8] := by decide
  exact all ⟨n, h⟩

/-- A control is no half of a surrogate pair, so it stands for itself whatever follows. -/
theorem assemble_control {n : Nat} (h : n < 32) (pieces : List Piece) :
    assemble (.unit n :: pieces) = (assemble pieces).map (n.toUInt8 :: ·) := by
  have high : isHigh n = false := by simp [isHigh]; omega
  have low : isLow n = false := by simp [isLow]; omega
  match pieces with
  | [] => simp [assemble, high, low, encode_control h]
  | .octet _ :: _ => simp [assemble, high, low, encode_control h]
  | .unit _ :: _ =>
    rw [assemble, if_neg (by simp [high]), if_neg (by simp [low]), encode_control h]
    rfl

theorem assemble_ofOctet (b : UInt8) (pieces : List Piece) :
    assemble (ofOctet b :: pieces) = (assemble pieces).map (b :: ·) := by
  unfold ofOctet
  split <;> rename_i control
  · have hn : b.toNat < 32 := by
      simp only [Bool.and_eq_true, decide_eq_true_eq, UInt8.lt_iff_toNat_lt] at control
      exact control.1
    simp [assemble_control hn]
  · rw [assemble]

theorem assemble_map_ofOctet (bs : Octets) : assemble (bs.map ofOctet) = some bs := by
  induction bs with
  | nil => rfl
  | cons b bs ih => rw [List.map_cons, assemble_ofOctet, ih]; rfl

end Piece

open Piece Json

/-- The content of a written text, and the octets behind it, whatever they are. -/
theorem Token.scan_writeText (s : String) (rest : Octets) :
    scan (writeText s ++ rest) = some (.text (some s), rest) := by
  have pieces := scan_flatMap_writeOctet (Octets.ofText s) rest
  rw [writeText, List.append_assoc, List.cons_append, List.singleton_append, scan, pieces]
  simp [content?, assemble_map_ofOctet, Octets.text?_ofText]

end Uplink
