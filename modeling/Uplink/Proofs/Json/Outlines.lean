import Uplink.Json.Canonical
import Uplink.Proofs.Json.Tokens
/-!
A written value has one outline, and the outline holds the value.  Values are read through a
stack of open arrays and objects, so each is followed to the place where it goes into the value
around it.
-/
namespace Uplink

namespace Outline

mutual

/-- The outline of the compact text of a value. -/
def ofJson : Json → Outline
  | .null => .null
  | .bool b => .bool b
  | .number n => .number (some n)
  | .text s => .text (some s)
  | .array items => .array (ofItems items)
  | .object members => .object (ofMembers members)

def ofItems : List Json → List Outline
  | [] => []
  | x :: rest => ofJson x :: ofItems rest

def ofMembers : List (String × Json) → List (Outline × Outline)
  | [] => []
  | (k, v) :: rest => (.text (some k), ofJson v) :: ofMembers rest

end

/-- Reading on after a finished value. -/
def resume (x : Outline) (rest : List Token) (frames : List Frame) : Outline × List Token :=
  match place? x frames with
  | some frames => build rest .more frames
  | none => (x, rest)

theorem resume_items (x : Outline) (rest : List Token) (done : List Outline)
    (frames : List Frame) :
    resume x rest (.items done :: frames) = build rest .more (.items (x :: done) :: frames) := rfl

theorem resume_members (x key : Outline) (rest : List Token) (done : List (Outline × Outline))
    (frames : List Frame) :
    resume x rest (.members done key :: frames) =
      build rest .more (.members ((key, x) :: done) .broken :: frames) := rfl

/-! ### One token -/

section Tokens

variable {t : Token} {e : Expected} {frames : List Frame} {rest : List Token}

theorem close?_eq_none (array : t ≠ .closeArray) (object : t ≠ .closeObject) :
    close? t e frames = none := by
  unfold close?
  split <;> simp [array, object]

theorem build_value {x : Outline} (he : e = .firstItem ∨ e = .item) (h : ofToken? t = some x) :
    build (t :: rest) e frames = resume x rest frames := by
  have open' : close? t e frames = none :=
    close?_eq_none (by rintro rfl; cases h) (by rintro rfl; cases h)
  rw [build.eq_def]
  dsimp only
  rw [open']
  rcases he with rfl | rfl <;> cases t <;> cases h <;> rfl

theorem build_openArray (he : e = .firstItem ∨ e = .item) :
    build (.openArray :: rest) e frames = build rest .firstItem (.items [] :: frames) := by
  rw [build.eq_def]
  dsimp only
  rw [close?_eq_none (by decide) (by decide)]
  rcases he with rfl | rfl <;> rfl

theorem build_openObject (he : e = .firstItem ∨ e = .item) :
    build (.openObject :: rest) e frames =
      build rest .firstKey (.members [] .broken :: frames) := by
  rw [build.eq_def]
  dsimp only
  rw [close?_eq_none (by decide) (by decide)]
  rcases he with rfl | rfl <;> rfl

theorem build_closeArray {done : List Outline} (he : e = .firstItem ∨ e = .more) :
    build (.closeArray :: rest) e (.items done :: frames) =
      resume (.array done.reverse) rest frames := by
  rcases he with rfl | rfl <;> rfl

theorem build_closeObject {done : List (Outline × Outline)} {key : Outline}
    (he : e = .firstKey ∨ e = .more) :
    build (.closeObject :: rest) e (.members done key :: frames) =
      resume (.object done.reverse) rest frames := by
  rcases he with rfl | rfl <;> rfl

theorem build_key {s : Option String} {done : List (Outline × Outline)} {key : Outline}
    (he : e = .firstKey ∨ e = .key) :
    build (.text s :: .colon :: rest) e (.members done key :: frames) =
      build rest .item (.members done (.text s) :: frames) := by
  rcases he with rfl | rfl <;> rfl

end Tokens

/-! ### A whole value -/

open Json (itemTokens moreItemTokens memberTokens moreMemberTokens)

mutual

theorem build_tokens : ∀ (j : Json) (e : Expected) (frames : List Frame) (rest : List Token),
    e = .firstItem ∨ e = .item → build (j.tokens ++ rest) e frames = resume (ofJson j) rest frames
  | .null, _, _, _, he => build_value he rfl
  | .bool _, _, _, _, he => build_value he rfl
  | .number _, _, _, _, he => build_value he rfl
  | .text _, _, _, _, he => build_value he rfl
  | .array [], _, _, _, he => (build_openArray he).trans (build_closeArray (.inl rfl))
  | .array (x :: items), e, frames, rest, he => by
    rw [Json.tokens, List.cons_append, build_openArray he, itemTokens, List.append_assoc,
      build_tokens x _ _ _ (.inl rfl), resume_items, build_moreItemTokens items]
    rfl
  | .object [], _, _, _, he => (build_openObject he).trans (build_closeObject (.inl rfl))
  | .object ((k, v) :: members), e, frames, rest, he => by
    rw [Json.tokens, List.cons_append, build_openObject he, memberTokens, List.cons_append,
      List.cons_append, List.cons_append, List.cons_append, build_key (.inl rfl), List.append_assoc,
      build_tokens v _ _ _ (.inr rfl), resume_members, build_moreMemberTokens members]
    rfl

/-- `done` are the items before, the last first. -/
theorem build_moreItemTokens : ∀ (items : List Json) (done : List Outline) (frames : List Frame)
    (rest : List Token), build (moreItemTokens items ++ rest) .more (.items done :: frames) =
      resume (.array (done.reverse ++ ofItems items)) rest frames
  | [], done, frames, rest => by
    rw [ofItems, List.append_nil]
    exact build_closeArray (.inr rfl)
  | x :: items, done, frames, rest => by
    calc build (moreItemTokens (x :: items) ++ rest) .more (.items done :: frames)
        = build (x.tokens ++ (moreItemTokens items ++ rest)) .item (.items done :: frames) := by
          rw [← List.append_assoc]
          rfl
      _ = build (moreItemTokens items ++ rest) .more (.items (ofJson x :: done) :: frames) := by
          rw [build_tokens x _ _ _ (.inr rfl), resume_items]
      _ = resume (.array (done.reverse ++ ofItems (x :: items))) rest frames := by
          rw [build_moreItemTokens items, ofItems, List.reverse_cons, List.append_assoc]
          rfl

theorem build_moreMemberTokens : ∀ (members : List (String × Json))
    (done : List (Outline × Outline)) (key : Outline) (frames : List Frame) (rest : List Token),
    build (moreMemberTokens members ++ rest) .more (.members done key :: frames) =
      resume (.object (done.reverse ++ ofMembers members)) rest frames
  | [], done, key, frames, rest => by
    rw [ofMembers, List.append_nil]
    exact build_closeObject (.inr rfl)
  | (k, v) :: members, done, key, frames, rest => by
    calc build (moreMemberTokens ((k, v) :: members) ++ rest) .more (.members done key :: frames)
        = build (v.tokens ++ (moreMemberTokens members ++ rest)) .item
            (.members done (.text (some k)) :: frames) := by
          rw [← List.append_assoc]
          rfl
      _ = build (moreMemberTokens members ++ rest) .more
            (.members ((.text (some k), ofJson v) :: done) .broken :: frames) := by
          rw [build_tokens v _ _ _ (.inr rfl), resume_members]
      _ = resume (.object (done.reverse ++ ofMembers ((k, v) :: members))) rest frames := by
          rw [build_moreMemberTokens members, ofMembers, List.reverse_cons, List.append_assoc]
          rfl

end

/-- The compact text of a value is read to its end. -/
theorem ofOctets_write (j : Json) (faithful : ∀ x ∈ j.doubles, x.Faithful) :
    ofOctets j.write = (ofJson j, false) := by
  have tokens : Token.ofOctets j.write = j.tokens := by
    have := Json.ofOctets_write j [] faithful trivial
    rwa [List.append_nil, Token.ofOctets, List.append_nil] at this
  have built : build j.tokens .item [] = (ofJson j, []) := by
    have := build_tokens j .item [] [] (.inr rfl)
    rwa [List.append_nil] at this
  rw [ofOctets, tokens, built]
  rfl

end Outline

end Uplink
