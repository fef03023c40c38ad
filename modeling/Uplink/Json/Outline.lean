import Uplink.Json.Token
import Uplink.Text.Dictionary
/-!
The outline of a JSON text: its values in text order, and at the first place where no JSON can be
read on, a break that ends everything open.  A reader that follows the outline in order meets the
problems of a text in the order in which the text holds them.
-/
namespace Uplink

/-- Members keep their order and repetitions, and their keys are outlines themselves. -/
inductive Outline where
  | null
  | bool (b : Bool)
  | number (n : Option Number)
  | text (s : Option String)
  | array (items : List Outline)
  | object (members : List (Outline × Outline))
  | broken
  deriving Repr, Inhabited

namespace Outline

/-- A value that is still open, with what it holds so far, the last first. -/
inductive Frame where
  | items (done : List Outline)
  | members (done : List (Outline × Outline)) (key : Outline)

inductive Expected where
  | firstItem
  | item
  | firstKey
  | key
  | colon
  | more
  deriving DecidableEq

/-- Closes every open value around `x`. -/
def enclose (x : Outline) : List Frame → Outline
  | [] => x
  | .items done :: frames => enclose (.array (done.reverse ++ [x])) frames
  | .members done key :: frames => enclose (.object (done.reverse ++ [(key, x)])) frames

/-- The outline when nothing can be read on. -/
def breakOff (expected : Expected) (frames : List Frame) : Outline :=
  match expected, frames with
  | .firstKey, .members done _ :: frames | .key, .members done _ :: frames
  | .more, .members done _ :: frames =>
    enclose (.object (done.reverse ++ [(.broken, .broken)])) frames
  | _, frames => enclose .broken frames

/-- The outline when `key` stands for a key and is no text. -/
def breakAtKey (key : Outline) : List Frame → Outline
  | .members done _ :: frames => enclose (.object (done.reverse ++ [(key, .broken)])) frames
  | frames => enclose .broken frames

/-- The outline of a token that is a value by itself. -/
def ofToken? : Token → Option Outline
  | .null => some .null
  | .bool b => some (.bool b)
  | .number n => some (.number n)
  | .text s => some (.text s)
  | _ => none

/-- A finished value goes into the innermost open one; `none` if there is none. -/
def place? (x : Outline) : List Frame → Option (List Frame)
  | [] => none
  | .items done :: frames => some (.items (x :: done) :: frames)
  | .members done key :: frames => some (.members ((key, x) :: done) .broken :: frames)

/-- The value a closing bracket finishes, and what stays open around it. -/
def close? (t : Token) (expected : Expected) : List Frame → Option (Outline × List Frame)
  | .items done :: frames =>
    if t = .closeArray && (expected = .firstItem || expected = .more) then
      some (.array done.reverse, frames)
    else none
  | .members done _ :: frames =>
    if t = .closeObject && (expected = .firstKey || expected = .more) then
      some (.object done.reverse, frames)
    else none
  | [] => none

/-- Reads one value; the tokens after it are left over. -/
def build : List Token → Expected → List Frame → Outline × List Token
  | [], expected, frames => (breakOff expected frames, [])
  | t :: rest, expected, frames =>
    match close? t expected frames with
    | some (x, frames) =>
      match place? x frames with
      | some frames => build rest .more frames
      | none => (x, rest)
    | none =>
      match expected with
      | .firstItem | .item =>
        match t with
        | .openArray => build rest .firstItem (.items [] :: frames)
        | .openObject => build rest .firstKey (.members [] .broken :: frames)
        | t =>
          match ofToken? t with
          | none => (breakOff expected frames, t :: rest)
          | some x =>
            match place? x frames with
            | some frames => build rest .more frames
            | none => (x, rest)
      | .firstKey | .key =>
        match t, frames with
        | .text s, .members done _ :: frames =>
          build rest .colon (.members done (.text s) :: frames)
        | .openArray, frames => (breakAtKey (.array []) frames, rest)
        | .openObject, frames => (breakAtKey (.object []) frames, rest)
        | t, frames => (breakAtKey ((ofToken? t).getD .broken) frames, rest)
      | .colon =>
        match t with
        | .colon => build rest .item frames
        | _ => (breakOff expected frames, t :: rest)
      | .more =>
        match t, frames with
        | .comma, .items done :: frames => build rest .item (.items done :: frames)
        | .comma, .members done key :: frames => build rest .key (.members done key :: frames)
        | _, frames => (breakOff expected frames, t :: rest)

/-- The outline of a text, and whether anything but blanks follows its value. -/
def ofOctets (o : Octets) : Outline × Bool :=
  let (x, rest) := build (Token.ofOctets o) .item []
  (x, !rest.isEmpty)

mutual

/-- Whether an outline is free of breaks, whatever its texts and numbers hold. -/
def isWhole : Outline → Bool
  | .broken => false
  | .array items => allWhole items
  | .object members => allMembersWhole members
  | _ => true

def allWhole : List Outline → Bool
  | [] => true
  | x :: rest => x.isWhole && allWhole rest

def allMembersWhole : List (Outline × Outline) → Bool
  | [] => true
  | (k, v) :: rest => k.isWhole && v.isWhole && allMembersWhole rest

end

mutual

/-- The value an outline holds, its objects as maps in which the last of equal keys stays; none
if it is broken, lacks content, or opens more than `depth` values inside each other. -/
def value? (depth : Nat) : Outline → Option Json
  | .null => some .null
  | .bool b => some (.bool b)
  | .number n => n.map .number
  | .text s => s.map .text
  | .array items =>
    if depth = 0 then none else (values? (depth - 1) items).map .array
  | .object members =>
    if depth = 0 then none else (memberValues? (depth - 1) [] members).map .object
  | .broken => none

def values? (depth : Nat) : List Outline → Option (List Json)
  | [] => some []
  | x :: rest => do
    let v ← x.value? depth
    let vs ← values? depth rest
    some (v :: vs)

/-- The members added to `entries` in order. -/
def memberValues? (depth : Nat) (entries : List (String × Json)) :
    List (Outline × Outline) → Option (List (String × Json))
  | [] => some entries
  | (k, v) :: rest =>
    match k with
    | .text (some k) => do
      let v ← v.value? depth
      memberValues? depth (putEntry k v entries) rest
    | _ => none

end

/-- Values may be open inside each other this many deep. -/
def maximalDepth : Nat := 127

end Outline

/-- Reads a whole text as one value. -/
def Json.read? (o : Octets) : Option Json :=
  match Outline.ofOctets o with
  | (x, false) => x.value? Outline.maximalDepth
  | (_, true) => none

end Uplink
