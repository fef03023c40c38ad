import Uplink.Text.Case
/-!
Lower case.  Two characters need more than their own lower-case form: the dotted capital I becomes
two characters, and a capital sigma becomes the final form at the end of a word.
-/
namespace Uplink.Text

/-- The first character that is not passed over has case. -/
def meetsCased : List Char → Bool
  | [] => false
  | c :: rest => if inRanges ignorableRanges c then meetsCased rest else inRanges casedRanges c

def lowerChar (c : Char) : Char :=
  match lowerRuns.find? fun (first, last, step, _) =>
      first ≤ c.toNat && c.toNat ≤ last && (c.toNat - first) % step = 0 with
  | some (_, _, _, distance) => Char.ofNat ((c.toNat : Int) + distance).toNat
  | none => c

/-- Lower case of the characters after `before`, which is held last first. -/
def lowerFrom (before : List Char) : List Char → List Char
  | [] => []
  | c :: rest =>
    let now :=
      if c = '\u0130' then ['i', '\u0307']
      else if c = '\u03a3' then
        [if meetsCased before && !meetsCased rest then '\u03c2' else '\u03c3']
      else [lowerChar c]
    now ++ lowerFrom (c :: before) rest

def lower (s : String) : String := String.ofList (lowerFrom [] s.toList)

end Uplink.Text
