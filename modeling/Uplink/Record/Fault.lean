import Uplink.Json.Outline
import Uplink.Text.Quoted
/-!
What can be wrong with a record text, and the wording of it.
-/
namespace Uplink

/-- What stands in a place where something else is expected. -/
inductive Found where
  | integer (n : Int)
  | real (x : Double)
  | bool (b : Bool)
  | text (s : String)
  | null
  | sequence
  | map
  deriving DecidableEq, Repr

inductive DataFault where
  | missingField (name : String)
  | duplicateField (name : String)
  | unknownVariant (name : String) (known : List String)
  | wrongType (found : Found) (expected : String)
  | outOfRange (n : Int) (expected : String)
  | tooShort (length : Nat) (record : String) (size : Nat)
  | noBody
  deriving DecidableEq, Repr

/-- A text that is no JSON, or JSON of the wrong shape. -/
inductive DecodeError where
  | malformed
  | data (fault : DataFault)
  deriving DecidableEq, Repr

namespace DecodeError

/-- The error where `x` stands in place of what is expected. -/
def wrongType (x : Outline) (expected : String) : DecodeError :=
  match x with
  | .null => .data (.wrongType .null expected)
  | .bool b => .data (.wrongType (.bool b) expected)
  | .number (some (.integer n _)) => .data (.wrongType (.integer n) expected)
  | .number (some (.real r _)) => .data (.wrongType (.real r) expected)
  | .text (some s) => .data (.wrongType (.text s) expected)
  | .array _ => .data (.wrongType .sequence expected)
  | .object _ => .data (.wrongType .map expected)
  | .number none | .text none | .broken => .malformed

end DecodeError

namespace Found

def words : Found → String
  | .integer n => "integer `" ++ toString n ++ "`"
  | .real x => "floating point `" ++ x.text ++ "`"
  | .bool b => "boolean `" ++ (if b then "true" else "false") ++ "`"
  | .text s => "string " ++ Text.quote s
  | .null => "null"
  | .sequence => "sequence"
  | .map => "map"

end Found

namespace DataFault

def quoted (s : String) : String := "`" ++ s ++ "`"

/-- Two names are joined by "or", more are listed. -/
def alternatives : List String → String
  | [] => ""
  | [a] => quoted a
  | [a, b] => quoted a ++ " or " ++ quoted b
  | names => "one of " ++ ", ".intercalate (names.map quoted)

def message : DataFault → String
  | .missingField name => "missing field " ++ quoted name
  | .duplicateField name => "duplicate field " ++ quoted name
  | .unknownVariant name known =>
    "unknown variant " ++ quoted name ++ ", expected " ++ alternatives known
  | .wrongType found expected => "invalid type: " ++ found.words ++ ", expected " ++ expected
  | .outOfRange n expected =>
    "invalid value: integer " ++ quoted (toString n) ++ ", expected " ++ expected
  | .tooShort length record size =>
    "invalid length " ++ toString length ++ ", expected struct " ++ record ++ " with "
      ++ toString size ++ " elements"
  | .noBody => "data did not match any variant of untagged enum RecordBody"

end DataFault

end Uplink
