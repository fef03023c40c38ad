import Uplink.Json.Canonical
import Uplink.Record.Fault
/-!
The fields of a record: their types, the values these hold, and how a value is written to and
read from JSON.
-/
namespace Uplink

inductive Scalar where
  | text
  | signed
  | unsigned
  deriving DecidableEq, Repr

@[reducible] def Scalar.Value : Scalar → Type
  | .text => String
  | .signed => Int64
  | .unsigned => UInt64

abbrev BodyFields := List (String × Scalar)

@[reducible] def BodyFields.Row : BodyFields → Type
  | [] => Unit
  | (_, s) :: rest => s.Value × BodyFields.Row rest

/-- A map of arbitrary JSON members. -/
structure Freeform where
  members : List (String × Json)
  canonical : (Json.object members).Canonical

/-- The content of a record that is either typed or free. -/
inductive Body (α : Type) where
  | typed (fields : α)
  | freeform (map : Freeform)

namespace Body

def isMap {α : Type} : Body α → Bool
  | .typed _ => false
  | .freeform _ => true

def map {α β : Type} (f : α → β) : Body α → Body β
  | .typed a => .typed (f a)
  | .freeform m => .freeform m

end Body

inductive FieldType where
  | scalar (s : Scalar)
  | choice (names : List String)
  | gauges
  | body (fields : BodyFields)
  deriving DecidableEq, Repr

@[reducible] def FieldType.Value : FieldType → Type
  | .scalar s => s.Value
  | .choice names => Fin names.length
  | .gauges => Dictionary Double
  | .body fields => Body fields.Row

namespace Scalar

def encode : (s : Scalar) → s.Value → Json
  | .text, v => .text v
  | .signed, v => .signed v
  | .unsigned, v => .unsigned v

def signedOf? (n : Int) : Option Int64 :=
  if Int64.minValue.toInt ≤ n ∧ n ≤ Int64.maxValue.toInt then some (Int64.ofInt n) else none

def unsignedOf? (n : Int) : Option UInt64 :=
  if 0 ≤ n ∧ n.toNat < UInt64.size then some (UInt64.ofNat n.toNat) else none

/-- Integers are literals without fraction and power. -/
def decode : (s : Scalar) → Outline → Except DecodeError s.Value
  | .text, .text (some s) => .ok s
  | .signed, .number (some (.integer n _)) =>
    match signedOf? n with
    | some v => .ok v
    | none => .error (.data (.outOfRange n "i64"))
  | .unsigned, .number (some (.integer n _)) =>
    match unsignedOf? n with
    | some v => .ok v
    | none => .error (.data (.outOfRange n "u64"))
  | .text, x => .error (.wrongType x "a string")
  | .signed, x => .error (.wrongType x "i64")
  | .unsigned, x => .error (.wrongType x "u64")

end Scalar

namespace BodyFields

def encode : (fields : BodyFields) → fields.Row → List (String × Json)
  | [], _ => []
  | (name, s) :: rest, (v, row) => (name, s.encode v) :: encode rest row

/-- The items of an array as typed fields, if they are exactly these. -/
def ofItems? : (fields : BodyFields) → List Outline → Option fields.Row
  | [], [] => some ()
  | (_, s) :: fields, x :: items => do
    let v ← (s.decode x).toOption
    let row ← ofItems? fields items
    some (v, row)
  | [], _ :: _ => none
  | _ :: _, [] => none

def valuesAt (name : String) (members : List (Outline × Outline)) : List Outline :=
  members.filterMap fun
    | (.text (some k), v) => if k = name then some v else none
    | _ => none

/-- The members of an object as typed fields, if each field is there once. -/
def ofMembers? : (fields : BodyFields) → List (Outline × Outline) → Option fields.Row
  | [], _ => some ()
  | (name, s) :: fields, members =>
    match valuesAt name members with
    | [x] => do
      let v ← (s.decode x).toOption
      let row ← ofMembers? fields members
      some (v, row)
    | _ => none

def ofOutline? (fields : BodyFields) : Outline → Option fields.Row
  | .array items => ofItems? fields items
  | .object members => ofMembers? fields members
  | _ => none

/-- A body is its typed fields if it can be, otherwise any object. -/
def decode (fields : BodyFields) (depth : Nat) (x : Outline) :
    Except DecodeError (Body fields.Row) :=
  match h : x.value? depth with
  | none => .error .malformed
  | some v =>
    match ofOutline? fields x with
    | some row => .ok (.typed row)
    | none =>
      match v, h with
      | .object members, h => .ok (.freeform ⟨members, Outline.canonical_value? x depth _ h⟩)
      | _, _ => .error (.data .noBody)

end BodyFields

namespace FieldType

def decodeDouble : Outline → Except DecodeError Double
  | .number (some n) => .ok n.toDouble
  | x => .error (.wrongType x "f64")

/-- The last of equal keys stays. -/
def decodeGauges (d : Dictionary Double) :
    List (Outline × Outline) → Except DecodeError (Dictionary Double)
  | [] => .ok d
  | (.text (some k), v) :: rest => do
    let x ← decodeDouble v
    decodeGauges (d.put k x) rest
  | _ :: _ => .error .malformed

def decodeName (names : List String) (name : String) : Except DecodeError (Fin names.length) :=
  match names.finIdxOf? name with
  | some i => .ok i
  | none => .error (.data (.unknownVariant name names))

/-- A choice is a name, or an object with the name as its only key and null as its value. -/
def decodeChoice (names : List String) (depth : Nat) :
    Outline → Except DecodeError (Fin names.length)
  | .text (some name) => decodeName names name
  | .object members =>
    if depth = 0 then .error .malformed
    else
      match members with
      | [] => .error .malformed
      | (.text (some name), v) :: rest => do
        let i ← decodeName names name
        match v with
        | .null => if rest.isEmpty then .ok i else .error .malformed
        | v => .error (.wrongType v "unit")
      | (key, _) :: _ => .error (.wrongType key "variant identifier")
  | _ => .error .malformed

/-- Reads the value of a field; `depth` values may still be opened inside each other. -/
def decode (depth : Nat) : (t : FieldType) → Outline → Except DecodeError t.Value
  | .scalar s, x => s.decode x
  | .choice names, x => decodeChoice names depth x
  | .gauges, .object members =>
    if depth = 0 then .error .malformed else decodeGauges .empty members
  | .gauges, x => .error (.wrongType x "a map")
  | .body fields, x => fields.decode depth x

def encode : (t : FieldType) → t.Value → Json
  | .scalar s, v => s.encode v
  | .choice names, i => .text (names.get i)
  | .gauges, d => .object (d.entries.map fun e => (e.1, .real e.2))
  | .body fields, .typed row => .object (fields.encode row)
  | .body _, .freeform m => .object m.members

end FieldType

structure Field where
  name : String
  type : FieldType
  deriving DecidableEq, Repr

abbrev Fields := List Field

namespace Fields

/-- One value for each field. -/
@[reducible] def Row : Fields → Type
  | [] => Unit
  | f :: rest => f.type.Value × Row rest

/-- The fields met so far. -/
@[reducible] def Slots : Fields → Type
  | [] => Unit
  | f :: rest => Option f.type.Value × Slots rest

def encode : (fields : Fields) → fields.Row → List (String × Json)
  | [], _ => []
  | f :: rest, (v, row) => (f.name, f.type.encode v) :: encode rest row

def vacant : (fields : Fields) → fields.Slots
  | [] => ()
  | _ :: rest => (none, vacant rest)

/-- Fills the slot of the field with this name; none if no field has it. -/
def fill (depth : Nat) (name : String) (x : Outline) :
    (fields : Fields) → fields.Slots → Except DecodeError (Option fields.Slots)
  | [], _ => .ok none
  | f :: fields, (slot, slots) =>
    if f.name = name then
      match slot with
      | some _ => .error (.data (.duplicateField name))
      | none => do
        let v ← f.type.decode depth x
        .ok (some (some v, slots))
    else do
      let filled ← fill depth name x fields slots
      .ok (filled.map fun slots => (slot, slots))

/-- The first field in declaration order that is vacant is missing. -/
def complete : (fields : Fields) → fields.Slots → Except DecodeError fields.Row
  | [], _ => .ok ()
  | f :: fields, (slot, slots) =>
    match slot with
    | none => .error (.data (.missingField f.name))
    | some v => do
      let row ← complete fields slots
      .ok (v, row)

/-- Members with other names are passed over whatever they hold. -/
def decodeMembers (depth : Nat) (fields : Fields) :
    fields.Slots → List (Outline × Outline) → Except DecodeError fields.Slots
  | slots, [] => .ok slots
  | slots, (.text (some name), x) :: rest => do
    match ← fill depth name x fields slots with
    | some slots => decodeMembers depth fields slots rest
    | none => if x.isWhole then decodeMembers depth fields slots rest else .error .malformed
  | _, _ :: _ => .error .malformed

/-- Items are the fields in declaration order; `passed` of them stand before these. -/
def decodeItems (depth : Nat) (record : String) (size passed : Nat) :
    (fields : Fields) → List Outline → Except DecodeError fields.Row
  | [], [] => .ok ()
  | [], _ :: _ => .error .malformed
  | _ :: _, [] => .error (.data (.tooShort passed record size))
  | f :: fields, x :: items => do
    let v ← f.type.decode depth x
    let row ← decodeItems depth record size (passed + 1) fields items
    .ok (v, row)

def decode (record : String) (fields : Fields) : Outline → Except DecodeError fields.Row
  | .object members => do
    let slots ← decodeMembers (Outline.maximalDepth - 1) fields fields.vacant members
    fields.complete slots
  | .array items =>
    decodeItems (Outline.maximalDepth - 1) record fields.length 0 fields items
  | x => .error (.wrongType x ("struct " ++ record))

end Fields

end Uplink
