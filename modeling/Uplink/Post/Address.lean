/-!
Addresses of hosts as they stand in URLs, and whether a proxy can be named by a text.  A text
without a scheme or a host is read once more as an address of plain HTTP.
-/
namespace Uplink

namespace Address

/-- The text without control characters and spaces at its ends, tabs and line breaks. -/
def cleaned (cs : List Char) : List Char :=
  let isEdge (c : Char) : Bool := c.toNat ≤ 32
  let inner := ((cs.dropWhile isEdge).reverse.dropWhile isEdge).reverse
  inner.filter fun c => c != '\t' && c != '\n' && c != '\r'

/-- The scheme in front of a colon, and what follows. -/
def scheme? (cs : List Char) : Option (List Char × List Char) :=
  let isPart (c : Char) : Bool := c.isAlphanum || c == '+' || c == '-' || c == '.'
  match cs.takeWhile isPart, cs.dropWhile isPart with
  | first :: more, ':' :: rest =>
    if first.isAlpha then some ((first :: more).map Char.toLower, rest) else none
  | _, _ => none

def isSlash (c : Char) : Bool := c == '/' || c == '\\'

def isHex (c : Char) : Bool :=
  c.isDigit || ('a' ≤ c && c ≤ 'f') || ('A' ≤ c && c ≤ 'F')

def hexValue (c : Char) : Nat :=
  if c.isDigit then c.toNat - 48 else (c.toNat - 65) % 32 + 10

def digitsValue (base : Nat) (cs : List Char) : Nat :=
  cs.foldl (fun n c => n * base + hexValue c) 0

/-! ### Numeric hosts -/

/-- A part of a numeric host: decimal, octal after a zero, hexadecimal after "0x". -/
def part? : List Char → Option Nat
  | [] => none
  | '0' :: x :: rest =>
    if x == 'x' || x == 'X' then
      if rest.all isHex then some (digitsValue 16 rest) else none
    else if (x :: rest).all fun c => '0' ≤ c && c ≤ '7' then some (digitsValue 8 (x :: rest))
    else none
  | cs => if cs.all Char.isDigit then some (digitsValue 10 cs) else none

/-- The labels of a host; one dot at its end does not count. -/
def labels (host : List Char) : List (List Char) :=
  let all := host.splitOn '.'
  if all.length > 1 && all.getLast? == some [] then all.dropLast else all

/-- Whether a host ends in a number, and so has to be a numeric address. -/
def endsInNumber (host : List Char) : Bool :=
  match (labels host).getLast? with
  | none => false
  | some l =>
    !l.isEmpty && (l.all Char.isDigit
      || ((l.take 2 == ['0', 'x'] || l.take 2 == ['0', 'X']) && (l.drop 2).all isHex))

/-- At most four parts: the last one fills what the others leave, and those are single octets. -/
def isNumeric (host : List Char) : Bool :=
  match (labels host).mapM part? with
  | none => false
  | some parts =>
    parts.length ≤ 4 && parts.dropLast.all (· ≤ 255)
      && (parts.getLast?.getD 0) < Nat.pow 256 (5 - parts.length)

/-! ### Hosts in brackets -/

/-- Four decimal octets without needless zeros. -/
def isDotted (cs : List Char) : Bool :=
  let parts := cs.splitOn '.'
  parts.length == 4 && parts.all fun p =>
    !p.isEmpty && p.length ≤ 3 && p.all Char.isDigit && (p.length == 1 || p.head? != some '0')
      && digitsValue 10 p ≤ 255

/-- The number of groups that the text between colons makes, where the last one may be dotted and
count twice. -/
def groups? (cs : List Char) (last : Bool) : Option Nat :=
  if cs.isEmpty then some 0
  else
    let parts := cs.splitOn ':'
    let isGroup (p : List Char) : Bool := !p.isEmpty && p.length ≤ 4 && p.all isHex
    if parts.all isGroup then some parts.length
    else if last && parts.dropLast.all isGroup && isDotted (parts.getLast?.getD []) then
      some (parts.length + 1)
    else none

/-- The texts before and after the first double colon. -/
def splitGap : List Char → Option (List Char × List Char)
  | ':' :: ':' :: rest => some ([], rest)
  | c :: rest => (splitGap rest).map fun (a, b) => (c :: a, b)
  | [] => none

/-- Eight groups, or fewer around a double colon. -/
def isGrouped (cs : List Char) : Bool :=
  match splitGap cs with
  | none => groups? cs true == some 8
  | some (a, b) =>
    match groups? a false, groups? b true with
    | some m, some n => m + n ≤ 7
    | _, _ => false

/-! ### Hosts -/

/-- The text with its percent escapes resolved. -/
def unescaped : List Char → List Char
  | '%' :: a :: b :: rest =>
    if isHex a && isHex b then Char.ofNat (digitsValue 16 [a, b]) :: unescaped rest
    else '%' :: unescaped (a :: b :: rest)
  | c :: rest => c :: unescaped rest
  | [] => []

def isForbidden (c : Char) : Bool :=
  c.toNat ≤ 32 || c.toNat == 127 || "#/:<>?@[\\]^|%".toList.contains c

def isHost (cs : List Char) : Bool :=
  match cs with
  | '[' :: rest => rest.getLast? == some ']' && isGrouped rest.dropLast
  | cs =>
    let host := unescaped cs
    !host.isEmpty && !host.any isForbidden && (!endsInNumber host || isNumeric host)

/-- The host and the text after the colon behind it; colons in brackets belong to the host. -/
def splitNumber (cs : List Char) : List Char × List Char :=
  match cs with
  | '[' :: _ =>
    let host := cs.takeWhile (· != ']')
    match cs.dropWhile (· != ']') with
    | _ :: rest =>
      let more := rest.takeWhile (· != ':')
      (host ++ ']' :: more, (rest.dropWhile (· != ':')).drop 1)
    | [] => (host, [])
  | cs => (cs.takeWhile (· != ':'), (cs.dropWhile (· != ':')).drop 1)

/-- What stands behind the last at sign. -/
def afterUser (cs : List Char) : List Char := (cs.reverse.takeWhile (· != '@')).reverse

/-- Whether the text after a scheme names a host, with a number behind it or without. -/
def isAuthority (cs : List Char) : Bool :=
  let authority := (cs.dropWhile isSlash).takeWhile fun c => !isSlash c && c != '?' && c != '#'
  let (host, number) := splitNumber (afterUser authority)
  isHost host && number.all Char.isDigit && digitsValue 10 number ≤ 65535

def isProxy (s : String) : Bool :=
  let plain := isAuthority (cleaned ("//".toList ++ s.toList))
  match scheme? (cleaned s.toList) with
  | none => plain
  | some (scheme, rest) =>
    if scheme == "http".toList || scheme == "https".toList then isAuthority rest
    else
      match rest with
      | '/' :: '/' :: c :: rest =>
        if isSlash c || c == '?' || c == '#' then plain else isAuthority (c :: rest)
      | _ => plain

end Address

end Uplink
