import Uplink.Post.Address
import Uplink.Post.Error
import Uplink.Text.Octets
/-!
One POST to a receiver on the network: what the receiver sees of it, and how it ends.
-/
namespace Uplink

/-- What the other side does once it has read a request. -/
inductive Peer where
  | answers (s : Status)
  | closes
  | hangs
  deriving DecidableEq, Repr

structure Request where
  line : String
  contentType : String
  body : Octets
  deriving DecidableEq, Repr

namespace Request

def hexDigits : List Char := "0123456789ABCDEF".toList

def escapedOctet (b : UInt8) : List Char :=
  ['%', hexDigits.getD (b.toNat / 16) '0', hexDigits.getD (b.toNat % 16) '0']

/-- Escapes everything beyond ASCII, control characters, and the characters listed. -/
def escaped (listed : List Char) (cs : List Char) : List Char :=
  cs.flatMap fun c =>
    if c.toNat ≤ 32 || 127 ≤ c.toNat || listed.contains c then
      (Octets.ofText (String.singleton c)).flatMap escapedOctet
    else [c]

/-- The segment in which escaped dots are plain, to tell the dot segments. -/
def dotsOf (segment : List Char) : List Char :=
  match segment.map Char.toLower with
  | ['%', '2', 'e'] => ['.']
  | ['.', '%', '2', 'e'] | ['%', '2', 'e', '.'] | ['%', '2', 'e', '%', '2', 'e'] => ['.', '.']
  | s => s

/-- The segments after those done so far, which are in reverse order.  One dot stays in place and
two go back. -/
def resolved : List (List Char) → List (List Char) → List (List Char)
  | done, [] => done.reverse
  | done, segment :: rest =>
    let isLast := rest.isEmpty
    match dotsOf segment with
    | ['.'] => resolved (if isLast then [] :: done else done) rest
    | ['.', '.'] => resolved (if isLast then [] :: done.drop 1 else done.drop 1) rest
    | _ => resolved (segment :: done) rest

/-- The path and query of a request target. -/
def target (s : String) : String :=
  let cs := (Address.cleaned s.toList).takeWhile (· != '#')
  let path := (cs.takeWhile (· != '?')).map fun c => if c == '\\' then '/' else c
  let segments := resolved [] ((path.drop 1).splitOn '/')
  let shown := segments.flatMap fun segment =>
    '/' :: escaped ['"', '<', '>', '^', '`', Char.ofNat 123, Char.ofNat 125] segment
  match cs.dropWhile (· != '?') with
  | _ :: query => String.ofList (shown ++ '?' :: escaped ['"', '<', '>', '\''] query)
  | [] => String.ofList shown

def ofPath (path : String) (body : Octets) : Request where
  line := "POST " ++ target path ++ " HTTP/1.1"
  contentType := "application/json"
  body := body

end Request

namespace Peer

/-- How a POST that is read ends, where `deadline` is one of the caller, apart from that of the
client.  An informational answer is followed by none, so it is as good as a closed connection. -/
def outcome (peer : Peer) (deadline : Option Duration) : Except PostError Unit :=
  match peer with
  | .answers s =>
    if s.isSuccess then .ok ()
    else if s.code < 200 && s.code ≠ 101 then .error (.transport "connection closed")
    else .error (.status s)
  | .closes => .error (.transport "connection closed")
  | .hangs =>
    match deadline with
    | some d => .error (.timeout d)
    | none => .error (.transport "operation timed out")

/-- One POST: how it ends and what the receiver reads of it, which is nothing when there is no
time for it. -/
def exchange (peer : Peer) (path : String) (body : Octets) (timeout : Duration)
    (deadline : Option Duration) : Except PostError Unit × Option Request :=
  if (deadline.getD timeout).nanos = 0 then (Peer.hangs.outcome deadline, none)
  else (peer.outcome deadline, some (.ofPath path body))

end Peer

end Uplink
