import Uplink.Post.Error
/-!
A receiver that answers by a script, and what becomes of a POST to it.  How a POST ends is settled
when it begins: the answer is known, and it counts when it arrives no later than the deadline.
-/
namespace Uplink

/-- What becomes of a POST on the way to the receiver and back, after a delay in milliseconds: it is
answered, the connection breaks, or whoever carries it crashes. -/
inductive Reply where
  | status (s : Status) (delay : Nat)
  | broken (reason : String) (delay : Nat)
  | hang
  | crash (delay : Nat := 0)
  deriving DecidableEq, Repr

/-- Answers for the URLs that contain a text, in the order they are given; the last one stays. -/
structure Rule where
  pattern : String
  replies : List Reply
  deriving DecidableEq, Repr

namespace Rule

/-- Whether `pattern` stands somewhere in the text. -/
def occurs (pattern : List Char) : List Char → Bool
  | [] => pattern.isEmpty
  | c :: text => pattern.isPrefixOf (c :: text) || occurs pattern text

def applies (r : Rule) (url : String) : Bool := occurs r.pattern.toList url.toList

/-- The next answer, and the rule without it unless it is the last. -/
def answer : Rule → Reply × Rule
  | ⟨pattern, a :: b :: rest⟩ => (a, ⟨pattern, b :: rest⟩)
  | ⟨pattern, [a]⟩ => (a, ⟨pattern, [a]⟩)
  | ⟨pattern, []⟩ => (.status ⟨200⟩ 0, ⟨pattern, []⟩)

end Rule

abbrev Receiver := List Rule

namespace Receiver

/-- The first rule that applies answers; without one every POST is accepted. -/
def answer (url : String) : Receiver → Reply × Receiver
  | [] => (.status ⟨200⟩ 0, [])
  | r :: rest =>
    if r.applies url then
      let (reply, r) := r.answer
      (reply, r :: rest)
    else
      let (reply, rest) := answer url rest
      (reply, r :: rest)

end Receiver

inductive Outcome where
  | accepted
  | failed (e : PostError)
  | crashed
  deriving DecidableEq, Repr

namespace Outcome

def ofStatus (s : Status) : Outcome := if s.isSuccess then .accepted else .failed (.status s)

end Outcome

namespace Reply

/-- When a POST is over, and how, if nobody loses patience with it. -/
def ending? : Reply → Option (Nat × Outcome)
  | .status s delay => some (delay, .ofStatus s)
  | .broken reason delay => some (delay, .failed (.transport reason))
  | .hang => none
  | .crash delay => some (delay, .crashed)

end Reply

/-- A POST begun at some time, which ends at `due` with a known outcome. -/
structure Posting where
  url : String
  begun : Nat
  deadline : Duration
  due : Nat
  outcome : Outcome
  deriving DecidableEq, Repr

namespace Posting

/-- A POST that ends exactly at the deadline is in time. -/
def ofReply (url : String) (now : Nat) (deadline : Duration) (r : Reply) : Posting :=
  match r.ending?.filter (·.1 ≤ deadline.millis) with
  | some (delay, outcome) => ⟨url, now, deadline, now + delay, outcome⟩
  | none => ⟨url, now, deadline, now + deadline.millis, .failed (.timeout deadline)⟩

end Posting

end Uplink
