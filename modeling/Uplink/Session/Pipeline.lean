import Uplink.Dispatch.Dispatcher
import Uplink.Identity
import Uplink.Service
import Uplink.Session.Journal
import Uplink.Time.Clock
/-!
The pipeline: what the tasks of a session share, and the receiver it reports to.  One task runs at
a time, until it has to wait; the tasks that can go on stand in a queue.  Time is a number of
milliseconds and moves only when no task can go on.
-/
namespace Uplink

/-- `system` stamps the records, or else `clock` does.  `line` holds the tasks that flush: the first
one has its turn, the others wait for theirs.  `ready` holds the tasks that can go on, and `timers`
the times at which others can. -/
structure Pipeline where
  now : Nat := 0
  receiver : Receiver := []
  journal : Journal := {}
  identity : Identity := {}
  clock : Clock := {}
  system : Option SystemClock := none
  dispatcher : Dispatcher := {}
  services : Services
  kpi : Aggregator
  line : List Task := []
  ready : List Task := []
  timers : List (Nat × Task) := []

namespace Pipeline

/-- The time that stamps the next record of a kind. -/
def stamp (p : Pipeline) (k : Kind) : Int64 :=
  (p.system.map fun c => c.services k 0).getD p.clock.now

/-- The time that stamps the next report of the counters. -/
def reportStamp (p : Pipeline) : Int64 := (p.system.map fun c => c.aggregator 0).getD p.clock.now

def note (p : Pipeline) (e : Event) : Pipeline := { p with journal := p.journal.add e }

def noteAll (p : Pipeline) (es : List Event) : Pipeline :=
  { p with journal := p.journal.addAll es }

def warn (p : Pipeline) (text : String) : Pipeline := p.note (.logged ⟨p.now, "WARN " ++ text⟩)

def complain (p : Pipeline) (text : String) : Pipeline :=
  p.note (.logged ⟨p.now, "ERROR " ++ text⟩)

/-- A task can go on, after those that already can. -/
def wake (p : Pipeline) (t : Task) : Pipeline :=
  { p with ready := if t ∈ p.ready then p.ready else p.ready ++ [t] }

def wakeFirst (p : Pipeline) (line : List Task) : Pipeline :=
  { p with ready := (line.head?.map fun t => (p.wake t).ready).getD p.ready }

/-- A task goes on before all others. -/
def resumeFirst (p : Pipeline) (t : Task) : Pipeline := { p with ready := t :: p.ready }

def setTimer (p : Pipeline) (due : Nat) (t : Task) : Pipeline :=
  { p with timers := p.timers ++ [(due, t)] }

def dropTimers (p : Pipeline) (t : Task) : Pipeline :=
  { p with timers := p.timers.filter (·.2 ≠ t) }

/-- Begins a POST on behalf of a task, which waits for its end unless it ends at once. -/
def post (p : Pipeline) (t : Task) (aim : Aim) (url : String) (body : Octets)
    (deadline : Duration) : Pipeline × Posting :=
  let (reply, receiver) := p.receiver.answer url
  let q := Posting.ofReply url p.now deadline reply
  let timers := if q.due ≤ p.now then p.timers else p.timers ++ [(q.due, t)]
  ({ p with receiver, timers }.note (.posted t aim ⟨p.now, url, body, deadline⟩), q)

def count (p : Pipeline) (c : Change) : Pipeline :=
  { p with kpi := p.kpi.count c }.note (.counted c)

/-- Time moves on to `now`, and the tasks whose timers are due can go on: the operator first, and
the others in the order the timers were set. -/
def moveTo (p : Pipeline) (now : Nat) : Pipeline :=
  let due := (p.timers.filter (·.1 ≤ now)).map Prod.snd
  (due.filter (· = .operator) ++ due.filter (· ≠ .operator)).foldl wake
    { p with now := max p.now now, timers := p.timers.filter (now < ·.1) }

end Pipeline

end Uplink
