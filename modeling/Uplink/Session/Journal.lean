import Uplink.Dispatch.Pool
import Uplink.Identity
import Uplink.Session.Call
/-!
The journal of a session: what it was asked to do, what it did inside and what it did to the
outside, event by event.  The POSTs it began, the calls of the failure hook and the lines it logged
are shown on request, each of them once.
-/
namespace Uplink

structure PostEntry where
  time : Nat
  url : String
  body : Octets
  deadline : Duration
  deriving DecidableEq, Repr

structure HookEntry where
  time : Nat
  url : String
  error : String
  deriving DecidableEq, Repr

/-- The text of a line begins with its level. -/
structure LogEntry where
  time : Nat
  text : String
  deriving DecidableEq, Repr

/-- What a POST is for: a job that a worker took, a job that its submitter posts instead, a report
of the counters, or nothing but itself. -/
inductive Aim where
  | delivery
  | fallback
  | report
  | direct
  deriving DecidableEq, Repr

/-- A job that is submitted is queued, or else diverted: its submitter posts it.  A worker takes a
queued job; the jobs still queued when the last worker is lost are dropped.  A delivery is finished
when the POST of a job is over, whoever made it.  A sample of the counters departs with a POST, and
lands if that is accepted; in any case its task yields the turn to flush in the end, unless the
flush is withdrawn before. -/
inductive Event where
  | called (t : Task) (c : Call)
  | submitted (t : Task) (j : Job)
  | queued (t : Task) (j : Job)
  | diverted (t : Task) (j : Job)
  | taken (w : Nat) (j : Job)
  | finished (t : Task) (p : Posting)
  | dropped (jobs : List Job)
  | counted (c : Change)
  | departed (t : Task) (f : Flight)
  | landed (t : Task) (f : Flight)
  | yielded (t : Task)
  | withdrawn (t : Task)
  | clockMoved (now : Int64)
  | identified (i : Identity)
  | adjusted (k : Kind) (n : Int)
  | posted (t : Task) (aim : Aim) (e : PostEntry)
  | hooked (e : HookEntry) (crashed : Bool)
  | logged (e : LogEntry)

namespace Event

def post? : Event → Option PostEntry
  | posted _ _ e => some e
  | _ => none

def hook? : Event → Option HookEntry
  | hooked e _ => some e
  | _ => none

def log? : Event → Option LogEntry
  | logged e => some e
  | _ => none

end Event

/-- Events newest first, and how many entries of each kind were shown. -/
structure Journal where
  events : List Event := []
  shownPosts : Nat := 0
  shownHooks : Nat := 0
  shownLogs : Nat := 0

namespace Journal

def add (j : Journal) (e : Event) : Journal := { j with events := e :: j.events }

/-- Events oldest first. -/
def addAll (j : Journal) (es : List Event) : Journal := { j with events := es.reverse ++ j.events }

def posts (j : Journal) : List PostEntry := j.events.filterMap Event.post?

def hooks (j : Journal) : List HookEntry := j.events.filterMap Event.hook?

def logs (j : Journal) : List LogEntry := j.events.filterMap Event.log?

/-- Of entries newest first, those that were not shown, oldest first. -/
def fresh {α : Type} (entries : List α) (shown : Nat) : List α :=
  (entries.take (entries.length - shown)).reverse

def showPosts (j : Journal) : Journal := { j with shownPosts := j.posts.length }

def showHooks (j : Journal) : Journal := { j with shownHooks := j.hooks.length }

def showLogs (j : Journal) : Journal := { j with shownLogs := j.logs.length }

/-- Whether an entry is not after another by time and texts. -/
def inOrder (time time' : Nat) (texts texts' : List String) : Bool :=
  time < time' || (time == time' && !decide (texts' < texts))

/-- The POSTs by time and URL; those equal in both are in the order they began. -/
def sortedPosts (j : Journal) : List PostEntry :=
  (fresh j.posts j.shownPosts).mergeSort fun a b => inOrder a.time b.time [a.url] [b.url]

def sortedHooks (j : Journal) : List HookEntry :=
  (fresh j.hooks j.shownHooks).mergeSort fun a b =>
    inOrder a.time b.time [a.url, a.error] [b.url, b.error]

def sortedLogs (j : Journal) : List LogEntry :=
  (fresh j.logs j.shownLogs).mergeSort fun a b => inOrder a.time b.time [a.text] [b.text]

end Journal

end Uplink
