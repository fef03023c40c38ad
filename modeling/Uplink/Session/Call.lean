import Uplink.Kpi.Aggregator
import Uplink.Post.Receiver
import Uplink.Record.Report
/-!
Calls on the pipeline: who makes them, what is asked for, how far it has come, and what it comes
to.
-/
namespace Uplink

/-- Tasks by number.  The operator is whoever performs the operations of the session. -/
inductive Task where
  | operator
  | caller (id : Nat)
  | worker (id : Nat)
  | flusher (id : Nat)
  | generator
  deriving DecidableEq, Repr

/-- `push` takes a record that may have been unreadable, and `submit` a body, or none for a payload
that cannot be serialized.  A flush sends the counters to a URL, and `post` bypasses the queue. -/
inductive Call where
  | push (url : String) (record : Except DecodeError Report) (timeout : Duration)
  | submit (url : String) (body : Option Octets) (deadline : Duration)
  | flush (url : String)
  | post (url : String) (body : Octets) (deadline : Duration)

inductive FlushOutcome where
  | empty
  | sent (report : KpiReport)
  | failed
  deriving DecidableEq, Repr

inductive CallResult where
  | pushed (r : Except DispatchError Unit)
  | unreadable (e : DecodeError)
  | flushed (o : FlushOutcome)
  | posted (r : Except PostError Unit)
  | crashed

/-- Where a call stands: it is over, or it waits for a POST or for its turn to flush. -/
inductive Stage where
  | ended (r : CallResult)
  | delivering (p : Posting)
  | posting (p : Posting)
  | queueing (url : String)
  | flushing (p : Posting)

def Stage.flushes : Stage → Bool
  | .queueing _ | .flushing _ => true
  | _ => false

end Uplink
