import Uplink.Text.Octets
import Uplink.Post.Receiver
/-!
The queue of jobs and the workers that take them.  Workers stand in line for the next job, and
only the first in line takes one; while it posts it is out of the line.
-/
namespace Uplink

structure Job where
  url : String
  body : Octets
  deriving DecidableEq, Repr

inductive Worker where
  | idle
  | busy (p : Posting)
  | lost
  deriving DecidableEq, Repr

namespace Worker

def isLost : Worker → Bool
  | .lost => true
  | _ => false

end Worker

/-- `line` holds the workers that want a job, by number, the next to take one first. -/
structure Pool where
  capacity : Nat
  workers : List Worker
  jobs : List Job := []
  line : List Nat := []
  deriving DecidableEq, Repr

inductive Refusal where
  | full
  | closed
  deriving DecidableEq, Repr

namespace Pool

def create (workers capacity : Nat) : Pool := { capacity, workers := .replicate workers .idle }

/-- A queue is closed once all workers are lost. -/
def isClosed (p : Pool) : Bool := p.workers.all Worker.isLost

def offer (p : Pool) (j : Job) : Except Refusal Pool :=
  if p.isClosed then .error .closed
  else if p.capacity ≤ p.jobs.length then .error .full
  else .ok { p with jobs := p.jobs ++ [j] }

def join (p : Pool) (w : Nat) : Pool := if w ∈ p.line then p else { p with line := p.line ++ [w] }

/-- Worker `w` stands in line, and if it is the first there and there is a job, it takes the oldest
one and leaves the line. -/
def seek (p : Pool) (w : Nat) : Pool × Option Job :=
  let p := p.join w
  match p.line, p.jobs with
  | first :: line, job :: jobs => if first = w then ({ p with line, jobs }, some job) else (p, none)
  | _, _ => (p, none)

def assign (p : Pool) (w : Nat) (state : Worker) : Pool :=
  { p with workers := p.workers.set w state }

/-- Jobs are gone with the last worker. -/
def lose (p : Pool) (w : Nat) : Pool :=
  let p := p.assign w .lost
  if p.isClosed then { p with jobs := [] } else p

end Pool

end Uplink
