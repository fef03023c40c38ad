import Uplink.Dispatch.Pool
import Uplink.Settings
/-!
The dispatcher: a pool of workers that is started once, and totals of what became of the jobs.
-/
namespace Uplink

/-- `fallback` counts the jobs that were posted by their submitter.  All counts are taken to stay
below 2 ^ 64, where words would start again from zero. -/
structure Totals where
  queued : Nat := 0
  fallback : Nat := 0
  delivered : Nat := 0
  failed : Nat := 0
  deriving DecidableEq, Repr

namespace Totals

def text (t : Totals) : String :=
  "DispatcherStats \x7b queued: " ++ toString t.queued ++ ", fallback: " ++ toString t.fallback
    ++ ", delivered: " ++ toString t.delivered ++ ", failed: " ++ toString t.failed ++ " \x7d"

end Totals

/-- `told` holds the failures that the hook was told of, the last first. -/
structure Dispatcher where
  workerTimeout : Duration := Default.workerTimeout
  hook : Option Hook := none
  told : List DeliveryFailure := []
  pool : Option Pool := none
  totals : Totals := {}

namespace Dispatcher

def create (s : DispatchSettings) : Dispatcher where
  workerTimeout := s.workerTimeout.orDefault Default.workerTimeout
  hook := s.hook

def isStarted (d : Dispatcher) : Bool := d.pool.isSome

/-- Only the first start counts; zeros ask for the defaults. -/
def start (d : Dispatcher) (workers capacity : Nat) : Dispatcher :=
  match d.pool with
  | some _ => d
  | none =>
    { d with
      pool := some (.create (if workers = 0 then Default.workers else workers)
        (if capacity = 0 then Default.queueCapacity else capacity)) }

/-- Queues a job.  Nothing is queued before the start. -/
def offer (d : Dispatcher) (j : Job) : Except Refusal Dispatcher :=
  match d.pool with
  | none => .error .closed
  | some p =>
    (p.offer j).map fun p =>
      { d with pool := some p, totals := { d.totals with queued := d.totals.queued + 1 } }

/-- A job that was not queued is posted by its submitter. -/
def countFallback (d : Dispatcher) : Dispatcher :=
  { d with totals := { d.totals with fallback := d.totals.fallback + 1 } }

/-- Counts the end of a POST; one that crashed counts nothing. -/
def countOutcome (d : Dispatcher) : Outcome → Dispatcher
  | .accepted => { d with totals := { d.totals with delivered := d.totals.delivered + 1 } }
  | .failed _ => { d with totals := { d.totals with failed := d.totals.failed + 1 } }
  | .crashed => d

def updatePool (d : Dispatcher) (f : Pool → Pool) : Dispatcher := { d with pool := d.pool.map f }

/-- The workers that want a job, the next to take one first. -/
def line (d : Dispatcher) : List Nat := (d.pool.map Pool.line).getD []

def queued (d : Dispatcher) : List Job := (d.pool.map Pool.jobs).getD []

def isClosed (d : Dispatcher) : Bool := d.pool.any Pool.isClosed

def worker? (d : Dispatcher) (w : Nat) : Option Worker := d.pool.bind fun p => p.workers[w]?

/-- Worker `w` wants a job and takes one if it can. -/
def seek (d : Dispatcher) (w : Nat) : Dispatcher × Option Job :=
  match d.pool with
  | none => (d, none)
  | some p =>
    let (p, job) := p.seek w
    ({ d with pool := some p }, job)

/-- Worker `w` posts the job it took. -/
def engage (d : Dispatcher) (w : Nat) (p : Posting) : Dispatcher :=
  d.updatePool (·.assign w (.busy p))

/-- What the end of a worker's POST has the hook be told. -/
def failure? (d : Dispatcher) (q : Posting) : Option DeliveryFailure :=
  match d.hook, q.outcome with
  | some _, .failed e => some ⟨q.url, e⟩
  | _, _ => none

def hookCrashes (d : Dispatcher) (f : DeliveryFailure) : Bool := d.hook.any (·.crashesOn d.told f)

/-- Whether the end of a POST takes its worker with it: when the POST crashed, or the hook that is
told of its failure. -/
def losesWorker (d : Dispatcher) (q : Posting) : Bool :=
  q.outcome = .crashed || (d.failure? q).any d.hookCrashes

def release (d : Dispatcher) (w : Nat) (q : Posting) : Dispatcher :=
  let after := { d.countOutcome q.outcome with told := (d.failure? q).toList ++ d.told }
  if d.losesWorker q then after.updatePool (·.lose w) else after.updatePool (·.assign w .idle)

def text (d : Dispatcher) : String :=
  "Dispatcher \x7b initialized: " ++ (if d.isStarted then "true" else "false")
    ++ ", worker_timeout: " ++ d.workerTimeout.text ++ ", stats: " ++ d.totals.text ++ ", .. \x7d"

end Dispatcher

end Uplink
