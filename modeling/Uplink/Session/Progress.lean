import Uplink.Session.Pipeline
/-!
How calls and workers go on.  A call that need not wait is over at once; one that waits leaves a
stage, and is taken up again there when its task can go on.
-/
namespace Uplink

namespace Pipeline

/-! ### The dispatcher -/

def startWorkers (p : Pipeline) (workers capacity : Nat) : Pipeline :=
  if p.dispatcher.isStarted then p
  else
    let dispatcher := p.dispatcher.start workers capacity
    let fresh := (dispatcher.pool.map fun p => List.range p.workers.length).getD []
    { p with dispatcher, ready := p.ready ++ fresh.map .worker }

/-- The submitter of a job learns how its own POST of it ended. -/
def deliver (p : Pipeline) (t : Task) (q : Posting) : Pipeline × CallResult :=
  let p := { p with dispatcher := p.dispatcher.countOutcome q.outcome }.note (.finished t q)
  match q.outcome with
  | .accepted => (p, .pushed (.ok ()))
  | .failed e => (p, .pushed (.error (.fallbackFailed q.url e)))
  | .crashed => (p, .crashed)

/-- Posts a job that the queue did not take. -/
def fallback (p : Pipeline) (t : Task) (j : Job) (deadline : Duration) : Pipeline × Stage :=
  let p := { p with dispatcher := p.dispatcher.countFallback }.note (.diverted t j)
  let (p, q) := p.post t .fallback j.url j.body deadline
  if q.due ≤ p.now then
    let (p, r) := p.deliver t q
    (p, .ended r)
  else (p, .delivering q)

/-- Submits a job: it is queued if there is room and a worker left, and else posted by the task
itself.  The first submission starts the default workers. -/
def submit (p : Pipeline) (t : Task) (j : Job) (deadline : Duration) : Pipeline × Stage :=
  let p := (p.note (.submitted t j)).startWorkers 0 0
  match p.dispatcher.offer j with
  | .ok dispatcher =>
    (({ p with dispatcher }.note (.queued t j)).wakeFirst (dispatcher.line.map .worker),
      .ended (.pushed (.ok ())))
  | .error .full =>
    (p.warn ("Dispatch queue saturated, delivering to " ++ j.url ++ " synchronously")).fallback
      t j deadline
  | .error .closed =>
    (p.complain ("Dispatch queue closed, delivering to " ++ j.url ++ " synchronously")).fallback
      t j deadline

/-! ### The flush -/

/-- A task gives up its turn to flush, or its place in line.  If it had the turn, its report is not
under way any more and the next task in line gets the turn. -/
def leave (p : Pipeline) (t : Task) (e : Event := .yielded t) : Pipeline :=
  let line := p.line.erase t
  if p.line.head? = some t then
    ({ p with line, kpi := p.kpi.abandon }.note e).wakeFirst line
  else { p with line }

/-- A flush is given up wherever it stands, by a task that waits for nothing any more. -/
def withdraw (p : Pipeline) (t : Task) : Pipeline := (p.dropTimers t).leave t (.withdrawn t)

def land (p : Pipeline) (t : Task) (q : Posting) : Pipeline × CallResult :=
  match p.kpi.flight with
  | none => (p.leave t, .flushed .empty)
  | some f =>
    match q.outcome with
    | .accepted =>
      (({ p with kpi := p.kpi.land f }.note (.landed t f)).leave t, .flushed (.sent f.report))
    | .failed e =>
      ((p.complain ("Failed to flush " ++ toString f.report.kpis.size ++ " KPIs to " ++ q.url
        ++ ": " ++ e.message)).leave t, .flushed .failed)
    | .crashed => (p.leave t, .crashed)

/-- A sample of the counters is under way, with a report that the clock was read for. -/
def launch (p : Pipeline) (t : Task) (f : Flight) : Pipeline :=
  let system := p.system.map SystemClock.readForReport
  { p with kpi := p.kpi.depart f, system }.note (.departed t f)

/-- A task has its turn to flush. -/
def depart (p : Pipeline) (t : Task) (url : String) : Pipeline × Stage :=
  match p.kpi.prepare p.identity.neUid p.reportStamp with
  | none => (p.leave t, .ended (.flushed .empty))
  | some f =>
    let (p, q) := (p.launch t f).post t .report url (Record.encode f.report) p.kpi.flushTimeout
    if q.due ≤ p.now then
      let (p, r) := p.land t q
      (p, .ended r)
    else (p, .flushing q)

def flush (p : Pipeline) (t : Task) (url : String) : Pipeline × Stage :=
  let p' := { p with line := p.line ++ [t] }
  if p.line.isEmpty then p'.depart t url else (p', .queueing url)

/-! ### Calls -/

def postResult (q : Posting) : CallResult :=
  match q.outcome with
  | .accepted => .posted (.ok ())
  | .failed e => .posted (.error e)
  | .crashed => .crashed

def begin (p : Pipeline) (t : Task) (c : Call) : Pipeline × Stage :=
  let p := p.note (.called t c)
  match c with
  | .push _ (.error e) _ => (p, .ended (.unreadable e))
  | .push url (.ok r) timeout =>
    let (services, r') := p.services.push (p.stamp r.kind) p.identity.neUid r
    let system := p.system.map (·.readBy r.kind)
    { p with services, system }.submit t ⟨url, r'.encode⟩ (timeout.orDefault Default.pushTimeout)
  | .submit _ none _ => (p, .ended (.pushed (.error .badKey)))
  | .submit url (some body) deadline => p.submit t ⟨url, body⟩ deadline
  | .flush url => p.flush t url
  | .post url body deadline =>
    let (p, q) := p.post t .direct url body deadline
    if q.due ≤ p.now then (p, .ended (postResult q)) else (p, .posting q)

/-- A task takes up its call.  If what it waits for has not come, it goes on waiting. -/
def proceed (p : Pipeline) (t : Task) (stage : Stage) : Pipeline × Stage :=
  match stage with
  | .ended r => (p, .ended r)
  | .delivering q =>
    if q.due ≤ p.now then
      let (p, r) := p.deliver t q
      (p, .ended r)
    else (p, stage)
  | .posting q => if q.due ≤ p.now then (p, .ended (postResult q)) else (p, stage)
  | .queueing url => if p.line.head? = some t then p.depart t url else (p, stage)
  | .flushing q =>
    if q.due ≤ p.now then
      let (p, r) := p.land t q
      (p, .ended r)
    else (p, stage)

/-! ### Workers -/

def failureLine (p : Pipeline) (url : String) (e : PostError) : Event :=
  .logged ⟨p.now, "ERROR Failed to deliver telemetry to " ++ url ++ ": " ++ e.message
    ++ ". Data dropped"⟩

def hookCall (p : Pipeline) (f : DeliveryFailure) : Event :=
  .hooked ⟨p.now, f.url, f.error.message⟩ (p.dispatcher.hookCrashes f)

/-- What the end of a worker's POST leaves in the journal: if it failed, a line, and a call of the
hook if there is one. -/
def outcomeReport (p : Pipeline) (q : Posting) : List Event :=
  match q.outcome with
  | .failed e => p.failureLine q.url e :: ((p.dispatcher.failure? q).map p.hookCall).toList
  | _ => []

def finishJob (p : Pipeline) (w : Nat) (q : Posting) : Pipeline :=
  let dispatcher := p.dispatcher.release w q
  let dropped : List Event :=
    if dispatcher.isClosed then [.dropped p.dispatcher.queued] else []
  { p with dispatcher }.noteAll (.finished (.worker w) q :: (p.outcomeReport q ++ dropped))

/-- An idle worker wants a job, and posts the one it gets.  The next worker in line may then take a
job, and so may this one if its POST is over at once. -/
def seekJob (p : Pipeline) (w : Nat) : Pipeline :=
  if p.dispatcher.worker? w = some .idle then
    match p.dispatcher.seek w with
    | (dispatcher, none) => { p with dispatcher }
    | (dispatcher, some job) =>
      let p := ({ p with dispatcher }.note (.taken w job)).wakeFirst (dispatcher.line.map .worker)
      let (p, q) :=
        p.post (.worker w) .delivery job.url job.body p.dispatcher.workerTimeout
      if q.due ≤ p.now then (p.finishJob w q).resumeFirst (.worker w)
      else { p with dispatcher := p.dispatcher.engage w q }
  else p

def workerTurn (p : Pipeline) (w : Nat) : Pipeline :=
  match p.dispatcher.worker? w with
  | some (.busy q) => if q.due ≤ p.now then (p.finishJob w q).seekJob w else p
  | _ => p.seekJob w

end Pipeline

end Uplink
