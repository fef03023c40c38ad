import Uplink.Session.Progress
import Mathlib.Logic.Function.Basic
/-!
Steps of the pipeline: all that ever happens to it.  A task that runs takes it from step to step,
with something in hand in between; what every step keeps, every session keeps.
-/
namespace Uplink

/-- A task has a call in hand that has to wait, or nothing. -/
inductive Hand where
  | free
  | waiting (s : Stage)

namespace Stage

def ofFlush : Stage → Bool
  | .ended _ | .queueing _ | .flushing _ => true
  | _ => false

end Stage

namespace Hand

/-- A call that is over leaves nothing in hand. -/
def ofStage : Stage → Hand
  | .ended _ => free
  | s => waiting s

/-- Whether a task with this in hand waits for the POST of a report. -/
def isFlushing : Hand → Bool
  | waiting (.flushing _) => true
  | _ => false

/-- Whether a task with this in hand stands in the line of those that flush. -/
def flushes : Hand → Bool
  | waiting (.queueing _) => true
  | h => h.isFlushing

/-- Whether a task with this in hand waits for its own POST of a job. -/
def delivers : Hand → Bool
  | waiting (.delivering _) => true
  | _ => false

end Hand

namespace Call

def submits : Call → Bool
  | push _ (.ok _) _ => true
  | submit _ (some _) _ => true
  | _ => false

end Call

namespace Pipeline

/-- A task submits a job with a call, and the workers are started if they were not. -/
inductive Submits (t : Task) (p : Pipeline) : Call → Job → Duration → Pipeline → Prop
  | submit (url : String) (body : Octets) (deadline : Duration) :
    Submits t p (.submit url (some body) deadline) ⟨url, body⟩ deadline
      (((p.note (.called t (.submit url (some body) deadline))).note
        (.submitted t ⟨url, body⟩)).startWorkers 0 0)
  | push {services r'} (url : String) (r : Report) (timeout : Duration)
    (hr : p.services.push (p.stamp r.kind) p.identity.neUid r = (services, r')) :
    Submits t p (.push url (.ok r) timeout) ⟨url, r'.encode⟩
      (timeout.orDefault Default.pushTimeout)
      (({ p.note (.called t (.push url (.ok r) timeout)) with
          services, system := p.system.map (SystemClock.readBy · r.kind) }.note
        (.submitted t ⟨url, r'.encode⟩)).startWorkers 0 0)

/-- A step of the pipeline on behalf of a task, from what the task has in hand to what it has in
hand afterwards.  A flush is given up only where `quits` says so. -/
inductive Step (quits : Prop) : Task → Pipeline → Hand → Pipeline → Hand → Prop
  | log {t p h} (l : LogEntry) : Step quits t p h (p.note (.logged l)) h
  | start {t p h} (workers capacity : Nat) : Step quits t p h (p.startWorkers workers capacity) h
  | count {t p h} (c : Change) : Step quits t p h (p.count c) h
  /- Calls, and jobs on their way into the queue or to their submitter's own POST. -/
  | call {t p} (c : Call) (hc : c.submits = false) :
    Step quits t p .free (p.note (.called t c)) .free
  | queue {t p c j deadline p₁ d} (hs : Submits t p c j deadline p₁)
    (hd : p₁.dispatcher.offer j = .ok d) :
    Step quits t p .free
      (({ p₁ with dispatcher := d }.note (.queued t j)).wakeFirst (d.line.map .worker)) .free
  | divert {t p c j deadline p₁ refusal l p' q} (hs : Submits t p c j deadline p₁)
    (hd : p₁.dispatcher.offer j = .error refusal)
    (hq : ({ p₁.note (.logged l) with dispatcher := p₁.dispatcher.countFallback }.note
      (.diverted t j)).post t .fallback j.url j.body deadline = (p', q)) :
    Step quits t p .free p' (.waiting (.delivering q))
  | deliver {t p q} (due : q.due ≤ p.now) :
    Step quits t p (.waiting (.delivering q)) (p.deliver t q).1 .free
  | direct {t p p' q} (url : String) (body : Octets) (deadline : Duration)
    (hq : p.post t .direct url body deadline = (p', q)) :
    Step quits t p .free p' (.waiting (.posting q))
  | answered {t p q} (due : q.due ≤ p.now) : Step quits t p (.waiting (.posting q)) p .free
  /- Workers. -/
  | seek {w p d} (idle : p.dispatcher.worker? w = some .idle)
    (hd : p.dispatcher.seek w = (d, none)) :
    Step quits (.worker w) p .free { p with dispatcher := d } .free
  | take {w p d j p' q} (idle : p.dispatcher.worker? w = some .idle)
    (hd : p.dispatcher.seek w = (d, some j))
    (hq : (({ p with dispatcher := d }.note (.taken w j)).wakeFirst (d.line.map .worker)).post
      (.worker w) .delivery j.url j.body d.workerTimeout = (p', q)) :
    Step quits (.worker w) p .free { p' with dispatcher := d.engage w q } .free
  | finish {w p q} (busy : p.dispatcher.worker? w = some (.busy q)) (due : q.due ≤ p.now) :
    Step quits (.worker w) p .free (p.finishJob w q) .free
  /- Flushes. -/
  | join {t p} (url : String) :
    Step quits t p .free { p with line := p.line ++ [t] } (.waiting (.queueing url))
  | skip {t p url} (turn : p.line.head? = some t)
    (hf : p.kpi.prepare p.identity.neUid p.reportStamp = none) :
    Step quits t p (.waiting (.queueing url)) (p.leave t) .free
  | depart {t p url f p' q} (turn : p.line.head? = some t)
    (hf : p.kpi.prepare p.identity.neUid p.reportStamp = some f)
    (hq : (p.launch t f).post t .report url (Record.encode f.report) p.kpi.flushTimeout = (p', q)) :
    Step quits t p (.waiting (.queueing url)) p' (.waiting (.flushing q))
  | land {t p f q} (due : q.due ≤ p.now) (hf : p.kpi.flight = some f)
    (accepted : q.outcome = .accepted) :
    Step quits t p (.waiting (.flushing q))
      (({ p with kpi := p.kpi.land f }.note (.landed t f)).leave t) .free
  | fail {t p q} (due : q.due ≤ p.now) (hf : p.kpi.flight = none ∨ q.outcome ≠ .accepted) :
    Step quits t p (.waiting (.flushing q)) (p.leave t) .free
  | withdraw {t p h} (hh : h = .free ∨ h.flushes) (hq : quits) :
    Step quits t p h (p.withdraw t) .free
  /- Waits that are no calls. -/
  | setTimer {t p} (due : Nat) (later : 0 < p.kpi.granularity.nanos → p.now < due) :
    Step quits t p .free (p.setTimer due t) .free
  | dropTimers {t p} : Step quits t p .free (p.dropTimers t) .free
  | resume {t p} : Step quits t p .free (p.resumeFirst t) .free
  /- The operator. -/
  | wake {p h} (t : Task) : Step quits .operator p h (p.wake t) h
  | shown {p} (j : Journal) (hj : j.events = p.journal.events) :
    Step quits .operator p .free { p with journal := j } .free
  | moveClock {p} (clock : Clock) :
    Step quits .operator p .free ({ p with clock }.note (.clockMoved clock.now)) .free
  | identify {p} (identity : Identity) :
    Step quits .operator p .free ({ p with identity }.note (.identified identity)) .free
  | adjust {p} (k : Kind) (n : Int) :
    Step quits .operator p .free
      ({ p with services := p.services.update (·.adjust n) k }.note (.adjusted k n)) .free
  | adjustReports {p} (n : Int) :
    Step quits .operator p .free { p with kpi := { p.kpi with history := p.kpi.history.adjust n } }
      .free

inductive Steps (quits : Prop) (t : Task) : Pipeline → Hand → Pipeline → Hand → Prop
  | refl (p : Pipeline) (h : Hand) : Steps quits t p h p h
  | tail {p h p' h' p'' h''} (hs : Steps quits t p h p' h') (hl : Step quits t p' h' p'' h'') :
    Steps quits t p h p'' h''

variable {quits : Prop} {t : Task} {p p' p'' : Pipeline} {h h' h'' : Hand}

theorem Step.steps (hs : Step quits t p h p' h') : Steps quits t p h p' h' :=
  (Steps.refl p h).tail hs

theorem Steps.trans (hs : Steps quits t p h p' h') (hs' : Steps quits t p' h' p'' h'') :
    Steps quits t p h p'' h'' := by
  induction hs' with
  | refl => exact hs
  | tail _ hl ih => exact ih.tail hl

/-- What every step of a task keeps, its steps keep. -/
theorem Steps.preserves {I : Pipeline → Hand → Prop}
    (hI : ∀ {p h p' h'}, Step quits t p h p' h' → I p h → I p' h') (hs : Steps quits t p h p' h')
    (hp : I p h) : I p' h' := by
  induction hs with
  | refl => exact hp
  | tail _ hl ih => exact hI hl ih

end Pipeline

end Uplink
