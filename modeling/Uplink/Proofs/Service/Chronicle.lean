import Uplink.Proofs.Dispatch.Ledger
import Uplink.Proofs.Ring.Bounded
/-!
The chronicle of a session: what the calls and the changes of the clock, the identity and the
histories make of the records, told without the services.  The services keep to it.
-/
namespace Uplink

structure Shelf (α : Type) where
  kept : Bounded α
  pushed : Nat := 0

namespace Shelf

variable {α : Type}

def create (capacity : Nat) : Shelf α :=
  { kept := .create capacity }

def push (s : Shelf α) (a : α) : Shelf α := ⟨s.kept.push a, s.pushed + 1⟩

/-- A new capacity, unless it is zero or less. -/
def adjust (s : Shelf α) (n : Int) : Shelf α :=
  if 0 < n then { s with kept := s.kept.resize n.toNat } else s

/-- The records that a request for `n` of them gives: none below zero, all for zero, and otherwise
the `n` newest or all there are. -/
def recent (s : Shelf α) (n : Int) : List α :=
  if n < 0 then []
  else if n = 0 then s.kept.items
  else s.kept.items.drop (s.kept.items.length - n.toNat)

end Shelf

/-- `now` and `neUid` complete the records; if the system's clock stamps them, `times` is what it is
going to show to the services.  `jobs` are those submitted, with the tasks that did. -/
structure Chronicle where
  times : Option (Kind → Nat → Int64)
  now : Int64
  neUid : String
  alarm : Shelf Alarm
  callDetail : Shelf CallDetail
  generalEvent : Shelf GeneralEvent
  stationState : Shelf StationState
  terminalAccess : Shelf TerminalAccess
  jobs : List (Task × Job) := []

namespace Chronicle

def create (times : Option (Kind → Nat → Int64)) (identity : Identity) (clock : Clock)
    (capacity : Nat) : Chronicle where
  times := times
  now := clock.now
  neUid := identity.neUid
  alarm := .create capacity
  callDetail := .create capacity
  generalEvent := .create capacity
  stationState := .create capacity
  terminalAccess := .create capacity

/-- A record keeps its network element unless it names none. -/
def owner (c : Chronicle) (neUid : String) : String := if neUid.isEmpty then c.neUid else neUid

def submit (c : Chronicle) (t : Task) (j : Job) : Chronicle := { c with jobs := c.jobs ++ [(t, j)] }

def pushed (c : Chronicle) : Kind → Nat
  | .alarm => c.alarm.pushed
  | .callDetail => c.callDetail.pushed
  | .generalEvent => c.generalEvent.pushed
  | .stationState => c.stationState.pushed
  | .terminalAccess => c.terminalAccess.pushed
  | .kpi => 0

def stamp (c : Chronicle) (k : Kind) : Int64 :=
  (c.times.map fun times => times k (c.pushed k)).getD c.now

/-- A record is completed, kept and submitted to a URL.  Alarms carry their numbers; a KPI report
has no service and is submitted as it is. -/
def push (c : Chronicle) (t : Task) (url : String) : Report → Chronicle
  | .alarm a =>
    let a := { a with
      neUid := c.owner a.neUid, alarmTime := c.stamp .alarm
      alarmSeq := .ofNat (c.alarm.pushed + 1) }
    { c with alarm := c.alarm.push a }.submit t ⟨url, Record.encode a⟩
  | .callDetail a =>
    let a := { a with neUid := c.owner a.neUid, recordTime := c.stamp .callDetail }
    { c with callDetail := c.callDetail.push a }.submit t ⟨url, Record.encode a⟩
  | .generalEvent a =>
    let a := { a with neUid := c.owner a.neUid, recordTime := c.stamp .generalEvent }
    { c with generalEvent := c.generalEvent.push a }.submit t ⟨url, Record.encode a⟩
  | .stationState a =>
    let a := { a with neUid := c.owner a.neUid, recordTime := c.stamp .stationState }
    { c with stationState := c.stationState.push a }.submit t ⟨url, Record.encode a⟩
  | .terminalAccess a =>
    let a := { a with neUid := c.owner a.neUid, recordTime := c.stamp .terminalAccess }
    { c with terminalAccess := c.terminalAccess.push a }.submit t ⟨url, Record.encode a⟩
  | .kpi k => c.submit t ⟨url, Record.encode k⟩

def adjust (c : Chronicle) (n : Int) : Kind → Chronicle
  | .alarm => { c with alarm := c.alarm.adjust n }
  | .callDetail => { c with callDetail := c.callDetail.adjust n }
  | .generalEvent => { c with generalEvent := c.generalEvent.adjust n }
  | .stationState => { c with stationState := c.stationState.adjust n }
  | .terminalAccess => { c with terminalAccess := c.terminalAccess.adjust n }
  | .kpi => c

def enter : Event → Chronicle → Chronicle
  | .called t (.push url (.ok r) _), c => c.push t url r
  | .called t (.submit url (some body) _), c => c.submit t ⟨url, body⟩
  | .clockMoved now, c => { c with now }
  | .identified i, c => { c with neUid := i.neUid }
  | .adjusted k n, c => c.adjust n k
  | _, c => c

def enterAll (es : List Event) (c : Chronicle) : Chronicle := es.foldr enter c

theorem enterAll_append (es es' : List Event) (c : Chronicle) :
    enterAll (es ++ es') c = enterAll es (enterAll es' c) := List.foldr_append

end Chronicle

namespace Event

/-- Events that tell of records and of what completes them. -/
def ofRecords : Event → Bool
  | called _ c => c.submits
  | submitted _ _ | clockMoved _ | identified _ | adjusted _ _ => true
  | _ => false

end Event

namespace Chronicle

theorem enter_of_not_ofRecords {e : Event} (h : e.ofRecords = false) (c : Chronicle) :
    enter e c = c := by
  unfold enter
  split <;> simp_all [Event.ofRecords, Call.submits]

theorem enterAll_of_not_ofRecords {es : List Event} (h : ∀ e ∈ es, e.ofRecords = false)
    (c : Chronicle) : enterAll es c = c :=
  List.foldrRecOn (motive := (· = c)) es enter rfl fun c' hc e he =>
    (enter_of_not_ofRecords (h e he) c').trans hc

end Chronicle

namespace Pipeline

/-- What completes records and keeps them: what the system's clock is going to show if it stamps
them, the other clock, the identity and the services. -/
abbrev Front := Option (Kind → Nat → Int64) × Clock × Identity × Services

def front (p : Pipeline) : Front :=
  (p.system.map SystemClock.services, p.clock, p.identity, p.services)

@[simp] theorem front_startWorkers (p : Pipeline) (workers capacity : Nat) :
    (p.startWorkers workers capacity).front = p.front := by
  unfold startWorkers
  split <;> rfl

@[simp] theorem front_leave (p : Pipeline) (t : Task) (e : Event) :
    (p.leave t e).front = p.front := by
  unfold leave
  dsimp only
  split <;> rfl

@[simp] theorem front_launch (p : Pipeline) (t : Task) (f : Flight) :
    (p.launch t f).front = p.front := by
  unfold front
  cases h : p.system <;> simp [launch, note, SystemClock.readForReport, h]

/-- How a step on behalf of a task changes what completes and keeps records, and what it notes. -/
inductive RecordChange (t : Task) (p : Pipeline) : Front → List Event → Prop
  | none (es : List Event) (hes : ∀ e ∈ es, e.ofRecords = false) : RecordChange t p p.front es
  | push {rest services r'} (url : String) (r : Report) (timeout : Duration)
    (hr : p.services.push (p.stamp r.kind) p.identity.neUid r = (services, r'))
    (hrest : ∀ e ∈ rest, e.ofRecords = false) :
    RecordChange t p
      (p.system.map (SystemClock.readBy · r.kind) |>.map SystemClock.services, p.clock, p.identity,
        services)
      (rest ++ [.submitted t ⟨url, r'.encode⟩, .called t (.push url (.ok r) timeout)])
  | submit {rest} (url : String) (body : Octets) (deadline : Duration)
    (hrest : ∀ e ∈ rest, e.ofRecords = false) :
    RecordChange t p p.front
      (rest ++ [.submitted t ⟨url, body⟩, .called t (.submit url (some body) deadline)])
  | moveClock (clock : Clock) :
    RecordChange t p (p.system.map SystemClock.services, clock, p.identity, p.services)
      [.clockMoved clock.now]
  | identify (identity : Identity) :
    RecordChange t p (p.system.map SystemClock.services, p.clock, identity, p.services)
      [.identified identity]
  | adjust (k : Kind) (n : Int) :
    RecordChange t p
      (p.system.map SystemClock.services, p.clock, p.identity, p.services.update (·.adjust n) k)
      [.adjusted k n]

variable {quits : Prop} {t : Task} {p p₁ p' : Pipeline}

theorem Submits.recordChange {c : Call} {j : Job} {deadline : Duration}
    (hs : Submits t p c j deadline p₁) (rest : List Event)
    (hevents : p'.journal.events = rest ++ p₁.journal.events)
    (hrest : ∀ e ∈ rest, e.ofRecords = false) (hfront : p'.front = p₁.front) :
    ∃ es, p'.journal.events = es ++ p.journal.events ∧ RecordChange t p p'.front es := by
  rw [hevents, hfront]
  cases hs with
  | submit url body deadline =>
    rw [front_startWorkers]
    refine ⟨_, ?_, .submit url body deadline hrest⟩
    simp
  | push url r timeout hr =>
    rw [front_startWorkers]
    refine ⟨_, ?_, .push url r timeout hr hrest⟩
    simp

/-- Every step changes them in one of these ways. -/
theorem Step.recordChange {h h' : Hand} (hs : Step quits t p h p' h') :
    ∃ es, p'.journal.events = es ++ p.journal.events ∧ RecordChange t p p'.front es := by
  have hquiet {p₀ : Pipeline} (es : List Event) (hes : ∀ e ∈ es, e.ofRecords = false)
      (hj : p₀.journal.events = es ++ p.journal.events) (hfront : p₀.front = p.front) :
      ∃ es, p₀.journal.events = es ++ p.journal.events ∧ RecordChange t p p₀.front es :=
    ⟨es, hj, hfront ▸ .none es hes⟩
  cases hs with
  | log l => exact hquiet [.logged l] (by simp [Event.ofRecords]) rfl rfl
  | start workers capacity => exact hquiet [] (by simp) (by simp) (by simp)
  | count c => exact hquiet [.counted c] (by simp [Event.ofRecords]) rfl rfl
  | call c hc => exact hquiet [.called t c] (by simp [Event.ofRecords, hc]) rfl rfl
  | @queue _ _ c j _ p₁ d hs hd =>
    exact hs.recordChange [.queued t j] rfl (by simp [Event.ofRecords]) rfl
  | divert hs hd hq =>
    cases hq
    exact hs.recordChange [_, _, _] rfl (by simp [Event.ofRecords]) rfl
  | @deliver _ _ q due =>
    rw [deliver_eq]
    exact hquiet [.finished t q] (by simp [Event.ofRecords]) rfl rfl
  | direct url body deadline hq =>
    cases hq
    exact hquiet [_] (by simp [Event.ofRecords]) rfl rfl
  | answered due => exact hquiet [] (by simp) rfl rfl
  | seek idle hd => exact hquiet [] (by simp) rfl rfl
  | take idle hd hq =>
    cases hq
    exact hquiet [_, _] (by simp [Event.ofRecords]) rfl rfl
  | @finish w _ q busy due =>
    refine hquiet _ (fun e he => ?_) (events_noteAll _ _) rfl
    rcases mem_finish (List.mem_reverse.mp he) with rfl | ⟨l, rfl⟩ | ⟨k, crashed, rfl⟩ | rfl <;> rfl
  | join url => exact hquiet [] (by simp) rfl rfl
  | skip turn hf => exact hquiet _ (forall_yields rfl) (events_leave p t _) (by simp)
  | @depart _ _ _ f _ _ turn hf hq =>
    cases hq
    exact hquiet [_, _] (by simp [Event.ofRecords]) rfl (front_launch p t f)
  | @land _ _ f q due hf accepted =>
    refine hquiet (p.yields t ++ [.landed t f]) (fun e he => ?_) (by simp [yields]; rfl)
      (by simp; rfl)
    rcases List.mem_append.mp he with he | he
    · exact forall_yields (P := fun e => e.ofRecords = false) rfl e he
    · rw [List.mem_singleton.mp he]
      rfl
  | fail due hf => exact hquiet _ (forall_yields rfl) (events_leave p t _) (by simp)
  | withdraw hh => exact hquiet _ (forall_yields rfl) (events_withdraw p t) (front_leave _ _ _)
  | setTimer due later => exact hquiet [] (by simp) rfl rfl
  | dropTimers => exact hquiet [] (by simp) rfl rfl
  | resume => exact hquiet [] (by simp) rfl rfl
  | wake u => exact hquiet [] (by simp) rfl rfl
  | shown j hj => exact hquiet [] (by simp) hj rfl
  | moveClock clock => exact ⟨[_], rfl, .moveClock clock⟩
  | identify identity => exact ⟨[_], rfl, .identify identity⟩
  | adjust k n => exact ⟨[_], rfl, .adjust k n⟩
  | adjustReports n => exact hquiet [] (by simp) rfl rfl

end Pipeline

end Uplink
