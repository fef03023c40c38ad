import Uplink.Proofs.Demo.Course
import Uplink.Proofs.Demo.Records
import Uplink.Proofs.Dispatch.Accounting
import Uplink.Proofs.Kpi.Settlement
import Uplink.Proofs.Service.Numbering
/-!
The reckoning of rounds of synthetic records: what their trail makes of the services, of the
dispatcher and of the counters, however many of the pushes fail or wait.
-/
namespace Uplink

namespace Mark

def push? : Mark → Option (String × Report)
  | called c => c.push?
  | _ => none

/-- What a mark makes of the counters. -/
def hear : Mark → Counters → Counters
  | counted x, c => c.apply x
  | landed f, c => c.settle f.sample
  | _, c => c

def hearAll (trail : List Mark) (c : Counters) : Counters := trail.foldl (fun c x => x.hear c) c

theorem hearAll_append (trail more : List Mark) (c : Counters) :
    hearAll (trail ++ more) c = hearAll more (hearAll trail c) := List.foldl_append

end Mark

namespace Event

theorem push?_eq (e : Event) : e.push? = e.mark?.bind Mark.push? := by
  cases e with
  | finished t q => cases t <;> rfl
  | _ => rfl

theorem hear_eq (e : Event) (c : Counters) :
    Counters.hear e c = (e.mark?.map (Mark.hear · c)).getD c := by
  cases e with
  | finished t q => cases t <;> rfl
  | _ => rfl

end Event

namespace Journal

def pushed (j : Journal) : List (String × Report) := j.trail.filterMap Mark.push?

theorem pushed_eq (j : Journal) : j.pushed = (j.events.filterMap Event.push?).reverse := by
  unfold pushed trail
  rw [← List.filterMap_reverse, List.filterMap_filterMap, List.filterMap_reverse,
    funext Event.push?_eq]

/-- The trail tells all that the counters hear of. -/
theorem replay_eq (j : Journal) :
    Counters.replay j.events = Mark.hearAll j.trail {} := by
  unfold Counters.replay trail Mark.hearAll
  rw [List.foldl_reverse]
  induction j.events with
  | nil => rfl
  | cons e es ih =>
    rw [List.foldr_cons, ih, Event.hear_eq]
    cases he : e.mark? with
    | none => rw [List.filterMap_cons_none he]; rfl
    | some x => rw [List.filterMap_cons_some he]; rfl

end Journal

namespace Counters

variable {c : Counters} {k : String} {total : Nat}

/-- A counter holds a number, in thousandths, and is absent as long as that is zero. -/
def Holds (c : Counters) (k : String) (total : Nat) : Prop :=
  (c.cells.get? k).map Cell.amount = if total = 0 then none else some (.ofNat (1000 * total))

theorem Holds.add (h : c.Holds k total) {more : Nat} (hmore : more ≠ 0) :
    (c.add k (.ofNat (1000 * more))).Holds k (total + more) := by
  unfold Holds at h ⊢
  unfold Counters.add
  rw [if_neg (by omega), Nat.mul_add, UInt64.ofNat_add]
  by_cases htotal : total = 0
  · subst htotal
    cases hk : c.cells.get? k with
    | none => simp [put]
    | some cell => simp [hk] at h
  · rw [if_neg htotal] at h
    obtain ⟨cell, hcell, hamount⟩ := Option.map_eq_some_iff.mp h
    simp [hcell, hamount]

theorem Holds.add_of_ne (h : c.Holds k total) {j : String} (hj : k ≠ j) (delta : Amount) :
    (c.add j delta).Holds k total := by
  unfold Holds at h ⊢
  rw [← h]
  unfold Counters.add
  split <;> simp [put, Dictionary.get?_put_of_ne _ hj]

end Counters

namespace Demo

variable {c : AgentConfig}

/-! ### What rounds push -/

def target (c : AgentConfig) (x : Nat × Report) : String × Report :=
  (c.endpoint x.2.kind.path, x.2)

theorem push?_pushes {records : List Report} {answers : List CallResult}
    (h : answers.length = records.length) :
    (pushes c records answers).filterMap Mark.push?
      = records.map fun r => (c.endpoint r.kind.path, r) := by
  unfold pushes
  induction records generalizing answers with
  | nil => rfl
  | cons r records ih =>
    cases answers with
    | nil => cases h
    | cons a answers => exact congrArg (_ :: ·) (ih (Nat.succ.inj h))

theorem push?_counts (failures : Nat) : (counts failures).filterMap Mark.push? = [] := by
  unfold counts
  split <;> rfl

theorem push?_rounds {answers : List (List CallResult)} (five : ∀ a ∈ answers, a.length = 5) :
    (rounds c answers).filterMap Mark.push? = (schedule answers.length).map (target c) := by
  induction answers using List.reverseRecOn with
  | nil => rfl
  | append_singleton answers a ih =>
    obtain ⟨hbefore, ha⟩ := List.forall_mem_append.mp five
    rw [rounds_append_singleton, List.filterMap_append, ih hbefore, round, List.filterMap_append,
      push?_counts, List.append_nil, List.length_append, List.length_singleton, schedule_succ,
      List.map_append, push?_pushes (ha a List.mem_cons_self)]
    rfl

/-- Rounds call for nothing but pushes of their records. -/
theorem called_mem_rounds {answers : List (List CallResult)} {call' : Call}
    (h : .called call' ∈ rounds c answers) : ∃ r, call' = call c r := by
  obtain ⟨x, -, hx⟩ := List.mem_flatMap.mp h
  rcases List.mem_append.mp hx with hx | hx
  · obtain ⟨y, -, hy⟩ := List.mem_flatMap.mp hx
    exact ⟨y.1, by simpa using hy⟩
  · unfold counts at hx
    split at hx <;> simp at hx

theorem length_schedule (n : Nat) : (schedule n).length = 5 * n := by
  induction n with
  | zero => rfl
  | succ n ih =>
    rw [schedule_succ, List.length_append, ih, List.length_map]
    rfl

theorem pushedOf_schedule {k : Kind} (hk : k ≠ .kpi) (n : Nat) :
    pushedOf k ((schedule n).map (target c)).reverse = n := by
  induction n with
  | zero => rfl
  | succ n ih =>
    rw [schedule_succ, List.map_append, List.reverse_append, pushedOf_append, ih, Nat.add_comm]
    cases k <;> first | rfl | exact absurd rfl hk

/-- The number of a record among those of its kind is that of its round. -/
theorem numbered_schedule (n : Nat) :
    numbered ((schedule n).map (target c)).reverse
      = ((schedule n).map fun x => (x.1, target c x)).reverse := by
  induction n with
  | zero => rfl
  | succ n ih =>
    have hcount (k : Kind) (hk : k ≠ .kpi) := pushedOf_schedule (c := c) hk n
    rw [schedule_succ, List.map_append, List.reverse_append, List.map_append, List.reverse_append,
      ← ih]
    simp [records, target, numbered, pushedOf_cons, hcount, Report.kind]

/-! ### What rounds count -/

structure Counted (n failed : Nat) (counters : Counters) : Prop where
  rounds : counters.Holds "DEMO.Rounds" n
  records : counters.Holds "DEMO.Records" (5 * n)
  failures : counters.Holds "DEMO.PushFailures" failed

theorem hearAll_pushes (records : List Report) (answers : List CallResult) (counters : Counters) :
    Mark.hearAll (pushes c records answers) counters = counters := by
  unfold pushes
  induction records.zip answers with
  | nil => rfl
  | cons x xs ih => exact ih

/-- Amounts are thousandths. -/
theorem ofDouble_ofNat : ∀ n ≤ 5, Amount.ofDouble (.ofNat n) = .ofNat (1000 * n) := by
  decide +kernel

variable {n failed : Nat} {counters : Counters}

theorem Counted.hear_counts (h : Counted n failed counters) {more : Nat} (few : more ≤ 5) :
    Counted (n + 1) (failed + more) (Mark.hearAll (counts more) counters) := by
  have hround := ofDouble_ofNat 1 (by decide)
  have hrecords := ofDouble_ofNat 5 (by decide)
  have hfirst : Counted (n + 1) failed ((counters.add "DEMO.Rounds" (.ofNat (1000 * 1))).add
      "DEMO.Records" (.ofNat (1000 * 5))) := {
    rounds := (h.rounds.add (by decide)).add_of_ne (by decide) _
    records := (h.records.add_of_ne (by decide) _).add (by decide)
    failures := (h.failures.add_of_ne (by decide) _).add_of_ne (by decide) _ }
  rw [← hround, ← hrecords] at hfirst
  unfold counts
  split
  next hzero =>
    rw [hzero]
    exact hfirst
  next hmore =>
    show Counted _ _ (Counters.add _ "DEMO.PushFailures" (.ofDouble (.ofNat more)))
    rw [ofDouble_ofNat more few]
    exact {
      rounds := hfirst.rounds.add_of_ne (by decide) _
      records := hfirst.records.add_of_ne (by decide) _
      failures := hfirst.failures.add hmore }

theorem counted_rounds {answers : List (List CallResult)} (five : ∀ a ∈ answers, a.length = 5) :
    Counted answers.length (failures answers.flatten) (Mark.hearAll (rounds c answers) {}) := by
  induction answers using List.reverseRecOn with
  | nil => exact ⟨rfl, rfl, rfl⟩
  | append_singleton answers a ih =>
    obtain ⟨hbefore, ha⟩ := List.forall_mem_append.mp five
    have few : failures a ≤ 5 := (ha a List.mem_cons_self) ▸ List.countP_le_length
    rw [rounds_append_singleton, Mark.hearAll_append, round, Mark.hearAll_append, hearAll_pushes,
      List.length_append, List.flatten_append, failures_append, List.flatten_singleton]
    exact (ih hbefore).hear_counts few

/-! ### The reckoning -/

/-- What rounds come to, by what their pushes are answered: in each round every service receives a
record of its kind, for its endpoint and under the number of the round; no two rounds have an alarm
id, a calling number or an IMSI in common; the dispatcher takes on all the records; and the counters
tell of the rounds. -/
structure Reckoning (c : AgentConfig) (answers : List (List CallResult)) (s : Session) : Prop where
  five : ∀ a ∈ answers, a.length = 5
  trail : s.journal.trail = rounds c answers
  pushed : s.journal.pushed = (schedule answers.length).map (target c)
  submitted : List.Forall₂ Job.Carries (s.journal.ledger.pushes.map Prod.snd)
    ((schedule answers.length).map fun x => (x.1, target c x))
  received : ∀ k ≠ .kpi, s.services.view? (fun v => v.sequence) k = some (.ofNat answers.length)
  alarmIds : ((s.journal.pushed.map Prod.snd).filterMap Report.alarmId?).Nodup
  callingNumbers : ((s.journal.pushed.map Prod.snd).filterMap Report.callingNumber?).Nodup
  imsis : ((s.journal.pushed.map Prod.snd).filterMap Report.imsi?).Nodup
  addresses : ∀ address ∈ (s.journal.pushed.map Prod.snd).filterMap Report.address?,
    ∃ host, 1 ≤ host ∧ host ≤ 254 ∧ address = "192.168.1." ++ toString host
  begun : s.dispatcher.totals.queued + s.dispatcher.totals.fallback = 5 * answers.length
  counted : Counted answers.length (failures answers.flatten) s.kpi.counters

end Demo

namespace Session

open Demo Pipeline

variable {a : Assembly} {settings : Settings} {identity : Identity} {clock : Clock}
  {receiver : Receiver} {demo : AgentConfig} {chance : Chance} {s : Session}

theorem Rests.pushed {answers : List (List CallResult)} (h : s.Rests demo answers)
    (five : ∀ a ∈ answers, a.length = 5) :
    s.journal.pushed = (schedule answers.length).map (target demo) := by
  rw [Journal.pushed, h.trail, push?_rounds five]

theorem Rests.submitsBody {answers : List (List CallResult)} (h : s.Rests demo answers) :
    ∀ e ∈ s.journal.events, e.submitsBody = false := by
  intro e he
  cases e with
  | called t call =>
    have hmem : Mark.called call ∈ s.journal.trail :=
      List.mem_reverse.mpr (List.mem_filterMap.mpr ⟨_, he, rfl⟩)
    obtain ⟨r, rfl⟩ := called_mem_rounds (h.trail ▸ hmem)
    rfl
  | _ => rfl

/-- Only records are submitted, so the chronicle numbers all jobs. -/
theorem Rests.numbers {answers : List (List CallResult)} (h : s.Rests demo answers)
    (five : ∀ a ∈ answers, a.length = 5) {first : Chronicle} (hfirst : first.Numbers []) :
    (s.journal.chronicle first).Numbers ((schedule answers.length).map (target demo)).reverse := by
  have hnumbers := Chronicle.numbers_enterAll h.submitsBody hfirst
  rwa [← List.reverse_reverse (s.journal.events.filterMap Event.push?), ← Journal.pushed_eq,
    h.pushed five] at hnumbers

theorem Rests.reckoning {answers : List (List CallResult)} (h : s.Rests demo answers)
    (five : ∀ a ∈ answers, a.length = 5) (few : answers.length < 2 ^ 64)
    (hs : (create a settings identity clock receiver demo chance).ComesTo s) :
    Reckoning demo answers s := by
  have reachable : s.Reachable := ⟨_, _, _, _, _, _, _, hs⟩
  have hpushed := h.pushed five
  have hrecords : s.journal.pushed.map Prod.snd = (schedule answers.length).map Prod.snd := by
    rw [hpushed, List.map_map]
    rfl
  have hagrees := keeps_of_create (Chronicle.invariant_agrees _)
    (Chronicle.agrees_ofSettings a settings identity clock receiver chance) hs
  have hnumbers := h.numbers five
    (Chronicle.numbers_create ((a.system chance.clock).map SystemClock.services) identity clock
      settings.historyCapacity)
  have hsubmitted : List.Forall₂ Job.Carries (s.journal.ledger.pushes.map Prod.snd)
      ((schedule answers.length).map fun x => (x.1, target demo x)) := by
    have hjobs := hnumbers.jobs
    rw [numbered_schedule] at hjobs
    exact hagrees.jobs ▸ List.forall₂_reverse_iff.mp hjobs
  have hbegun : s.CountsPushes :=
    reachable.keeps invariant_countsPushes fun _ hp => countsPushes_of_fresh hp
  obtain ⟨-, hrecounts⟩ := reachable.keeps invariant_recounts fun _ hp =>
    ⟨lined_of_fresh hp, recounts_of_fresh hp⟩
  constructor
  · exact five
  · exact h.trail
  · exact hpushed
  · exact hsubmitted
  · intro k hk
    rw [hagrees.services.sequence hk]
    exact congrArg (some ∘ UInt64.ofNat) ((hnumbers.pushed k hk).trans (pushedOf_schedule hk _))
  · exact hrecords ▸ nodup_alarmIds few
  · exact hrecords ▸ nodup_callingNumbers few
  · exact hrecords ▸ nodup_imsis few
  · exact hrecords ▸ host_of_schedule few
  · have hlength := hsubmitted.length_eq
    rw [List.length_map, List.length_map, length_schedule] at hlength
    exact hbegun.trans hlength
  · rw [hrecounts.counters, Journal.replay_eq, h.trail]
    exact counted_rounds five

theorem map_fst_performAll (s : Session) (ops : List Operation) :
    (s.performAll ops).2.map Prod.fst = ops := by
  induction ops generalizing s with
  | nil => rfl
  | cons op ops ih => exact congrArg (op :: ·) (ih _)

/-- As many rounds are made as operations ask for, with five pushes each. -/
theorem tells_flatten {told : List (Operation × Answer)} {made : List (List (List CallResult))}
    (h : List.Forall₂ Operation.Tells told made) :
    made.flatten.length = ((told.map Prod.fst).map Operation.rounds).sum
      ∧ ∀ a ∈ made.flatten, a.length = 5 := by
  induction h with
  | nil => exact ⟨rfl, by simp⟩
  | @cons x answers _ _ hx _ ih =>
    constructor
    · rw [List.flatten_cons, List.length_append, ih.1, hx.rounds]
      rfl
    · rw [List.flatten_cons]
      exact List.forall_mem_append.mpr ⟨hx.five, ih.2⟩

/-- Of a session in which nothing else is pushed or counted, the rounds that the operator asks for
are all made, whatever the receiver answers to their pushes or however long it takes, unless a POST
crashes.  The operator is told how many pushes of its rounds failed, and the reckoning of all
rounds is right. -/
theorem performAll_reckoning (sound : receiver.Sound) {ops : List Operation}
    (hops : ∀ op ∈ ops, op.standsBack) (few : 10000 + (ops.map Operation.rounds).sum < 2 ^ 64) :
    let run := (create a settings identity clock receiver demo chance).performAll ops
    ∃ made, List.Forall₂ Operation.Tells run.2 made
      ∧ made.flatten.length = (ops.map Operation.rounds).sum
      ∧ Reckoning demo made.flatten run.1 := by
  intro run
  have reachable := reachable_create a settings identity clock receiver demo chance
  obtain ⟨made, htells, hrests⟩ :=
    performAll_rests reachable (create_rests a settings identity clock sound demo chance) hops
  obtain ⟨hlength, five⟩ := tells_flatten htells
  rw [map_fst_performAll] at hlength
  exact ⟨made, htells, hlength,
    hrests.reckoning five (by rw [List.nil_append]; omega) (comesTo_performAll _ ops)⟩

/-- Alarms hang, call detail records are refused, and events and the first access of a terminal take
a while, of which the latter is refused too. -/
def grudging : Receiver :=
  [⟨"alarm", [.hang]⟩, ⟨"cdr", [.status ⟨500⟩ 0]⟩, ⟨"common", [.status ⟨200⟩ 5]⟩,
    ⟨"ue-access", [.status ⟨404⟩ 7, .status ⟨200⟩ 0]⟩]

/-- Three rounds with one worker, whose first job hangs, and a queue for one job, so that most
records are posted by the operator. -/
def crowded : Session × List (Operation × Answer) :=
  (create .partsStarted { dispatch := { workers := 1, queueCapacity := 1 } } {} {} grudging
    {}).performAll [.generate 1, .advanceClock 5, .totals, .generate 2]

theorem performAll_reckoning_crowded :
    ∃ made, List.Forall₂ Operation.Tells crowded.2 made ∧ made.flatten.length = 3
      ∧ Reckoning {} made.flatten crowded.1
      ∧ crowded.1.kpi.counters.Holds "DEMO.PushFailures" 4 := by
  obtain ⟨made, htells, hlength, hreckoning⟩ :=
    @performAll_reckoning .partsStarted { dispatch := { workers := 1, queueCapacity := 1 } } {} {}
      grudging {} {} (by decide) [.generate 1, .advanceClock 5, .totals, .generate 2] (by decide)
      (by decide)
  exact ⟨made, htells, hlength, hreckoning, by unfold Counters.Holds; decide +kernel⟩

end Session

end Uplink
