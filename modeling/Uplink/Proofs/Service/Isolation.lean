import Uplink.Proofs.Service.Front
import Uplink.Proofs.Session.Patience
/-!
The history of one service.  It is made by what the operator does to the service, to the identity
and to the clock, and by nothing else: not by how jobs are delivered or when, nor by flushes, nor
by pushes to other services.
-/
namespace Uplink

/-! ### One service among the others -/

namespace Services

/-- The service of a kind is the same in both.  KPI reports have none. -/
def Same (k : Kind) (v v' : Services) : Prop :=
  match k with
  | .alarm => v.alarm = v'.alarm
  | .callDetail => v.callDetail = v'.callDetail
  | .generalEvent => v.generalEvent = v'.generalEvent
  | .stationState => v.stationState = v'.stationState
  | .terminalAccess => v.terminalAccess = v'.terminalAccess
  | .kpi => True

variable {k : Kind} {v v' v'' : Services}

theorem Same.refl (k : Kind) (v : Services) : Same k v v := by
  cases k <;> trivial

theorem Same.symm (h : Same k v v') : Same k v' v := by
  cases k <;> first | exact Eq.symm h | trivial

theorem Same.trans (h : Same k v v') (h' : Same k v' v'') : Same k v v'' := by
  cases k <;> first | exact Eq.trans h h' | trivial

theorem Same.view? {β : Type} (h : Same k v v') (f : {α : Type} → [Record α] → Service α → β) :
    v.view? f k = v'.view? f k := by
  cases k <;> simp_all [Services.view?, Same]

theorem Same.update (h : Same k v v') (f : {α : Type} → [Record α] → Service α → Service α)
    (k' : Kind) : Same k (v.update f k') (v'.update f k') := by
  cases k <;> cases k' <;> simp_all [Services.update, Same]

theorem same_update {k' : Kind} (h : k' ≠ k)
    (f : {α : Type} → [Record α] → Service α → Service α) (v : Services) :
    Same k (v.update f k') v := by
  cases k <;> cases k' <;> simp_all [Services.update, Same]

theorem Same.push (h : Same k v v') (now : Int64) (neUid : String) (r : Report) :
    Same k (v.push now neUid r).1 (v'.push now neUid r).1 := by
  cases k <;> cases r <;> simp_all [Services.push, Same]

theorem same_push {r : Report} (h : r.kind ≠ k) (v : Services) (now : Int64) (neUid : String) :
    Same k (v.push now neUid r).1 v := by
  cases k <;> cases r <;> simp_all [Services.push, Same, Report.kind]

end Services

theorem Assembly.system_of_stamps {a : Assembly} (h : a.stamps) (c : SystemClock) :
    a.system c = none := if_pos h

/-- What an operation does to the records of one kind: it pushes one, changes the capacity of their
history, or changes what completes them. -/
inductive Deed where
  | push (r : Report)
  | adjust (n : Int)
  | identify (i : Option Identity)
  | setClock (now : Int64)
  | advanceClock (millis : Int64)

namespace Operation

/-- What an operation does to the records of a kind, if anything, wherever they are pushed to and
however long that may take. -/
def deed? (k : Kind) : Operation → Option Deed
  | .call (.push _ (.ok r) _) => if r.kind = k then some (.push r) else none
  | .adjustHistory k' n => if k' = k then some (.adjust n) else none
  | .identify i => some (.identify i)
  | .setClock now => some (.setClock now)
  | .advanceClock millis => some (.advanceClock millis)
  | _ => none

/-- No record of the kind is pushed but by the operator itself. -/
def Foreground (k : Kind) : Operation → Prop
  | .background (.push _ (.ok r) _) => r.kind ≠ k
  | .generate _ | .startGenerator _ => False
  | _ => True

def AsksFor (k : Kind) : Operation → Prop
  | .history k' _ | .historySize k' | .adjustHistory k' _ | .describeService k' => k' = k
  | _ => False

end Operation

/-- What the operations of a run do to the records of a kind, in their order. -/
def deeds (k : Kind) (script : List (Operation × Nat)) : List Deed :=
  script.flatMap fun (op, n) => (List.replicate n op).filterMap (·.deed? k)

namespace Pipeline

structure Alike (k : Kind) (p p' : Front) : Prop where
  times : p.1.map (· k) = p'.1.map (· k)
  clock : p.2.1 = p'.2.1
  identity : p.2.2.1 = p'.2.2.1
  services : Services.Same k p.2.2.2 p'.2.2.2

variable {k : Kind} {p p' p'' : Front}

theorem Alike.refl (k : Kind) (p : Front) : Alike k p p := ⟨rfl, rfl, rfl, .refl k _⟩

theorem alike_of_eq (h : p = p') : Alike k p p' := h ▸ .refl k p

theorem Alike.symm (h : Alike k p p') : Alike k p' p :=
  ⟨h.times.symm, h.clock.symm, h.identity.symm, h.services.symm⟩

theorem Alike.trans (h : Alike k p p') (h' : Alike k p' p'') : Alike k p p'' :=
  ⟨h.times.trans h'.times, h.clock.trans h'.clock, h.identity.trans h'.identity,
    h.services.trans h'.services⟩

end Pipeline

namespace Deed

def act (k : Kind) (p : Pipeline.Front) : Deed → Pipeline.Front
  | .push r =>
    (p.1.map fun times k n => times k (if k = r.kind then n + 1 else n), p.2.1, p.2.2.1,
      (p.2.2.2.push ((p.1.map (· r.kind 0)).getD p.2.1.now) p.2.2.1.neUid r).1)
  | .adjust n => (p.1, p.2.1, p.2.2.1, p.2.2.2.update (·.adjust n) k)
  | .identify i => (p.1, p.2.1, i.getD p.2.2.1, p.2.2.2)
  | .setClock now => (p.1, p.2.1.set now, p.2.2.1, p.2.2.2)
  | .advanceClock millis => (p.1, p.2.1.advance millis, p.2.2.1, p.2.2.2)

theorem act_alike {k : Kind} {p p' : Pipeline.Front}
    (h : Pipeline.Alike k p p') (d : Deed) : Pipeline.Alike k (d.act k p) (d.act k p') := by
  obtain ⟨times, clock, identity, services⟩ := p
  obtain ⟨times', clock', identity', services'⟩ := p'
  obtain ⟨htimes, rfl, rfl, hservices⟩ := h
  change times.map (· k) = times'.map (· k) at htimes
  cases d with
  | push r =>
    refine ⟨?_, rfl, rfl, ?_⟩
    · have hread := congrArg (Option.map fun f n => f (if k = r.kind then n + 1 else n)) htimes
      rw [Option.map_map, Option.map_map] at hread
      show (times.map _).map _ = (times'.map _).map _
      rw [Option.map_map, Option.map_map]
      exact hread
    · by_cases hk : r.kind = k
      · subst hk
        have hstamp := congrArg (Option.map (· 0)) htimes
        rw [Option.map_map, Option.map_map] at hstamp
        have hnow : (times.map (· r.kind 0)).getD clock.now
            = (times'.map (· r.kind 0)).getD clock.now := congrArg (·.getD clock.now) hstamp
        show Services.Same _ (services.push _ _ r).1 (services'.push _ _ r).1
        rw [hnow]
        exact hservices.push _ _ r
      · exact (Services.same_push hk _ _ _).trans
          (hservices.trans (Services.same_push hk _ _ _).symm)
  | adjust n => exact ⟨htimes, rfl, rfl, hservices.update _ k⟩
  | _ => exact ⟨htimes, rfl, rfl, hservices⟩

end Deed

namespace Session

open Pipeline

variable {k : Kind} {s s' s'' : Session} {op : Operation}

structure Quiet (k : Kind) (s : Session) : Prop where
  operator : ∀ r left failures, s.operator ≠ .generating r left failures
  generator : s.generator.stage = .idle
  callers : ∀ url r timeout, Caller.fresh (.push url (.ok r) timeout) ∈ s.callers → r.kind ≠ k

/-- A session that comes to `s'` leaves the records of a kind alone. -/
structure Spares (k : Kind) (s s' : Session) : Prop where
  quiet : s'.Quiet k
  alike : Alike k s'.front s.front

theorem Quiet.spares (hs : s.Quiet k) : Spares k s s := ⟨hs, .refl k _⟩

theorem Spares.trans (h : Spares k s s') (h' : Spares k s' s'') : Spares k s s'' :=
  ⟨h'.quiet, h'.alike.trans h.alike⟩

/-! ### Turns -/

theorem Aside.spares (h : s.Aside s') (hs : s.Quiet k) : Spares k s s' :=
  ⟨⟨h.operator ▸ hs.operator, h.generator ▸ hs.generator, h.callers ▸ hs.callers⟩,
    alike_of_eq h.front⟩

/-- A push of another kind. -/
theorem alike_frontAfter (p : Pipeline) (url : String) {r : Report} (hr : r.kind ≠ k)
    (timeout : Duration) : Alike k (p.frontAfter (.push url (.ok r) timeout)) p.front := by
  refine ⟨?_, rfl, rfl, Services.same_push hr _ _ _⟩
  show ((p.system.map _).map _).map _ = (p.system.map _).map _
  cases p.system <;> simp [SystemClock.readBy, hr.symm]

theorem alike_begin (p : Pipeline) (t : Task) {c : Call}
    (hc : ∀ url r timeout, c = .push url (.ok r) timeout → r.kind ≠ k) :
    Alike k (p.begin t c).1.front p.front := by
  rw [front_begin]
  unfold frontAfter
  split
  next url r timeout => exact alike_frontAfter p url (hc url r timeout rfl) timeout
  next => exact .refl k _

theorem callerTurn_spares (hs : s.Quiet k) (id : Nat) : Spares k s (s.callerTurn id) := by
  have hcallers (stage : Stage) : ∀ url r timeout,
      Caller.fresh (.push url (.ok r) timeout) ∈ s.callers.set id (.under stage) → r.kind ≠ k := by
    intro url r timeout hmem
    rcases List.mem_or_eq_of_mem_set hmem with hmem | heq
    · exact hs.callers url r timeout hmem
    · cases heq
  unfold callerTurn
  dsimp only
  split
  next c hc =>
    refine ⟨⟨hs.operator, hs.generator, hcallers _⟩, alike_begin _ _ fun url r timeout heq => ?_⟩
    exact hs.callers url r timeout (heq ▸ List.mem_of_getElem? hc)
  next stage hc =>
    exact ⟨⟨hs.operator, hs.generator, hcallers _⟩, alike_of_eq (front_proceed _ _ _)⟩
  next => exact hs.spares

theorem operatorTurn_spares (hs : s.Quiet k) : Spares k s s.operatorTurn := by
  unfold operatorTurn
  split
  next stage ho =>
    exact ⟨⟨fun _ _ _ => nofun, hs.generator, hs.callers⟩, alike_of_eq (front_proceed _ _ _)⟩
  next r left failures ho => exact absurd ho (hs.operator r left failures)
  next => exact hs.spares

theorem turn_spares (hs : s.Quiet k) (t : Task) : Spares k s (s.turn t) := by
  cases t with
  | operator => exact operatorTurn_spares hs
  | caller id => exact callerTurn_spares hs id
  | worker w =>
    exact ⟨⟨hs.operator, hs.generator, hs.callers⟩, alike_of_eq (front_workerTurn _ w)⟩
  | flusher id => exact (aside_flusherTurn s id).spares hs
  | generator =>
    show Spares k s s.generatorTurn
    have hturn : s.generatorTurn = s := by
      unfold generatorTurn
      dsimp only
      rw [hs.generator]
    rw [hturn]
    exact hs.spares

/-! ### The course -/

theorem lasts_spares (k : Kind) (s : Session) : Lasts (Spares k s) where
  turn {s'} ready t h := by
    have hready : Spares k s { s' with ready } :=
      ⟨⟨h.quiet.operator, h.quiet.generator, h.quiet.callers⟩, h.alike⟩
    exact hready.trans (turn_spares hready.quiet t)
  elapse now h :=
    h.trans ⟨⟨h.quiet.operator, h.quiet.generator, h.quiet.callers⟩,
      alike_of_eq (front_moveTo _ now)⟩

/-! ### Operations -/

def acted (k : Kind) (s : Session) (d : Option Deed) : Front :=
  d.elim s.front (·.act k s.front)

theorem alike_enter (s : Session) (c : Call) :
    Alike k (s.begin .operator c).1.front (s.acted k ((Operation.call c).deed? k)) := by
  rw [front_begin]
  cases c with
  | push url record timeout =>
    cases record with
    | error e => exact .refl k _
    | ok r =>
      by_cases hk : r.kind = k
      · rw [Operation.deed?, if_pos hk]
        refine alike_of_eq ?_
        show ((s.system.map _).map _, _, _, (s.services.push ((s.system.map _).getD _) _ r).1)
          = ((s.system.map _).map _, _, _,
            (s.services.push (((s.system.map _).map _).getD _) _ r).1)
        rw [Option.map_map, Option.map_map, Option.map_map]
        rfl
      · rw [Operation.deed?, if_neg hk]
        exact alike_frontAfter _ url hk timeout
  | _ => exact .refl k _

/-- The beginning of an operation is all that it does to the records of a kind. -/
theorem start_front (hs : s.Quiet k) (foreground : op.Foreground k) :
    (s.start op).1.Quiet k ∧ Alike k (s.start op).1.front (s.acted k (op.deed? k)) := by
  have hsame {s' : Session} (hfront : s'.front = s.front) (ho : s'.operator = s.operator)
      (hc : s'.callers = s.callers) (hg : s'.generator.stage = s.generator.stage) :
      s'.Quiet k ∧ Alike k s'.front s.front :=
    ⟨⟨ho ▸ hs.operator, hg.trans hs.generator, hc ▸ hs.callers⟩, alike_of_eq hfront⟩
  cases op with
  | call c =>
    exact ⟨⟨fun _ _ _ => nofun, hs.generator, hs.callers⟩, alike_enter s c⟩
  | background c =>
    refine ⟨⟨hs.operator, hs.generator, fun url r timeout hmem => ?_⟩, .refl k _⟩
    rcases List.mem_append.mp hmem with hmem | hmem
    · exact hs.callers url r timeout hmem
    · cases List.mem_singleton.mp hmem
      exact foreground
  | join id =>
    show (s.join id).1.Quiet k ∧ Alike k (s.join id).1.front s.front
    unfold join
    split
    next =>
      refine ⟨⟨hs.operator, hs.generator, fun url r timeout hmem => ?_⟩, .refl k _⟩
      rcases List.mem_or_eq_of_mem_set hmem with hmem | heq
      · exact hs.callers url r timeout hmem
      · cases heq
    next => exact ⟨hs, .refl k _⟩
  | adjustHistory k' n =>
    refine ⟨⟨hs.operator, hs.generator, hs.callers⟩, ?_⟩
    by_cases hk : k' = k
    · subst hk
      rw [Operation.deed?, if_pos rfl]
      exact .refl k' _
    · rw [Operation.deed?, if_neg hk]
      exact ⟨rfl, rfl, rfl, Services.same_update hk _ _⟩
  | startFlushing url =>
    obtain ⟨hfront, ho, hc, hg⟩ := aside_cancelFlusher s
    exact hsame hfront ho hc (congrArg Generator.stage hg)
  | stopFlushing =>
    obtain ⟨hfront, ho, hc, hg⟩ := aside_cancelFlusher s
    exact hsame hfront ho hc (congrArg Generator.stage hg)
  | generate rounds => exact foreground.elim
  | startGenerator period => exact foreground.elim
  | stopGenerator =>
    show s.stopGenerator.Quiet k ∧ Alike k s.stopGenerator.front s.front
    unfold stopGenerator
    dsimp only
    split <;> exact hsame rfl rfl rfl rfl
  | startWorkers workers capacity => exact hsame (front_startWorkers _ _ _) rfl rfl rfl
  | identify i => exact ⟨⟨hs.operator, hs.generator, hs.callers⟩, .refl k _⟩
  | setClock now => exact ⟨⟨hs.operator, hs.generator, hs.callers⟩, .refl k _⟩
  | advanceClock millis => exact ⟨⟨hs.operator, hs.generator, hs.callers⟩, .refl k _⟩
  | _ => exact hsame rfl rfl rfl rfl

theorem collect_spares (hs : s.Quiet k) : Spares k s s.collect.1 := by
  have hkeep : Spares k s { s with operator := .free } :=
    ⟨⟨fun _ _ _ => nofun, hs.generator, hs.callers⟩, .refl k _⟩
  unfold collect
  split
  · exact hs.spares
  · exact hkeep
  · exact hkeep
  · exact hkeep
  · exact hs.spares

theorem conclude_spares (hs : s.Quiet k) (a : Answer) (op : Operation) :
    Spares k s (s.conclude a op).1 := by
  have hlasts := lasts_spares k s
  have hfinish := hlasts.finish hs.spares
  have hcollect := hfinish.trans (collect_spares hfinish.quiet)
  unfold conclude
  split
  · exact hcollect
  · exact hcollect
  · exact hlasts.settle hs.spares
  · exact hlasts.settle hs.spares
  · exact hlasts.settle hs.spares
  · dsimp only
    exact hlasts.advance _ hs.spares
  · exact hs.spares

/-- Whatever an operation sets in motion, it does to the records of a kind what it says. -/
theorem perform_front (hs : s.Quiet k) (free : s.operator.isFree) (foreground : op.Foreground k) :
    (s.perform op).1.Quiet k ∧ Alike k (s.perform op).1.front (s.acted k (op.deed? k)) := by
  obtain ⟨hquiet, halike⟩ := start_front hs foreground
  have hconclude := conclude_spares hquiet (s.start op).2 op
  unfold perform
  rw [if_pos free]
  exact ⟨hconclude.quiet, hconclude.alike.trans halike⟩

/-! ### Runs -/

/-- Between operations the operator is free, and nobody but it pushes records of the kind. -/
structure Poised (k : Kind) (s : Session) : Prop where
  reachable : s.Reachable
  free : s.operator.isFree
  quiet : s.Quiet k

theorem Poised.perform (hs : s.Poised k) (foreground : op.Foreground k) :
    (s.perform op).1.Poised k := by
  refine ⟨hs.reachable.comesTo (comesTo_perform s op), perform_isFree hs.reachable hs.free ?_,
    (perform_front hs.quiet hs.free foreground).1⟩
  rintro rounds rfl
  exact foreground

theorem foldl_act_alike {p p' : Front} (h : Alike k p p') (ds : List Deed) :
    Alike k (ds.foldl (Deed.act k) p) (ds.foldl (Deed.act k) p') := by
  induction ds generalizing p p' with
  | nil => exact h
  | cons d ds ih => exact ih (Deed.act_alike h d)

theorem Poised.performTimes (hs : s.Poised k) (foreground : op.Foreground k) (n : Nat) :
    (s.performTimes op n).1.Poised k ∧ Alike k (s.performTimes op n).1.front
      (((List.replicate n op).filterMap (·.deed? k)).foldl (Deed.act k) s.front) := by
  induction n generalizing s with
  | zero => exact ⟨hs, .refl k _⟩
  | succ n ih =>
    have hfirst := hs.perform foreground
    have hfront : Alike k (s.perform op).1.front
        (([op].filterMap (·.deed? k)).foldl (Deed.act k) s.front) := by
      have halike := (perform_front hs.quiet hs.free foreground).2
      unfold acted at halike
      cases hd : op.deed? k with
      | none => simpa [hd] using halike
      | some d => simpa [hd] using halike
    cases n with
    | zero => exact ⟨hfirst, hfront⟩
    | succ n =>
      obtain ⟨hrest, halike⟩ := ih hfirst
      have hsplit : (List.replicate (n + 2) op).filterMap (·.deed? k)
          = [op].filterMap (·.deed? k) ++ (List.replicate (n + 1) op).filterMap (·.deed? k) := by
        rw [← List.filterMap_append]
        rfl
      rw [hsplit, List.foldl_append]
      exact ⟨hrest, halike.trans (foldl_act_alike hfront _)⟩

def after (s : Session) : List (Operation × Nat) → Session
  | [] => s
  | (op, n) :: rest => (s.performTimes op n).1.after rest

/-- A run leaves what the deeds of its operations make of the beginning. -/
theorem Poised.after (hs : s.Poised k) {script : List (Operation × Nat)}
    (foreground : ∀ e ∈ script, e.1.Foreground k) : (s.after script).Poised k
      ∧ Alike k (s.after script).front ((deeds k script).foldl (Deed.act k) s.front) := by
  induction script generalizing s with
  | nil => exact ⟨hs, .refl k _⟩
  | cons e script ih =>
    obtain ⟨first, others⟩ := List.forall_mem_cons.mp foreground
    obtain ⟨hfirst, hfront⟩ := hs.performTimes first e.2
    obtain ⟨hlast, halike⟩ := ih hfirst others
    refine ⟨hlast, halike.trans ?_⟩
    unfold deeds
    rw [List.flatMap_cons, List.foldl_append]
    exact foldl_act_alike hfront _

theorem getLast?_run (s : Session) (script : List (Operation × Nat)) (op : Operation) :
    (s.run (script ++ [(op, 1)])).getLast?.map Prod.snd = some ((s.after script).perform op).2 := by
  induction script generalizing s with
  | nil => rfl
  | cons e script ih =>
    have hrest := ih (s.performTimes e.1 e.2).1
    obtain ⟨last, hlast, hanswer⟩ := Option.map_eq_some_iff.mp hrest
    rw [List.cons_append, run, List.getLast?_cons, hlast]
    exact congrArg some hanswer

theorem poised_create (k : Kind) (a : Assembly) (settings : Settings) (identity : Identity)
    (clock : Clock) (receiver : Receiver) (demo : AgentConfig) (chance : Chance) :
    (create a settings identity clock receiver demo chance).Poised k
      ∧ (create a settings identity clock receiver demo chance).front
        = ((a.system chance.clock).map SystemClock.services, clock, identity,
          .create settings.historyCapacity) := by
  refine ⟨⟨reachable_create a settings identity clock receiver demo chance, ?_, ?_⟩, ?_⟩
  · rw [create_eq]
    rfl
  · rw [create_eq]
    exact ⟨fun _ _ _ => nofun, rfl, fun _ _ _ hmem => nomatch hmem⟩
  · refine create_of_startWorkers (P := fun p => p.front = _) rfl fun p workers capacity hp => ?_
    rwa [front_startWorkers]

theorem size_congr (h : Services.Same k s.services s'.services) : s.size k = s'.size k := by
  unfold size
  rw [h.view?]

theorem size_ne_pending (s : Session) (k : Kind) : s.size k ≠ .pending := by
  cases k <;> exact nofun

/-- What is asked about the history of a kind is answered, and by what keeps the records. -/
theorem answer_congr (free : s.operator.isFree) (free' : s'.operator.isFree)
    (h : Alike k s.front s'.front) (asks : op.AsksFor k) :
    (s.perform op).2 = (s'.perform op).2 ∧ (s.perform op).2 ≠ .pending := by
  have hservices : Services.Same k s.services s'.services := h.services
  unfold perform
  rw [if_pos free, if_pos free']
  cases op with
  | history k' n =>
    obtain rfl : k' = k := asks
    refine ⟨?_, nofun⟩
    show Answer.records _ = Answer.records _
    rw [hservices.view? (·.recent n)]
  | historySize k' =>
    obtain rfl : k' = k := asks
    exact ⟨size_congr hservices, size_ne_pending s k'⟩
  | adjustHistory k' n =>
    obtain rfl : k' = k := asks
    exact ⟨size_congr (hservices.update (·.adjust n) k'), size_ne_pending _ k'⟩
  | describeService k' =>
    obtain rfl : k' = k := asks
    refine ⟨?_, nofun⟩
    show Answer.text _ = Answer.text _
    rw [hservices.view? (·.text)]
  | _ => exact asks.elim

/-- Two runs by hand-set clocks in which the same is done to the records of a kind, whatever else
is done in them and however the receivers answer: what is asked about the history of the kind next
gets the same answer in both. -/
theorem histories_isolated (k : Kind) {a a' : Assembly} (manual : a.stamps) (manual' : a'.stamps)
    {settings settings' : Settings}
    (capacity : settings.historyCapacity = settings'.historyCapacity)
    (identity : Identity) (clock : Clock) (receiver receiver' : Receiver) (demo demo' : AgentConfig)
    (chance chance' : Chance) {script script' : List (Operation × Nat)}
    (foreground : ∀ e ∈ script, e.1.Foreground k)
    (foreground' : ∀ e ∈ script', e.1.Foreground k) (same : deeds k script = deeds k script')
    (op : Operation) (asks : op.AsksFor k) :
    ∃ answer, answer ≠ .pending
      ∧ ((create a settings identity clock receiver demo chance).run
          (script ++ [(op, 1)])).getLast?.map Prod.snd = some answer
      ∧ ((create a' settings' identity clock receiver' demo' chance').run
          (script' ++ [(op, 1)])).getLast?.map Prod.snd = some answer := by
  obtain ⟨hs, hfront⟩ := poised_create k a settings identity clock receiver demo chance
  obtain ⟨hs', hfront'⟩ := poised_create k a' settings' identity clock receiver' demo' chance'
  obtain ⟨hlast, halike⟩ := hs.after foreground
  obtain ⟨hlast', halike'⟩ := hs'.after foreground'
  rw [hfront, a.system_of_stamps manual, capacity, same] at halike
  rw [hfront', a'.system_of_stamps manual'] at halike'
  obtain ⟨heq, hanswered⟩ := answer_congr hlast.free hlast'.free (halike.trans halike'.symm) asks
  exact ⟨_, hanswered, getLast?_run _ _ _, heq ▸ getLast?_run _ _ _⟩

/-- Two alarms, the second of which names its network element, at two times. -/
def twoAlarms : List (Operation × Nat) :=
  [(.call (.push "alarms" (.ok (.alarm { alarmId := "a" })) (.ofSecs 5)), 1), (.setClock 9, 1),
    (.call (.push "alarms" (.ok (.alarm { neUid := "cell" })) (.ofSecs 5)), 1)]

/-- The same two alarms, to where nobody answers, among workers, counters, flushes and records of
another kind. -/
def twoAlarmsAmongOthers : List (Operation × Nat) :=
  [(.startWorkers 1 1, 1), (.call (.push "sink" (.ok (.alarm { alarmId := "a" })) (.ofSecs 1)), 1),
    (.increment "calls", 3), (.startFlushing "kpi", 1), (.advance 700, 1), (.setClock 9, 1),
    (.background (.push "sink" (.ok (.stationState {})) (.ofSecs 9)), 2),
    (.call (.push "sink" (.ok (.alarm { neUid := "cell" })) (.ofSecs 2)), 1)]

theorem histories_isolated_twoAlarms :
    ((create .partsStarted { historyCapacity := 8 } { neUid := "station" } { now := 7 }
        [⟨"sink", [.crash, .hang]⟩] {}).run
      (twoAlarmsAmongOthers ++ [(.history .alarm 0, 1)])).getLast?.map Prod.snd
    = some (.records
        [Record.encode
            ({ neUid := "station", alarmSeq := 1, alarmId := "a", alarmTime := 7 } : Alarm),
          Record.encode ({ neUid := "cell", alarmSeq := 2, alarmTime := 9 } : Alarm)]) := by
  obtain ⟨answer, -, halone, hamong⟩ := @histories_isolated .alarm .parts .partsStarted rfl rfl
    { historyCapacity := 8 } { historyCapacity := 8 } rfl { neUid := "station" } { now := 7 } []
    [⟨"sink", [.crash, .hang]⟩] {} {} {} {} twoAlarms twoAlarmsAmongOthers
    (by simp [twoAlarms, Operation.Foreground])
    (by simp [twoAlarmsAmongOthers, Operation.Foreground, Report.kind]) rfl (.history .alarm 0) rfl
  exact hamong.trans (halone.symm.trans rfl)

end Session

end Uplink
