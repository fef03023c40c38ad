import Uplink.Proofs.Kpi.Acknowledged
/-!
The deeds done to the aggregator.  At every point of a session the aggregator is what its deeds so
far make of the first one, and from these deeds the flushes that do not land can be struck out.
-/
namespace Uplink

namespace Aggregator

/-- What is done to an aggregator: a counter is changed, a report of the counters departs, the
report under way lands, the turn to flush is given up, and with it a report still under way, or the
capacity of the history is adjusted. -/
inductive Deed where
  | count (c : Change)
  | depart (neUid : String) (now : Int64)
  | land
  | yield
  | adjust (n : Int)
  deriving DecidableEq, Repr

/-- A report samples the counters as they are when it departs. -/
def act (a : Aggregator) : Deed → Aggregator
  | .count c => a.count c
  | .depart neUid now => { a with flight := a.prepare neUid now }
  | .land => (a.flight.map a.land).getD a
  | .yield => a.abandon
  | .adjust n => { a with history := a.history.adjust n }

def actAll (a : Aggregator) (deeds : List Deed) : Aggregator := deeds.foldl act a

theorem actAll_append (a : Aggregator) (deeds deeds' : List Deed) :
    a.actAll (deeds ++ deeds') = (a.actAll deeds).actAll deeds' := List.foldl_append

namespace Deed

def lands : List Deed → Bool
  | [] | .depart _ _ :: _ | .yield :: _ => false
  | .land :: _ => true
  | .count _ :: deeds | .adjust _ :: deeds => lands deeds

/-- What is left of deeds once the flushes that do not land are struck out: of a flush that lands,
its departure and its landing. -/
def purge : List Deed → List Deed
  | [] => []
  | .depart neUid now :: deeds =>
    if lands deeds then .depart neUid now :: purge deeds else purge deeds
  | .yield :: deeds => purge deeds
  | deed :: deeds => deed :: purge deeds

/-- Whether this is more than a part of a flush that may come to nothing. -/
def lasts : Deed → Bool
  | depart _ _ | yield => false
  | _ => true

theorem purge_sublist (deeds : List Deed) : (purge deeds).Sublist deeds := by
  induction deeds with
  | nil => exact .refl _
  | cons deed deeds ih =>
    cases deed with
    | depart neUid now =>
      unfold purge
      split
      · exact ih.cons_cons _
      · exact ih.cons _
    | yield => exact ih.cons _
    | _ => exact ih.cons_cons _

/-- No change of a counter, no landing and no adjustment is struck out. -/
theorem filter_lasts_purge (deeds : List Deed) :
    (purge deeds).filter lasts = deeds.filter lasts := by
  induction deeds with
  | nil => rfl
  | cons deed deeds ih =>
    cases deed with
    | depart neUid now =>
      unfold purge
      split <;> exact ih
    | yield => exact ih
    | _ => exact congrArg (List.cons _) ih

theorem lands_purge (deeds : List Deed) : lands deeds → lands (purge deeds) := by
  induction deeds with
  | nil => exact id
  | cons deed deeds ih =>
    cases deed with
    | count c => exact ih
    | adjust n => exact ih
    | land => exact fun _ => rfl
    | depart neUid now => exact nofun
    | yield => exact nofun

/-- Every departure that is left is that of a report that lands. -/
theorem lands_of_suffix_purge (deeds : List Deed) {neUid : String} {now : Int64}
    {rest : List Deed} (h : .depart neUid now :: rest <:+ purge deeds) : lands rest := by
  have hskip {deed : Deed} {deeds : List Deed} (hne : deed.lasts)
      (h : .depart neUid now :: rest <:+ deed :: purge deeds) :
      .depart neUid now :: rest <:+ purge deeds := by
    refine (List.suffix_cons_iff.mp h).resolve_left fun heq => ?_
    rw [← (List.cons.inj heq).1] at hne
    cases hne
  induction deeds with
  | nil => simp [purge] at h
  | cons deed deeds ih =>
    cases deed with
    | depart neUid' now' =>
      unfold purge at h
      split at h
      next hlands =>
        rcases List.suffix_cons_iff.mp h with heq | h
        · rw [(List.cons.inj heq).2]
          exact lands_purge deeds hlands
        · exact ih h
      next => exact ih h
    | yield => exact ih h
    | _ => exact ih (hskip rfl h)

end Deed

open Deed

/-- Striking out the flushes that do not land leaves every aggregator what it becomes, but for the
report that is under way in the end.  In between, the aggregator without them has the report under
way exactly if it lands. -/
theorem actAll_purge {a b : Aggregator} {deeds : List Deed}
    (h : b = { a with flight := if lands deeds then a.flight else none }) :
    b.actAll (purge deeds) = (a.actAll deeds).abandon := by
  induction deeds generalizing a b with
  | nil => exact h
  | cons deed deeds ih =>
    subst h
    cases deed with
    | count c => exact ih rfl
    | adjust n => exact ih rfl
    | land =>
      refine ih (a := a.act .land) ?_
      cases hf : a.flight <;> simp [act, land, lands, hf]
    | yield =>
      refine ih (a := a.act .yield) ?_
      simp [act, abandon, lands]
    | depart neUid now =>
      by_cases hlands : lands deeds
      · rw [purge, if_pos hlands]
        refine ih (a := a.act (.depart neUid now)) ?_
        simp [act, hlands, prepare, report]
      · rw [purge, if_neg hlands]
        refine ih (a := a.act (.depart neUid now)) ?_
        simp [act, hlands, lands]

end Aggregator

/-! ### What the journal tells of them -/

open Aggregator

namespace Event

def deed? : Event → Option Deed
  | counted c => some (.count c)
  | departed _ f => some (.depart f.report.neUid f.report.recordTime)
  | landed _ _ => some .land
  | yielded _ | withdrawn _ => some .yield
  | _ => none

theorem deed?_of_not_ofAggregator {e : Event} (h : e.ofAggregator = false) : e.deed? = none := by
  cases e <;> first | rfl | cases h

theorem landing?_of_not_ofAggregator {e : Event} (h : e.ofAggregator = false) :
    e.landing? = none := by
  cases e <;> first | rfl | cases h

end Event

namespace Operation

/-- The one deed of an operation that the journal does not tell of. -/
def kpiDeed? : Operation → Option Deed
  | adjustKpiHistory n => some (.adjust n)
  | _ => none

end Operation

namespace Occurrence

def deed? : Occurrence → Option Deed
  | asked op => op.kpiDeed?
  | noted e => e.deed?
  | dropped _ | told _ _ => none

def landing? : Occurrence → Option (Task × KpiReport)
  | noted e => e.landing?
  | _ => none

end Occurrence

namespace Pipeline

variable {quits : Prop} {t : Task} {p p' : Pipeline} {h h' : Hand}

/-- The history apart, a step does to the aggregator what the journal says, and adds to the history
the reports that landed. -/
theorem Step.deeds (hs : Step quits t p h p' h') :
    ∃ es, p'.journal.events = es ++ p.journal.events
      ∧ ∀ r, { p.kpi with history := r }.actAll (es.reverse.filterMap Event.deed?)
        = { p'.kpi with
            history := (es.reverse.filterMap Event.landing?).foldl (fun r x => r.push x.2) r } := by
  obtain ⟨es, hj, hc⟩ := hs.kpiChange
  refine ⟨es, hj, fun r => ?_⟩
  generalize p'.kpi = a at hc
  cases hc with
  | none es hes hh =>
    have hdeeds : es.reverse.filterMap Event.deed? = [] :=
      List.filterMap_eq_nil_iff.mpr fun e he =>
        Event.deed?_of_not_ofAggregator (hes e (List.mem_reverse.mp he))
    have hlandings : es.reverse.filterMap Event.landing? = [] :=
      List.filterMap_eq_nil_iff.mpr fun e he =>
        Event.landing?_of_not_ofAggregator (hes e (List.mem_reverse.mp he))
    rw [hdeeds, hlandings]
    rfl
  | count c => rfl
  | @depart url f e q turn hf =>
    -- the report that departed says who made it and when
    have hprepare : p.kpi.prepare f.report.neUid f.report.recordTime = some f := by
      have hmade := hf
      unfold prepare at hmade
      split at hmade
      next => cases hmade
      next => cases hmade; exact hf
    show { p.kpi with history := r, flight := p.kpi.prepare f.report.neUid f.report.recordTime } = _
    rw [hprepare]
    rfl
  | @land f q hf accepted =>
    have hland : { p.kpi with history := r }.act .land
        = { p.kpi.land f with history := r.push f.report } := by
      simp [act, Aggregator.land, hf]
    unfold yields
    split
    · exact congrArg Aggregator.abandon hland
    · exact hland
  | abandon he turn => rcases he with rfl | rfl <;> rfl
  | adjust n => rfl

theorem Steps.deeds (hs : Steps quits t p h p' h') :
    ∃ es, p'.journal.events = es ++ p.journal.events
      ∧ ∀ r, { p.kpi with history := r }.actAll (es.reverse.filterMap Event.deed?)
        = { p'.kpi with
            history := (es.reverse.filterMap Event.landing?).foldl (fun r x => r.push x.2) r } := by
  induction hs with
  | refl => exact ⟨[], rfl, fun _ => rfl⟩
  | tail _ hl ih =>
    obtain ⟨es, hes, hdeeds⟩ := ih
    obtain ⟨es', hes', hdeeds'⟩ := hl.deeds
    refine ⟨es' ++ es, by rw [hes', hes, List.append_assoc], fun r => ?_⟩
    rw [List.reverse_append, List.filterMap_append, List.filterMap_append, List.foldl_append,
      actAll_append, hdeeds, hdeeds']

end Pipeline

namespace Session

open Pipeline

variable {s : Session}

/-- What a move adds to the journal is done to the aggregator, the history apart. -/
theorem move_noted_deeds (s : Session) (m : Move) (r : Ring KpiReport) :
    { s.kpi with history := r }.actAll ((s.noted m).filterMap Event.deed?)
      = { (s.move m).kpi with
          history := ((s.noted m).filterMap Event.landing?).foldl (fun r x => r.push x.2) r } := by
  rcases move_steps s m with ⟨_, t, ready, -, hsteps⟩ | ⟨hj, -, hkpi⟩
  · obtain ⟨es, hes, hdeeds⟩ := hsteps.deeds
    rw [noted_eq hes]
    exact hdeeds r
  · rw [noted_eq_nil (by rw [hj]), hkpi]
    rfl

/-- The reports that land in a move are those whose tasks are told that they were sent. -/
theorem landings_noted (hs : s.Steady) (m : Move) :
    (s.noted m).filterMap Event.landing?
      = (s.told m).filterMap fun (t, r) => r.sent?.map (t, ·) := by
  have hask : ((s.asked m).foldl Archive.ask s.archive).1 = s.journal.landings := by
    generalize s.asked m = ops
    show _ = s.archive.1
    generalize s.archive = a
    induction ops generalizing a with
    | nil => rfl
    | cons op ops ih =>
      refine (ih (a.ask op)).trans ?_
      cases op <;> rfl
  have hfiles : (s.move m).journal.landings = _ := congrArg Prod.fst (move_files hs m)
  rw [Archive.foldl_file, hask, Journal.landings_append (events_move s m),
    List.reverse_reverse] at hfiles
  exact List.append_cancel_left hfiles

/-- A move does to the aggregator what can be seen of it. -/
theorem move_deeds (hs : s.Steady) (m : Move) :
    (s.move m).kpi = s.kpi.actAll ((s.occurrences m).filterMap Occurrence.deed?) := by
  have hasked : s.kpi.actAll ((s.asked m).filterMap Operation.kpiDeed?)
      = { s.kpi with history := ((s.asked m).foldl Archive.ask s.archive).2 } := by
    unfold asked
    split
    next op =>
      split
      · cases op <;> rfl
      · rfl
    next => rfl
    next => rfl
  have hhistory : (s.move m).kpi.history
      = ((s.noted m).filterMap Event.landing?).foldl (fun r x => r.push x.2)
        ((s.asked m).foldl Archive.ask s.archive).2 := by
    have hfiles : (s.move m).kpi.history = _ := congrArg Prod.snd (move_files hs m)
    rwa [Archive.foldl_file, ← landings_noted hs m] at hfiles
  have hoccurrences : (s.occurrences m).filterMap Occurrence.deed?
      = (s.asked m).filterMap Operation.kpiDeed? ++ (s.noted m).filterMap Event.deed? := by
    have htold : (s.told m).filterMap (fun (t, r) => Occurrence.deed? (.told t r)) = [] :=
      List.filterMap_eq_nil_iff.mpr fun _ _ => rfl
    rw [filterMap_occurrences fun _ => rfl, htold, List.append_nil]
    rfl
  rw [hoccurrences, actAll_append, hasked, move_noted_deeds, ← hhistory]

/-- What can be seen of a run is all that is done to the aggregator in it. -/
theorem follow_deeds (h : s.Reachable) (moves : List Move) :
    (s.follow moves).kpi = s.kpi.actAll ((s.trace moves).filterMap Occurrence.deed?) := by
  induction moves generalizing s with
  | nil => rfl
  | cons m moves ih =>
    have hmove := move_deeds h.lined_steady.2 m
    rw [trace, List.filterMap_append, actAll_append, ← hmove]
    exact ih (h.comesTo (comesTo_move s m))

/-- The reports that land in a run are those whose tasks are told that they were sent. -/
theorem landings_trace (h : s.Reachable) (moves : List Move) :
    (s.trace moves).filterMap Occurrence.landing?
      = (s.trace moves).filterMap Occurrence.sent? := by
  induction moves generalizing s with
  | nil => rfl
  | cons m moves ih =>
    have hmove : (s.occurrences m).filterMap Occurrence.landing?
        = (s.noted m).filterMap Event.landing? := by
      have hasked : (s.asked m).filterMap (fun op => Occurrence.landing? (.asked op)) = [] :=
        List.filterMap_eq_nil_iff.mpr fun _ _ => rfl
      have htold : (s.told m).filterMap (fun (t, r) => Occurrence.landing? (.told t r)) = [] :=
        List.filterMap_eq_nil_iff.mpr fun _ _ => rfl
      rw [filterMap_occurrences fun _ => rfl, hasked, htold, List.nil_append, List.append_nil]
      rfl
    rw [trace, List.filterMap_append, List.filterMap_append, hmove,
      landings_noted h.lined_steady.2 m, sent?_occurrences, ih (h.comesTo (comesTo_move s m))]

end Session

end Uplink
