import Uplink.Proofs.Kpi.Changes
import Uplink.Proofs.Kpi.Waiting
/-!
Flushes come one after the other.  The journal tells which flush is under way, from its departure
until its task yields the turn, and no flush departs before.
-/
namespace Uplink

namespace Event

/-- Events that tell who has the turn to flush. -/
def ofTurn : Event → Bool
  | departed _ _ | yielded _ | withdrawn _ => true
  | _ => false

theorem ofTurn_of_not_ofAggregator {e : Event} (h : e.ofAggregator = false) : e.ofTurn = false := by
  cases e <;> simp_all [ofAggregator, ofTurn]

end Event

namespace Journal

/-- The task whose flush is under way after such events, the newest of them first. -/
def underWay : List Event → Option Task
  | [] => none
  | .departed t _ :: _ => some t
  | .yielded _ :: _ | .withdrawn _ :: _ => none
  | _ :: events => underWay events

/-- No flush departs while another one is under way. -/
def Apart (events : List Event) : Prop :=
  ∀ newer t f older, events = newer ++ .departed t f :: older → underWay older = none

variable {es events : List Event}

theorem underWay_append (hes : ∀ e ∈ es, e.ofTurn = false) :
    underWay (es ++ events) = underWay events := by
  induction es with
  | nil => rfl
  | cons e es ih =>
    rw [← ih fun e' he' => hes e' (List.mem_cons_of_mem _ he')]
    have he := hes e List.mem_cons_self
    cases e <;> first | rfl | simp [Event.ofTurn] at he

theorem Apart.cons (h : Apart events) {e : Event}
    (he : ∀ t f, e = .departed t f → underWay events = none) : Apart (e :: events) := by
  intro newer t f older heq
  cases newer with
  | nil =>
    obtain ⟨rfl, rfl⟩ := List.cons_eq_cons.mp heq
    exact he t f rfl
  | cons e' newer =>
    obtain ⟨rfl, rfl⟩ := List.cons_eq_cons.mp heq
    exact h newer t f older rfl

theorem Apart.append (h : Apart events) (hes : ∀ e ∈ es, e.ofTurn = false) :
    Apart (es ++ events) := by
  induction es with
  | nil => exact h
  | cons e es ih =>
    refine (ih fun e' he' => hes e' (List.mem_cons_of_mem _ he')).cons fun t f heq => ?_
    have he := hes e List.mem_cons_self
    simp [heq, Event.ofTurn] at he

end Journal

namespace Pipeline

open Journal

variable {quits : Prop} {t : Task} {p p' : Pipeline} {h' : Hand} {hands : Task → Hand}

structure Flown (p : Pipeline) (hands : Task → Hand) : Prop where
  apart : Apart p.journal.events
  flying : ∀ t, underWay p.journal.events = some t ↔ (hands t).isFlushing

/-- Whoever waits for the POST of a report has the turn. -/
theorem Lined.eq_of_turn (hp : p.Lined hands) (turn : p.line.head? = some t) {u : Task}
    (hu : (hands u).isFlushing) : u = t :=
  Option.some_inj.mp ((hp.turn u hu).symm.trans turn)

theorem Flown.quiet (hf : p.Flown hands) {es : List Event} (hes : ∀ e ∈ es, e.ofTurn = false)
    (hj : p'.journal.events = es ++ p.journal.events)
    (hh : h'.isFlushing = (hands t).isFlushing) : p'.Flown (Function.update hands t h') := by
  refine ⟨hj ▸ hf.apart.append hes, fun u => ?_⟩
  rw [hj, underWay_append hes, hf.flying, update_same hh]

/-- Who has the turn gives it up with nothing in hand. -/
theorem Flown.yield (hp : p.Lined hands) (hf : p.Flown hands) (turn : p.line.head? = some t)
    {e : Event} (he : e = .yielded t ∨ e = .withdrawn t)
    (es : List Event) (hes : ∀ e ∈ es, e.ofTurn = false)
    (hj : p'.journal.events = e :: (es ++ p.journal.events)) :
    p'.Flown (Function.update hands t .free) := by
  have hnone : Journal.underWay p'.journal.events = none := by
    rw [hj]
    rcases he with rfl | rfl <;> rfl
  refine ⟨hj ▸ (hf.apart.append hes).cons (by rcases he with rfl | rfl <;> simp), fun u => ?_⟩
  rw [hnone]
  refine iff_of_false (by simp) fun hu => ?_
  by_cases hut : u = t
  · simp [hut, Hand.isFlushing] at hu
  · rw [Function.update_of_ne hut] at hu
    exact hut (hp.eq_of_turn turn hu)

theorem Flown.step (hs : Step quits t p (hands t) p' h') (hp : p.Lined hands) (hf : p.Flown hands) :
    p'.Flown (Function.update hands t h') := by
  obtain ⟨es, hj, hchange⟩ := hs.kpiChange
  generalize hh : hands t = h at hchange
  generalize p'.kpi = a at hchange
  cases hchange with
  | none es hes hkeep =>
    exact hf.quiet (fun e he => Event.ofTurn_of_not_ofAggregator (hes e he)) hj
      (hp.isFlushing_eq (hh ▸ hkeep))
  | count c => exact hf.quiet (by simp [Event.ofTurn]) hj (by rw [hh])
  | adjust n => exact hf.quiet (by simp) hj (by rw [hh])
  | @depart url f e q turn hprepare =>
    have hnone : Journal.underWay p.journal.events = none := by
      rw [Option.eq_none_iff_forall_ne_some]
      intro u hu
      have hflushing := (hf.flying u).mp hu
      rw [hp.eq_of_turn turn hflushing, hh] at hflushing
      simp [Hand.isFlushing] at hflushing
    refine ⟨?_, fun u => ?_⟩
    · rw [hj]
      exact (hf.apart.cons fun _ _ _ => hnone).cons (by simp)
    · have hsome : Journal.underWay p'.journal.events = some t := by
        rw [hj]
        rfl
      rw [hsome]
      by_cases hu : u = t
      · subst hu
        rw [Function.update_self]
        exact iff_of_true rfl rfl
      · rw [Function.update_of_ne hu]
        refine iff_of_false (fun heq => hu (Option.some_inj.mp heq).symm) fun hflushing => ?_
        exact hu (hp.eq_of_turn turn hflushing)
  | @land f q hflight accepted =>
    have turn : p.line.head? = some t := hp.turn t (by rw [hh]; rfl)
    have hyields : p.yields t = [.yielded t] := if_pos turn
    rw [hyields] at hj
    exact hf.yield hp turn (.inl rfl) [.landed t f] (by simp [Event.ofTurn]) hj
  | abandon he turn => exact hf.yield hp turn he [] (by simp) hj

/-- A flush departs only if no other task is first in line. -/
theorem Steps.departed {h : Hand} (hs : Steps quits t p h p' h') :
    ∃ es, p'.journal.events = es ++ p.journal.events
      ∧ ∀ u f, .departed u f ∈ es → ∀ v, p.line.head? = some v → v = u := by
  induction hs with
  | refl => exact ⟨[], rfl, by simp⟩
  | @tail p' h' p'' h'' hs hl ih =>
    obtain ⟨es, hes, hfirst⟩ := ih
    obtain ⟨es', hes', hchange⟩ := hl.kpiChange
    refine ⟨es' ++ es, by rw [hes', hes, List.append_assoc], fun u f he v hv => ?_⟩
    rcases List.mem_append.mp he with he | he
    · -- only the first in line departs, and it was first in line before the steps
      generalize p''.kpi = a at hchange
      cases hchange with
      | none es hquiet _ => exact absurd (hquiet _ he) (by simp [Event.ofAggregator])
      | @depart url f' e q turn hprepare =>
        have hu : u = t := (by simpa using he : u = t ∧ f = f').1
        rw [hu]
        by_contra hvt
        exact hvt (Option.some_inj.mp ((hs.head?_line hvt hv).symm.trans turn))
      | @land f' q hflight accepted =>
        simp [mem_yields] at he
      | abandon hlast _ => rcases hlast with rfl | rfl <;> simp at he
      | _ => simp at he
    · exact hfirst u f he v hv

end Pipeline

end Uplink
