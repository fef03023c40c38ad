import Uplink.Proofs.Kpi.Apart
import Uplink.Proofs.Kpi.Stamps
/-!
What a report that lands takes out of the counters.  Of a counter that was only added to since the
report departed, just that is left; one that was set, deleted or created since is left alone.
-/
namespace Uplink

namespace Counters

variable {k : String} {during before : List Event}

/-- Of a counter that was only added to since the sample, what was added is left. -/
theorem amount_settle_of_kept (aloft : ∀ e ∈ during, e.lands = false)
    (kept : ∀ e ∈ during, e.overrides k = false)
    (sampled : ((replay before).cells.get? k).isSome) :
    (((replay (during ++ before)).settle (replay before).cells).cells.get? k).map Cell.amount
      = if (during.map (Event.added k)).sum = 0 then none
        else some (during.map (Event.added k)).sum := by
  obtain ⟨s, hs⟩ := Option.isSome_iff_exists.mp sampled
  rw [get?_settle, get?_replay_of_kept aloft kept hs, hs, Option.bind_some]
  generalize (during.map (Event.added k)).sum = sum
  show (remainder { s with amount := s.amount + sum } s).map Cell.amount = _
  by_cases hsum : sum = 0
  · simp [remainder, hsum]
  · simp [remainder, hsum]

/-- A counter that was not in the sample, or that was set or deleted since, is left alone. -/
theorem get?_settle_of_renewed (aloft : ∀ e ∈ during, e.lands = false)
    (few : issued (during ++ before) < 2 ^ 64)
    (renewed : (replay before).cells.get? k = none ∨ ∃ e ∈ during, e.overrides k) :
    ((replay (during ++ before)).settle (replay before).cells).cells.get? k
      = (replay (during ++ before)).cells.get? k := by
  rw [get?_settle]
  cases hs : (replay before).cells.get? k with
  | none => simp
  | some s =>
    have overridden : ∃ e ∈ during, e.overrides k := renewed.resolve_left (by simp [hs])
    cases hcell : (replay (during ++ before)).cells.get? k with
    | none => rfl
    | some cell =>
      obtain ⟨m, hm, hsample⟩ := (stamped_replay before).cells k s hs
      obtain ⟨n, hlow, hhigh, hstamp⟩ := stamp_replay_of_overridden aloft overridden hcell
      have hne : cell.stamp ≠ s.stamp := by
        rw [hstamp, hsample]
        exact (ofNat_ne_ofNat (by omega) (by omega)).symm
      exact if_pos hne

end Counters

namespace Event

/-- Events that tell of reports under way. -/
def ofFlight : Event → Bool
  | departed _ _ | landed _ _ | yielded _ | withdrawn _ => true
  | _ => false

/-- The report under way after such events, the newest of them first, and whose it is. -/
def flying : List Event → Option (Task × Flight)
  | [] => none
  | .departed t f :: _ => some (t, f)
  | .landed _ _ :: _ => none
  | .yielded _ :: _ | .withdrawn _ :: _ => none
  | _ :: es => flying es

variable {e : Event} {es : List Event}

theorem lands_of_not_ofFlight (h : e.ofFlight = false) : e.lands = false := by
  cases e <;> first | rfl | exact absurd h (by simp [ofFlight])

theorem ofFlight_of_not_ofAggregator (h : e.ofAggregator = false) : e.ofFlight = false := by
  cases e <;> first | rfl | exact absurd h (by simp [ofAggregator])

theorem flying_cons (h : e.ofFlight = false) : flying (e :: es) = flying es := by
  cases e <;> first | rfl | exact absurd h (by simp [ofFlight])

/-- A report under way has departed, and nothing befell it since. -/
theorem exists_departed {t : Task} {f : Flight} (h : flying es = some (t, f)) :
    ∃ during earlier, es = during ++ .departed t f :: earlier
      ∧ ∀ e ∈ during, e.ofFlight = false := by
  induction es with
  | nil => simp [flying] at h
  | cons e es ih =>
    by_cases he : e.ofFlight = false
    · rw [flying_cons he] at h
      obtain ⟨during, earlier, heq, hduring⟩ := ih h
      refine ⟨e :: during, earlier, by rw [heq, List.cons_append], fun e' he' => ?_⟩
      rcases List.mem_cons.mp he' with rfl | he'
      · exact he
      · exact hduring e' he'
    · cases e with
      | departed u g =>
        cases h
        exact ⟨[], es, rfl, by simp⟩
      | landed u g => simp [flying] at h
      | yielded u => simp [flying] at h
      | withdrawn u => simp [flying] at h
      | _ => exact absurd rfl he

end Event

namespace Pipeline

open Event

variable {quits : Prop} {t : Task} {p p' : Pipeline} {h' : Hand} {hands : Task → Hand}

/-- What the journal tells of the counters and of the reports: the counters are what it makes of
them, a report departs with a sample of them, and only a report under way lands. -/
structure Recounts (p : Pipeline) (hands : Task → Hand) : Prop where
  counters : p.kpi.counters = Counters.replay p.journal.events
  flight : p.kpi.flight = (flying p.journal.events).map Prod.snd
  holder : ∀ t f, flying p.journal.events = some (t, f) → (hands t).isFlushing
  departures : ∀ newer t f older, p.journal.events = newer ++ .departed t f :: older →
    f.sample = (Counters.replay older).cells
  landings : ∀ newer t f older, p.journal.events = newer ++ .landed t f :: older →
    flying older = some (t, f)

/-- In a list to which others were added, an event is among those added or was there before. -/
theorem append_eq_append_cons {es events newer older : List Event} {e : Event}
    (h : es ++ events = newer ++ e :: older) :
    (∃ rest, es = newer ++ e :: rest ∧ older = rest ++ events)
      ∨ ∃ newer', events = newer' ++ e :: older := by
  rcases List.append_eq_append_iff.mp h with ⟨rest, hnewer, hevents⟩ | ⟨rest, hes, hrest⟩
  · exact .inr ⟨rest, hevents⟩
  · cases rest with
    | nil => exact .inr ⟨[], hrest.symm⟩
    | cons e' rest =>
      obtain ⟨rfl, rfl⟩ := List.cons_eq_cons.mp hrest
      exact .inl ⟨rest, hes, rfl⟩

theorem replay_quiet {es : List Event} (events : List Event)
    (quiet : ∀ e ∈ es, e.ofAggregator = false) :
    Counters.replay (es ++ events) = Counters.replay events
      ∧ flying (es ++ events) = flying events := by
  induction es with
  | nil => exact ⟨rfl, rfl⟩
  | cons e es ih =>
    obtain ⟨hreplay, hflying⟩ := ih fun e he => quiet e (List.mem_cons_of_mem _ he)
    have he := quiet e List.mem_cons_self
    refine ⟨?_, (flying_cons (ofFlight_of_not_ofAggregator he)).trans hflying⟩
    rw [← hreplay]
    cases e <;> first | rfl | exact absurd he (by simp [Event.ofAggregator])

/-- Only departures and landings have to be looked at. -/
theorem Recounts.of_events (hr : p.Recounts hands) {es : List Event}
    (hj : p'.journal.events = es ++ p.journal.events)
    (counters : p'.kpi.counters = Counters.replay p'.journal.events)
    (flight : p'.kpi.flight = (flying p'.journal.events).map Prod.snd)
    (holder : ∀ u f, flying p'.journal.events = some (u, f) →
      (Function.update hands t h' u).isFlushing)
    (departures : ∀ newer u f older, es = newer ++ .departed u f :: older →
      f.sample = (Counters.replay (older ++ p.journal.events)).cells)
    (landings : ∀ newer u f older, es = newer ++ .landed u f :: older →
      flying (older ++ p.journal.events) = some (u, f)) :
    p'.Recounts (Function.update hands t h') where
  counters := counters
  flight := flight
  holder := holder
  departures newer u f older heq := by
    rw [hj] at heq
    rcases append_eq_append_cons heq with ⟨rest, hes, rfl⟩ | ⟨newer', hevents⟩
    · exact departures newer u f rest hes
    · exact hr.departures newer' u f older hevents
  landings newer u f older heq := by
    rw [hj] at heq
    rcases append_eq_append_cons heq with ⟨rest, hes, rfl⟩ | ⟨newer', hevents⟩
    · exact landings newer u f rest hes
    · exact hr.landings newer' u f older hevents

theorem Recounts.plain (hr : p.Recounts hands) {es : List Event}
    (hj : p'.journal.events = es ++ p.journal.events)
    (counters : p'.kpi.counters = Counters.replay p'.journal.events)
    (flight : p'.kpi.flight = (flying p'.journal.events).map Prod.snd)
    (holder : ∀ u f, flying p'.journal.events = some (u, f) →
      (Function.update hands t h' u).isFlushing)
    (neither : ∀ u f, .departed u f ∉ es ∧ .landed u f ∉ es) :
    p'.Recounts (Function.update hands t h') := by
  refine hr.of_events hj counters flight holder ?_ ?_
  · intro newer u f older heq
    exact absurd (heq ▸ List.mem_append_right _ List.mem_cons_self) (neither u f).1
  · intro newer u f older heq
    exact absurd (heq ▸ List.mem_append_right _ List.mem_cons_self) (neither u f).2

/-- A report departs with a sample of the counters. -/
theorem Recounts.depart (hr : p.Recounts hands) {neUid : String} {now : Int64} {f : Flight}
    {e : PostEntry} {q : Posting} (hf : p.kpi.prepare neUid now = some f)
    (hj : p'.journal.events = [.posted t .report e, .departed t f] ++ p.journal.events)
    (hkpi : p'.kpi = p.kpi.depart f) :
    p'.Recounts (Function.update hands t (.waiting (.flushing q))) := by
  apply hr.of_events hj
  · rw [hkpi, hj]
    exact hr.counters
  · rw [hkpi, hj]
    rfl
  · intro u g hu
    rw [hj] at hu
    cases hu
    rw [Function.update_self]
    rfl
  · intro newer u g older heq
    rcases newer with _ | ⟨e', _ | ⟨e'', newer⟩⟩ <;> simp at heq
    obtain ⟨-, ⟨rfl, rfl⟩, rfl⟩ := heq
    rw [Aggregator.sample_prepare hf, hr.counters]
    rfl
  · intro newer u g older heq
    have hmem : Event.landed u g ∈ [Event.posted t .report e, .departed t f] :=
      heq ▸ List.mem_append_right _ List.mem_cons_self
    simp at hmem

/-- The report that lands is the one under way, and of the task that has the turn. -/
theorem Recounts.land (hp : p.Lined hands) (hr : p.Recounts hands) {f : Flight}
    (turn : p.line.head? = some t) (hf : p.kpi.flight = some f)
    (hj : p'.journal.events = [.yielded t, .landed t f] ++ p.journal.events)
    (hkpi : p'.kpi = p.kpi.land f) : p'.Recounts (Function.update hands t .free) := by
  have hflying : flying p.journal.events = some (t, f) := by
    have hflight := hr.flight
    rw [hf] at hflight
    obtain ⟨⟨u, g⟩, hu, rfl⟩ := Option.map_eq_some_iff.mp hflight.symm
    rw [hu, hp.eq_of_turn turn (hr.holder u g hu)]
  apply hr.of_events hj
  · rw [hkpi, hj]
    show p.kpi.counters.settle f.sample = (Counters.replay p.journal.events).settle f.sample
    rw [hr.counters]
  · rw [hkpi, hj]
    rfl
  · intro u g hu
    rw [hj] at hu
    cases hu
  · intro newer u g older heq
    have hmem : Event.departed u g ∈ [Event.yielded t, .landed t f] :=
      heq ▸ List.mem_append_right _ List.mem_cons_self
    simp at hmem
  · intro newer u g older heq
    rcases newer with _ | ⟨e', _ | ⟨e'', newer⟩⟩ <;> simp at heq
    obtain ⟨-, ⟨rfl, rfl⟩, rfl⟩ := heq
    exact hflying

/-- A report that is given up leaves the counters as they are. -/
theorem Recounts.abandon (hr : p.Recounts hands) {e : Event}
    (he : e = .yielded t ∨ e = .withdrawn t)
    (hj : p'.journal.events = [e] ++ p.journal.events)
    (hkpi : p'.kpi = p.kpi.abandon) : p'.Recounts (Function.update hands t .free) := by
  have hnone : flying p'.journal.events = none := by
    rw [hj]
    rcases he with rfl | rfl <;> rfl
  apply hr.plain hj
  · rw [hkpi, hj]
    rcases he with rfl | rfl <;> exact hr.counters
  · rw [hkpi, hnone]
    rfl
  · intro u g hu
    rw [hnone] at hu
    cases hu
  · rcases he with rfl | rfl <;> simp

/-- Whoever has a report under way still has it, unless its task comes to something else. -/
theorem Recounts.holder_update (hr : p.Recounts hands)
    (keeps : h'.isFlushing = (hands t).isFlushing) (u : Task) (f : Flight)
    (hu : flying p.journal.events = some (u, f)) : (Function.update hands t h' u).isFlushing := by
  rw [update_same keeps]
  exact hr.holder u f hu

theorem Recounts.step (hs : Step quits t p (hands t) p' h') (hp : p.Lined hands)
    (hr : p.Recounts hands) : p'.Recounts (Function.update hands t h') := by
  obtain ⟨es, hj, hchange⟩ := hs.kpiChange
  generalize hh : hands t = h at hchange
  generalize hkpi : p'.kpi = a at hchange
  cases hchange with
  | none es quiet hkeep =>
    obtain ⟨hreplay, hflying⟩ := replay_quiet p.journal.events quiet
    have keeps := hp.isFlushing_eq (hh ▸ hkeep)
    apply hr.plain hj
    · rw [hkpi, hj, hreplay, hr.counters]
    · rw [hkpi, hj, hflying, hr.flight]
    · rw [hj, hflying]
      exact hr.holder_update keeps
    · intro u f
      constructor <;> intro he <;> simpa [Event.ofAggregator] using quiet _ he
  | count c =>
    apply hr.plain hj
    · rw [hkpi, hj]
      show p.kpi.counters.apply c = (Counters.replay p.journal.events).apply c
      rw [hr.counters]
    · rw [hkpi, hj]
      exact hr.flight
    · rw [hj]
      exact hr.holder_update (by rw [hh])
    · simp
  | depart turn hf => exact hr.depart hf hj hkpi
  | @land f q hf accepted =>
    have turn := hp.turn t (by rw [hh]; rfl)
    have hyields : p.yields t = [.yielded t] := if_pos turn
    rw [hyields] at hj
    exact hr.land hp turn hf hj hkpi
  | abandon he turn => exact hr.abandon he hj hkpi
  | adjust n =>
    apply hr.plain hj
    · rw [hkpi, hj]
      exact hr.counters
    · rw [hkpi, hj]
      exact hr.flight
    · rw [hj]
      exact hr.holder_update (by rw [hh])
    · simp

theorem recounts_of_fresh (hp : p.Fresh) : p.Recounts fun _ => .free := by
  obtain ⟨settings, hkpi⟩ := hp.kpi
  constructor
  · rw [hkpi, hp.events]
    rfl
  · rw [hkpi, hp.events]
    rfl
  · intro t f ht
    rw [hp.events] at ht
    cases ht
  · intro newer t f older heq
    simp [hp.events] at heq
  · intro newer t f older heq
    simp [hp.events] at heq

theorem invariant_recounts : Invariant fun p hands => p.Lined hands ∧ p.Recounts hands := by
  refine .of_timeless (fun hs hp => ⟨hp.1.step hs, hp.2.step hs hp.1⟩) fun _ _ _ _ _ hp => ?_
  obtain ⟨lined, counters, flight, holder, departures, landings⟩ := hp
  exact ⟨timeless_lined _ _ _ _ _ lined, counters, flight, holder, departures, landings⟩

end Pipeline

namespace Session

open Pipeline Counters

variable {s : Session}

/-- At every point of every session the counters are what the journal makes of them.  A report that
lands had departed with a sample of the counters, and neither departed nor landed any other since.
As long as fewer than `2 ^ 64` stamps were given out, it leaves of each counter in the sample that
was neither set nor deleted since just what was added, and nothing if that comes to zero; every
other counter it leaves as the changes since the departure left it. -/
theorem settled_exactly (h : s.Reachable) :
    s.kpi.counters = replay s.journal.events
    ∧ ∀ after t f before, s.journal.events = after ++ .landed t f :: before →
      issued before < 2 ^ 64 →
      ∃ during earlier, before = during ++ .departed t f :: earlier
        ∧ (∀ e ∈ during, e.ofFlight = false)
        ∧ f.sample = (replay earlier).cells
        ∧ replay before = (during.reverse.filterMap Event.change?).foldl apply (replay earlier)
        ∧ ∀ k,
          ((f.sample.get? k).isSome → (∀ e ∈ during, e.overrides k = false) →
            ((replay (.landed t f :: before)).cells.get? k).map Cell.amount
              = if (during.map (Event.added k)).sum = 0 then none
                else some (during.map (Event.added k)).sum)
          ∧ (f.sample.get? k = none ∨ (∃ e ∈ during, e.overrides k) →
            (replay (.landed t f :: before)).cells.get? k = (replay before).cells.get? k) := by
  obtain ⟨-, counters, -, -, departures, landings⟩ :=
    h.keeps invariant_recounts fun _ hp => ⟨lined_of_fresh hp, recounts_of_fresh hp⟩
  refine ⟨counters, fun after t f before heq few => ?_⟩
  obtain ⟨during, earlier, rfl, hduring⟩ := Event.exists_departed (landings after t f before heq)
  have hsample : f.sample = (replay earlier).cells :=
    departures (after ++ .landed t f :: during) t f earlier (by rw [heq]; simp)
  have aloft : ∀ e ∈ during, e.lands = false := fun e he =>
    Event.lands_of_not_ofFlight (hduring e he)
  -- the departure itself changes no counter
  have hbefore : replay earlier = replay (.departed t f :: earlier) := rfl
  refine ⟨during, earlier, rfl, hduring, hsample, replay_append aloft, fun k => ⟨?_, ?_⟩⟩
  · intro sampled kept
    show (((replay _).settle f.sample).cells.get? k).map Cell.amount = _
    rw [hsample, hbefore] at sampled ⊢
    exact amount_settle_of_kept aloft kept sampled
  · intro renewed
    show ((replay _).settle f.sample).cells.get? k = _
    rw [hsample, hbefore] at renewed ⊢
    exact get?_settle_of_renewed aloft few renewed

/-- A report under way that is about to land: since it departed, one counter of it grew, another was
deleted and created again with what it held, a third was not touched, and a fourth is new. -/
def landing : Session :=
  (create .parts {} {} {} [⟨"", [.status ⟨200⟩ 5]⟩] {}).follow
    [.start (.increment "calls"), .start (.increment "drops"), .start (.increment "peers"),
      .start (.background (.flush "kpi")), .turn (.caller 0),
      .start (.increment "calls"), .start (.increment "calls"), .start (.increment "cells"),
      .start (.deleteCounter "drops"), .start (.increment "drops"), .elapse 5]

def landed : Session := landing.move (.turn (.caller 0))

theorem settled_exactly_landed :
    issued landing.journal.events < 2 ^ 64
    ∧ (∃ during : List Event, (∀ e ∈ during, e ∈ landing.journal.events)
      ∧ (landed.kpi.counters.cells.get? "calls").map Cell.amount
        = if (during.map (Event.added "calls")).sum = 0 then none
          else some (during.map (Event.added "calls")).sum)
    ∧ landed.kpi.counters.cells.get? "drops" = landing.kpi.counters.cells.get? "drops"
    ∧ landed.kpi.counters.cells.get? "cells" = landing.kpi.counters.cells.get? "cells" := by
  have few : issued landing.journal.events < 2 ^ 64 := by decide +kernel
  let f : Flight := landing.kpi.flight.getD ⟨.empty, landing.kpi.report "" 0⟩
  have journal : landed.journal.events
      = [.yielded (.caller 0)] ++ .landed (.caller 0) f :: landing.journal.events := rfl
  have reachable : landed.Reachable :=
    Reachable.comesTo ⟨_, _, _, _, _, _, _, _, rfl⟩ (comesTo_move landing (.turn (.caller 0)))
  have before : landing.Reachable := ⟨_, _, _, _, _, _, _, _, rfl⟩
  obtain ⟨counters, settles⟩ := settled_exactly reachable
  obtain ⟨during, earlier, hbefore, -, -, -, settled⟩ := settles _ _ _ _ journal few
  have hlanded :
      landed.kpi.counters = replay (.landed (.caller 0) f :: landing.journal.events) := by
    rw [counters, journal]
    rfl
  have hlanding : landing.kpi.counters = replay landing.journal.events :=
    (settled_exactly before).1
  have hsubset : ∀ e ∈ during, e ∈ landing.journal.events := fun e he =>
    hbefore ▸ List.mem_append_left _ he
  rw [hlanded, hlanding]
  refine ⟨few, ⟨during, hsubset, ?_⟩, ?_, ?_⟩
  · refine (settled "calls").1 (by decide +kernel) fun e he => ?_
    have kept : ∀ e ∈ landing.journal.events, e.overrides "calls" = false := by decide +kernel
    exact kept e (hsubset e he)
  · refine (settled "drops").2 (.inr ?_)
    have newest : landing.journal.events =
        .counted (.add "drops" 1000) :: .counted (.delete "drops")
        :: landing.journal.events.drop 2 := rfl
    rw [newest] at hbefore
    rcases during with _ | ⟨e, _ | ⟨e', during⟩⟩ <;> simp at hbefore
    obtain ⟨-, rfl, -⟩ := hbefore
    exact ⟨_, List.mem_cons_of_mem _ List.mem_cons_self, rfl⟩
  · exact (settled "cells").2 (.inl (by decide +kernel))

end Session

end Uplink
