import Uplink.Proofs.Session.Noted
/-!
What a step of the pipeline does to the aggregator, and the events that tell of it: a counter is
changed, a report departs, lands or is given up, or the history is adjusted.
-/
namespace Uplink

namespace Event

/-- Events that tell of the aggregator. -/
def ofAggregator : Event → Bool
  | counted _ | departed _ _ | landed _ _ | yielded _ | withdrawn _ => true
  | _ => false

end Event

namespace Pipeline

theorem kpi_leave (p : Pipeline) (t : Task) (e : Event) :
    (p.leave t e).kpi = if p.line.head? = some t then p.kpi.abandon else p.kpi := by
  unfold leave
  dsimp only
  split <;> rfl

/-- How a step on behalf of a task changes the aggregator, and what it notes. -/
inductive KpiChange (t : Task) (p : Pipeline) : Hand → Aggregator → List Event → Hand → Prop
  | none {h h'} (es : List Event) (hes : ∀ e ∈ es, e.ofAggregator = false)
    (hh : h'.isFlushing = h.isFlushing ∨ h' = .free ∧ p.line.head? ≠ some t) :
    KpiChange t p h p.kpi es h'
  | count {h} (c : Change) : KpiChange t p h (p.kpi.count c) [.counted c] h
  | depart {url f e q} (turn : p.line.head? = some t)
    (hf : p.kpi.prepare p.identity.neUid p.reportStamp = some f) :
    KpiChange t p (.waiting (.queueing url)) (p.kpi.depart f) [.posted t .report e, .departed t f]
      (.waiting (.flushing q))
  | land {f q} (hf : p.kpi.flight = some f) (accepted : q.outcome = .accepted) :
    KpiChange t p (.waiting (.flushing q)) (p.kpi.land f) (p.yields t ++ [.landed t f]) .free
  | abandon {h} {e : Event} (he : e = .yielded t ∨ e = .withdrawn t)
    (turn : p.line.head? = some t) : KpiChange t p h p.kpi.abandon [e] .free
  | adjust {h} (n : Int) :
    KpiChange t p h { p.kpi with history := p.kpi.history.adjust n } [] h

/-- Every step changes the aggregator in one of these ways. -/
theorem Step.kpiChange {t : Task} {p p' : Pipeline} {h h' : Hand} (hs : Step quits t p h p' h') :
    ∃ es, p'.journal.events = es ++ p.journal.events ∧ KpiChange t p h p'.kpi es h' := by
  have hleave {h : Hand} {p₀ : Pipeline} {e : Event} (he : e = .yielded t ∨ e = .withdrawn t)
      (hj : p₀.journal = p.journal) (hl : p₀.line = p.line) (hk : p₀.kpi = p.kpi) :
      ∃ es, (p₀.leave t e).journal.events = es ++ p.journal.events
        ∧ KpiChange t p h (p₀.leave t e).kpi es .free := by
    refine ⟨p₀.yields t e, by rw [events_leave, hj], ?_⟩
    rw [kpi_leave, hk, yields, hl]
    split
    next turn => exact .abandon he turn
    next turn => exact .none [] (by simp) (.inr ⟨rfl, turn⟩)
  cases hs with
  | log l => exact ⟨[.logged l], rfl, .none _ (by simp [Event.ofAggregator]) (.inl rfl)⟩
  | start workers capacity =>
    exact ⟨[], by rw [journal_startWorkers]; rfl, kpi_startWorkers p workers capacity ▸
      .none [] (by simp) (.inl rfl)⟩
  | count c => exact ⟨[.counted c], rfl, .count c⟩
  | call c hc => exact ⟨[_], rfl, .none _ (by simp [Event.ofAggregator]) (.inl rfl)⟩
  | @queue _ _ c j _ p₁ d hs hd =>
    obtain ⟨hj, -, hk, -⟩ := hs.noted
    refine ⟨[.queued t j, .submitted t j, .called t c], ?_, ?_⟩
    · show .queued t j :: p₁.journal.events = _
      rw [hj]
      rfl
    · show KpiChange t p _ p₁.kpi _ _
      exact hk ▸ .none _ (by simp [Event.ofAggregator]) (.inl rfl)
  | @divert _ _ c j deadline p₁ _ line _ _ hs hd hq =>
    cases hq
    obtain ⟨hj, -, hk, -⟩ := hs.noted
    refine ⟨[.posted t .fallback ⟨p₁.now, j.url, j.body, deadline⟩, .diverted t j, .logged line,
      .submitted t j, .called t c], ?_, ?_⟩
    · show _ :: .diverted t j :: .logged line :: p₁.journal.events = _
      rw [hj]
      rfl
    · show KpiChange t p _ p₁.kpi _ _
      exact hk ▸ .none _ (by simp [Event.ofAggregator]) (.inl rfl)
  | deliver due =>
    rw [deliver_eq]
    exact ⟨[_], rfl, .none _ (by simp [Event.ofAggregator]) (.inl rfl)⟩
  | direct url body deadline hq =>
    cases hq
    exact ⟨[_], rfl, .none _ (by simp [Event.ofAggregator]) (.inl rfl)⟩
  | answered due => exact ⟨[], rfl, .none _ (by simp) (.inl rfl)⟩
  | seek idle hd => exact ⟨[], rfl, .none _ (by simp) (.inl rfl)⟩
  | take idle hd hq =>
    cases hq
    exact ⟨[_, _], rfl, .none _ (by simp [Event.ofAggregator]) (.inl rfl)⟩
  | @finish w _ q busy due =>
    refine ⟨_, events_noteAll _ _, .none _ (fun e he => ?_) (.inl rfl)⟩
    rcases mem_finish (List.mem_reverse.mp he) with rfl | ⟨l, rfl⟩ | ⟨k, crashed, rfl⟩ | rfl <;> rfl
  | join url => exact ⟨[], rfl, .none _ (by simp) (.inl rfl)⟩
  | skip turn hf => exact hleave (.inl rfl) rfl rfl rfl
  | depart turn hf hq => cases hq; exact ⟨[_, _], rfl, .depart turn hf⟩
  | @land _ _ f q due hf accepted =>
    refine ⟨p.yields t ++ [.landed t f], by simp [yields]; rfl, ?_⟩
    have hkpi : (({ p with kpi := p.kpi.land f }.note (.landed t f)).leave t).kpi
        = p.kpi.land f := by
      rw [kpi_leave]
      split <;> rfl
    rw [hkpi]
    exact .land hf accepted
  | fail due hf => exact hleave (.inl rfl) rfl rfl rfl
  | withdraw hh => exact hleave (.inr rfl) rfl rfl rfl
  | setTimer due later => exact ⟨[], rfl, .none _ (by simp) (.inl rfl)⟩
  | dropTimers => exact ⟨[], rfl, .none _ (by simp) (.inl rfl)⟩
  | resume => exact ⟨[], rfl, .none _ (by simp) (.inl rfl)⟩
  | wake u => exact ⟨[], rfl, .none _ (by simp) (.inl rfl)⟩
  | shown j hj => exact ⟨[], hj, .none _ (by simp) (.inl rfl)⟩
  | moveClock clock => exact ⟨[_], rfl, .none _ (by simp [Event.ofAggregator]) (.inl rfl)⟩
  | identify identity => exact ⟨[_], rfl, .none _ (by simp [Event.ofAggregator]) (.inl rfl)⟩
  | adjust k n => exact ⟨[_], rfl, .none _ (by simp [Event.ofAggregator]) (.inl rfl)⟩
  | adjustReports n => exact ⟨[], rfl, .adjust n⟩

end Pipeline

end Uplink
