import Uplink.Proofs.Kpi.Account
/-!
The pipeline keeps to the account of the reports.  Whatever a task does, the account follows it by
the events that it notes; what has to be known besides is that a task that quits was dismissed.
-/
namespace Uplink

namespace Pipeline

/-- What the account tells of, but for the reports that were kept. -/
def outlook (p : Pipeline) :
    Nat × Option (Nat → Int64) × Clock × Identity × Receiver × Counters × Option Flight × Duration
      × Duration :=
  (p.now, p.system.map SystemClock.aggregator, p.clock, p.identity, p.receiver, p.kpi.counters,
    p.kpi.flight, p.kpi.granularity, p.kpi.flushTimeout)

@[simp] theorem outlook_startWorkers (p : Pipeline) (workers capacity : Nat) :
    (p.startWorkers workers capacity).outlook = p.outlook := by
  unfold startWorkers
  split <;> rfl

theorem Submits.outlook_eq {t : Task} {p p' : Pipeline} {call : Call} {j : Job}
    {deadline : Duration} (hs : Submits t p call j deadline p') : p'.outlook = p.outlook := by
  cases hs with
  | submit url body deadline => exact outlook_startWorkers _ 0 0
  | push url r timeout hr =>
    rw [outlook_startWorkers]
    unfold outlook
    cases h : p.system <;> simp [note, SystemClock.readBy, h]

end Pipeline

namespace Account

open Pipeline

variable {quits : Prop} {c : Account} {p p₁ p' : Pipeline} {hands : Task → Hand} {t : Task}
  {h h' : Hand} {q : Posting} {f : Flight} {x : Attempt} {es : List Event}

/-- The pipeline is as the account tells, and whoever has a report under way waits for the POST that
the account knows of. -/
structure Tells (c : Account) (p : Pipeline) (hands : Task → Hand) : Prop where
  times : ∀ n, (p.system.map SystemClock.aggregator).map (· n)
    = c.times.map (· (c.attempts.length + n))
  now : p.clock.now = c.now
  neUid : p.identity.neUid = c.neUid
  granularity : p.kpi.granularity.secs = c.granularity
  receiver : p.receiver = c.receiver
  counters : p.kpi.counters = c.counters
  flight : p.kpi.flight = c.flight.map Attempt.flight
  flying : ∀ x, c.flight = some x → hands x.task = .waiting (.flushing x.posting)
  posts : p.journal.reports = c.attempts.map fun x => (x.task, x.entry)
  landings : p.journal.landings = c.acknowledged.map fun x => (x.task, x.report)
  carried : ∀ x ∈ c.attempts, x.Carries p.kpi.flushTimeout
  timely : ∀ x ∈ c.finished, x.cancelled = false → x.due ≤ p.now
  dismissed : ∀ x ∈ c.finished, x.cancelled → x.dismissed

/-- The account follows from one pipeline to another by the events between. -/
def Tracks (c : Account) (p p' : Pipeline) (hands : Task → Hand) : Prop :=
  ∃ es, p'.journal.events = es ++ p.journal.events ∧ (hearAll es c).Tells p' hands

theorem Tells.tracks (hc : c.Tells p hands) : c.Tracks p p hands := ⟨[], rfl, hc⟩

theorem Tracks.trans {hands' : Task → Hand} (h : c.Tracks p p₁ hands)
    (h' : ∀ es, (hearAll es c).Tells p₁ hands → (hearAll es c).Tracks p₁ p' hands') :
    c.Tracks p p' hands' := by
  obtain ⟨es, hes, htells⟩ := h
  obtain ⟨es', hes', htells'⟩ := h' es htells
  exact ⟨es' ++ es, by rw [hes', hes, List.append_assoc], hearAll_append es' es c ▸ htells'⟩

/-! ### Events that tell of no report -/

theorem deaf (hes : ∀ e ∈ es, e.ofReports = false) (c : Account) :
    hearAll es c = c ∧ es.reverse.filterMap Event.landing? = []
      ∧ es.reverse.filterMap Event.report? = [] := by
  refine ⟨List.foldrRecOn (motive := (· = c)) es hear rfl fun c' hc e he => Eq.trans ?_ hc,
    List.filterMap_eq_nil_iff.mpr fun e he => ?_, List.filterMap_eq_nil_iff.mpr fun e he => ?_⟩
  · have he := hes e he
    cases e <;> first | rfl | simp [Event.ofReports] at he
  · have he := hes e (List.mem_reverse.mp he)
    cases e <;> first | rfl | simp [Event.ofReports] at he
  · have he := hes e (List.mem_reverse.mp he)
    cases e <;> first | rfl | simp [Event.ofReports] at he

theorem Tells.flying_update (hc : c.Tells p hands)
    (hh : hands t = h' ∨ (hands t).isFlushing = false) :
    ∀ x, c.flight = some x →
      Function.update hands t h' x.task = .waiting (.flushing x.posting) := by
  intro x hx
  have hwaits := hc.flying x hx
  by_cases ht : x.task = t
  · rw [ht] at hwaits ⊢
    rw [Function.update_self]
    rcases hh with hsame | hfree
    · rw [← hsame, hwaits]
    · simp [hwaits, Hand.isFlushing] at hfree
  · rw [Function.update_of_ne ht, hwaits]

theorem Tells.of_outlook_eq (hc : c.Tells p hands) (hlook : p'.outlook = p.outlook)
    (hreports : p'.journal.reports = p.journal.reports)
    (hlandings : p'.journal.landings = p.journal.landings) : c.Tells p' hands := by
  simp only [outlook, Prod.mk.injEq] at hlook
  obtain ⟨hnow, htimes, hclock, hidentity, hreceiver, hcounters, hflight, hg, htimeout⟩ := hlook
  exact {
    times := htimes ▸ hc.times
    now := hclock ▸ hc.now
    neUid := hidentity ▸ hc.neUid
    granularity := hg ▸ hc.granularity
    receiver := hreceiver.trans hc.receiver
    counters := hcounters.trans hc.counters
    flight := hflight.trans hc.flight
    flying := hc.flying
    posts := hreports.trans hc.posts
    landings := hlandings.trans hc.landings
    carried := htimeout ▸ hc.carried
    timely := hnow ▸ hc.timely
    dismissed := hc.dismissed }

/-- What tells of no report changes nothing that the account tells of. -/
theorem Tells.quiet (hc : c.Tells p hands) (es : List Event)
    (hj : p'.journal.events = es ++ p.journal.events) (hes : ∀ e ∈ es, e.ofReports = false)
    (hlook : p'.outlook = p.outlook) (hh : hands t = h' ∨ (hands t).isFlushing = false) :
    c.Tracks p p' (Function.update hands t h') := by
  obtain ⟨hsame, hlandings, hreports⟩ := deaf hes c
  have htells := hc.of_outlook_eq hlook (Journal.reports_eq hj hreports)
    (Journal.landings_eq hj hlandings)
  refine ⟨es, hj, ?_⟩
  rw [hsame]
  exact { htells with flying := hc.flying_update hh }

/-- A POST of anything but a report takes an answer of the receiver. -/
theorem Tells.post {aim : Aim} (hc : c.Tells p hands) (haim : aim ≠ .report) (h' : Hand)
    (url : String) (body : Octets) (deadline : Duration) (hh : (hands t).isFlushing = false) :
    c.Tracks p (p.post t aim url body deadline).1 (Function.update hands t h') := by
  have hj : (p.post t aim url body deadline).1.journal.events
      = [.posted t aim ⟨p.now, url, body, deadline⟩] ++ p.journal.events := rfl
  refine ⟨_, hj, ?_⟩
  have hpost : hearAll [.posted t aim ⟨p.now, url, body, deadline⟩] c
      = { c with receiver := (c.receiver.answer url).2 } := by
    cases aim <;> first | rfl | exact absurd rfl haim
  have hreports : [Event.posted t aim ⟨p.now, url, body, deadline⟩].reverse.filterMap
      Event.report? = [] := by
    cases aim <;> first | rfl | exact absurd rfl haim
  rw [hpost]
  exact { hc with
    receiver := congrArg (fun r => (Receiver.answer url r).2) hc.receiver
    flying := hc.flying_update (.inr hh)
    posts := (Journal.reports_eq hj hreports).trans hc.posts
    landings := (Journal.landings_eq hj rfl).trans hc.landings }

theorem Tells.count (hc : c.Tells p hands) (change : Change) :
    c.Tracks p (p.count change) hands := by
  have hj : (p.count change).journal.events = [.counted change] ++ p.journal.events := rfl
  refine ⟨_, hj, ?_⟩
  exact { hc with
    counters := congrArg (Counters.apply · change) hc.counters
    posts := (Journal.reports_eq hj rfl).trans hc.posts
    landings := (Journal.landings_eq hj rfl).trans hc.landings }

theorem Tells.moveClock (hc : c.Tells p hands) (clock : Clock) :
    c.Tracks p ({ p with clock }.note (.clockMoved clock.now)) hands := by
  have hj : ({ p with clock }.note (.clockMoved clock.now)).journal.events
      = [.clockMoved clock.now] ++ p.journal.events := rfl
  refine ⟨_, hj, ?_⟩
  exact { hc with
    now := rfl
    posts := (Journal.reports_eq hj rfl).trans hc.posts
    landings := (Journal.landings_eq hj rfl).trans hc.landings }

theorem Tells.identify (hc : c.Tells p hands) (identity : Identity) :
    c.Tracks p ({ p with identity }.note (.identified identity)) hands := by
  have hj : ({ p with identity }.note (.identified identity)).journal.events
      = [.identified identity] ++ p.journal.events := rfl
  refine ⟨_, hj, ?_⟩
  exact { hc with
    neUid := rfl
    posts := (Journal.reports_eq hj rfl).trans hc.posts
    landings := (Journal.landings_eq hj rfl).trans hc.landings }

/-! ### Attempts -/

theorem Tells.task_eq (hc : c.Tells p hands) (lined : p.Lined hands)
    (turn : p.line.head? = some t) (hx : c.flight = some x) : x.task = t :=
  lined.eq_of_turn turn (by rw [hc.flying x hx]; rfl)

theorem Tells.flight_eq_none (hc : c.Tells p hands) (lined : p.Lined hands)
    (turn : p.line.head? = some t) (hh : (hands t).isFlushing = false) : c.flight = none := by
  rw [Option.eq_none_iff_forall_ne_some]
  intro x hx
  have hwaits := hc.flying x hx
  rw [hc.task_eq lined turn hx] at hwaits
  simp [hwaits, Hand.isFlushing] at hh

theorem Tells.reportStamp_eq (hc : c.Tells p hands) : p.reportStamp = c.stamp := by
  have htimes := hc.times 0
  unfold Pipeline.reportStamp stamp
  rw [Option.map_map] at htimes
  rw [hc.now]
  exact congrArg (·.getD c.now) htimes

/-- A report departs as the account expects it. -/
theorem Tells.depart (hc : c.Tells p hands) (url : String) (lined : p.Lined hands)
    (turn : p.line.head? = some t) (hh : (hands t).isFlushing = false)
    (hf : p.kpi.prepare p.identity.neUid p.reportStamp = some f) :
    c.Tracks p
      ((p.launch t f).post t .report url
        (Record.encode f.report) p.kpi.flushTimeout).1
      (Function.update hands t (.waiting (.flushing
        ((p.launch t f).post t .report url
          (Record.encode f.report) p.kpi.flushTimeout).2))) := by
  have hnone := hc.flight_eq_none lined turn hh
  obtain ⟨hfull, rfl⟩ : p.kpi.counters.cells.isEmpty = false
      ∧ f = ⟨c.counters.cells, c.report⟩ := by
    unfold Aggregator.prepare at hf
    split at hf
    next => exact absurd hf (by simp)
    next hfull =>
      refine ⟨by simpa using hfull, (Option.some.inj hf).symm.trans ?_⟩
      unfold Aggregator.report Account.report
      rw [hc.counters, hc.neUid, hc.reportStamp_eq, hc.granularity]
  let e : PostEntry := ⟨p.now, url, Record.encode c.report, p.kpi.flushTimeout⟩
  let x : Attempt :=
    { task := t, entry := e, sample := c.counters.cells, report := c.report
      reply := (c.receiver.answer url).1 }
  have hcarries : x.Carries p.kpi.flushTimeout :=
    ⟨rfl, rfl, by rwa [hc.counters] at hfull, fun k => Dictionary.get?_map _ _ k⟩
  have hhear : hearAll [.posted t .report e, .departed t ⟨c.counters.cells, c.report⟩] c
      = { c with receiver := (c.receiver.answer url).2, flight := some x } := rfl
  have hattempts : ({ c with receiver := (c.receiver.answer url).2, flight := some x } :
      Account).attempts = c.attempts ++ [x] := by
    simp [attempts, hnone]
  have hj : ((p.launch t ⟨c.counters.cells, c.report⟩).post t .report url
        (Record.encode c.report) p.kpi.flushTimeout).1.journal.events
      = [.posted t .report e, .departed t ⟨c.counters.cells, c.report⟩] ++ p.journal.events := rfl
  refine ⟨_, hj, ?_⟩
  rw [hhear]
  exact { hc with
    times := fun n => by
      have hread := hc.times (n + 1)
      rw [hattempts, List.length_append, List.length_singleton, Nat.add_assoc, Nat.add_comm 1 n,
        ← hread]
      show ((p.system.map _).map _).map _ = (p.system.map _).map _
      rw [Option.map_map, Option.map_map, Option.map_map]
      rfl
    receiver := congrArg (fun r => (Receiver.answer url r).2) hc.receiver
    flight := rfl
    flying := by
      rintro _ ⟨⟩
      rw [Function.update_self]
      show _ = Hand.waiting (.flushing (.ofReply url p.now p.kpi.flushTimeout
        (c.receiver.answer url).1))
      rw [← hc.receiver]
      rfl
    posts := by
      rw [hattempts, List.map_append, ← hc.posts]
      exact Journal.reports_append hj
    landings := (Journal.landings_eq hj rfl).trans hc.landings
    carried := by
      rw [hattempts]
      intro y hy
      rcases List.mem_append.mp hy with hy | hy
      · exact hc.carried y hy
      · exact List.mem_singleton.mp hy ▸ hcarries }

/-- What the account tells of the attempts once the one under way is over, at its time or because
its flush was given up. -/
theorem Tells.ended (hc : c.Tells p hands) (hx : c.flight = some x) (cancelled : Bool)
    (hend : if cancelled then c.dismisses x.task else x.due ≤ p.now) :
    (p.journal.reports = (c.finished ++ [c.ended x cancelled]).map fun x => (x.task, x.entry))
      ∧ (∀ y ∈ c.finished ++ [c.ended x cancelled], y.Carries p.kpi.flushTimeout)
      ∧ (∀ y ∈ c.finished ++ [c.ended x cancelled], y.cancelled = false → y.due ≤ p.now)
      ∧ ∀ y ∈ c.finished ++ [c.ended x cancelled], y.cancelled → y.dismissed := by
  have hattempts : c.attempts = c.finished ++ [x] := by simp [attempts, hx]
  have hposts := hc.posts
  have hcarried := hc.carried
  rw [hattempts] at hposts hcarried
  refine ⟨hposts.trans (by simp), fun y hy => ?_, fun y hy kept => ?_, fun y hy quit => ?_⟩ <;>
    rcases List.mem_append.mp hy with hy | hy
  · exact hcarried y (List.mem_append_left _ hy)
  · obtain rfl := List.mem_singleton.mp hy
    exact { hcarried x (by simp) with }
  · exact hc.timely y hy kept
  · obtain rfl := List.mem_singleton.mp hy
    obtain rfl : cancelled = false := kept
    exact hend
  · exact hc.dismissed y hy quit
  · obtain rfl := List.mem_singleton.mp hy
    obtain rfl : cancelled = true := quit
    exact hend

/-- A task gives up its turn to flush or its place in line.  A report of its own that is under way
is lost: the task was dismissed and quits, or the POST was not accepted. -/
theorem Tells.leave {e : Event} (cancelled : Bool) (hc : c.Tells p hands) (lined : p.Lined hands)
    (he : ∀ c, hear e c = c.close cancelled) (quiet : e.landing? = none ∧ e.report? = none)
    (lost : ∀ x, c.flight = some x → x.task = t →
      if cancelled then c.dismisses t else x.accepted = false ∧ x.due ≤ p.now) :
    c.Tracks p (p.leave t e) (Function.update hands t .free) := by
  by_cases turn : p.line.head? = some t
  · have heq : p.leave t e = ({ p with line := p.line.erase t, kpi := p.kpi.abandon }.note
        e).wakeFirst (p.line.erase t) := if_pos turn
    have hj : (p.leave t e).journal.events = [e] ++ p.journal.events := by
      rw [heq]
      rfl
    have hlandings := Journal.landings_eq hj (by simp [quiet.1])
    have hreports := Journal.reports_eq hj (by simp [quiet.2])
    refine ⟨_, hj, ?_⟩
    show (hear e c).Tells _ _
    rw [he]
    rw [heq] at hlandings hreports ⊢
    cases hx : c.flight with
    | none =>
      rw [close_of_none hx]
      exact { hc with
        flight := by rw [hx]; rfl
        flying := by simp [hx]
        posts := hreports.trans hc.posts
        landings := hlandings.trans hc.landings }
    | some x =>
      have htask := hc.task_eq lined turn hx
      have hlost := lost x hx htask
      have hack : (c.ended x cancelled).acknowledged = false := by
        rw [acknowledged_ended]
        cases cancelled with
        | true => simp
        | false => simp [show x.accepted = false from hlost.1]
      have hend : if cancelled then c.dismisses x.task else x.due ≤ p.now := by
        cases cancelled with
        | true => exact htask ▸ hlost
        | false => exact hlost.2
      obtain ⟨hposts, hcarried, timely, dismissed⟩ := hc.ended hx cancelled hend
      rw [close_of_lost hx hack]
      exact { hc with
        times := fun n => (hc.times n).trans (by simp [attempts, hx])
        flight := rfl
        flying := by simp
        posts := hreports.trans (by rwa [attempts_of_none rfl])
        landings := by
          refine hlandings.trans (hc.landings.trans ?_)
          simp [acknowledged, hack]
        carried := by rwa [attempts_of_none rfl]
        timely, dismissed }
  · have heq : p.leave t e = { p with line := p.line.erase t } := if_neg turn
    rw [heq]
    exact hc.quiet [] rfl (by simp) rfl (.inr (lined.isFlushing_eq_false turn))

/-- The attempt of a task that waits for the POST of a report. -/
theorem Tells.attempt (hc : c.Tells p hands) (lined : p.Lined hands)
    (hh : hands t = .waiting (.flushing q)) :
    ∃ x, c.flight = some x ∧ p.kpi.flight = some x.flight ∧ x.task = t ∧ x.posting = q := by
  have hflushing : (hands t).isFlushing := by rw [hh]; rfl
  have hsome := lined.flight.mpr ⟨t, hflushing⟩
  have hflight := hc.flight
  cases hx : c.flight with
  | none => simp [hx] at hflight; simp [hflight] at hsome
  | some x =>
    have htask := hc.task_eq lined (lined.turn t hflushing) hx
    have hwaits := hc.flying x hx
    rw [htask, hh] at hwaits
    cases hwaits
    exact ⟨x, rfl, by simpa [hx] using hflight, htask, rfl⟩

/-- A task that did not wait for the POST of a report yields, and nothing is lost. -/
theorem Tells.skip (hc : c.Tells p hands) (lined : p.Lined hands) (turn : p.line.head? = some t)
    (hh : (hands t).isFlushing = false) : c.Tracks p (p.leave t) (Function.update hands t .free) :=
  hc.leave false lined (fun _ => rfl) ⟨rfl, rfl⟩ fun x hx _ => by
    simp [hc.flight_eq_none lined turn hh] at hx

/-- A POST that was not accepted is over. -/
theorem Tells.fail (hc : c.Tells p hands) (lined : p.Lined hands)
    (hh : hands t = .waiting (.flushing q)) (due : q.due ≤ p.now)
    (hf : p.kpi.flight = none ∨ q.outcome ≠ .accepted) :
    c.Tracks p (p.leave t) (Function.update hands t .free) := by
  obtain ⟨x, hx, hflight, -, rfl⟩ := hc.attempt lined hh
  refine hc.leave false lined (fun _ => rfl) ⟨rfl, rfl⟩ fun y hy _ => ?_
  cases hx.symm.trans hy
  have refused := hf.resolve_left (by simp [hflight])
  rw [ne_eq, x.outcome_posting] at refused
  exact ⟨by simpa using refused, x.due_posting ▸ due⟩

/-- A POST that was accepted is over. -/
theorem Tells.land (hc : c.Tells p hands) (lined : p.Lined hands)
    (hh : hands t = .waiting (.flushing q)) (due : q.due ≤ p.now) (hf : p.kpi.flight = some f)
    (accepted : q.outcome = .accepted) :
    c.Tracks p (({ p with kpi := p.kpi.land f }.note (.landed t f)).leave t)
      (Function.update hands t .free) := by
  have turn : p.line.head? = some t := lined.turn t (by rw [hh]; rfl)
  obtain ⟨x, hx, hflight, htask, rfl⟩ := hc.attempt lined hh
  cases hf.symm.trans hflight
  have heq : ({ p with kpi := p.kpi.land x.flight }.note (.landed t x.flight)).leave t
      = ({ { p with kpi := p.kpi.land x.flight }.note (.landed t x.flight) with
            line := p.line.erase t, kpi := (p.kpi.land x.flight).abandon }.note
          (.yielded t)).wakeFirst (p.line.erase t) := if_pos turn
  have hj : (({ p with kpi := p.kpi.land x.flight }.note
      (.landed t x.flight)).leave t).journal.events
      = [.yielded t, .landed t x.flight] ++ p.journal.events := by
    rw [heq]
    rfl
  refine ⟨_, hj, ?_⟩
  show (c.close false).Tells _ _
  rw [heq] at hj ⊢
  have hack : (c.ended x false).acknowledged := by
    rw [acknowledged_ended, Bool.not_false, Bool.and_true]
    exact x.outcome_posting.mp accepted
  obtain ⟨hposts, hcarried, timely, dismissed⟩ := hc.ended hx false (x.due_posting ▸ due)
  rw [close_of_acknowledged hx hack]
  exact { hc with
    times := fun n => (hc.times n).trans (by simp [attempts, hx])
    counters := congrArg (Counters.settle · x.sample) hc.counters
    flight := rfl
    flying := by simp
    posts := (Journal.reports_eq hj rfl).trans (by rwa [attempts_of_none rfl])
    landings := by
      have hlanding : [Event.yielded t, .landed t x.flight].reverse.filterMap Event.landing?
          = [(t, x.report)] := rfl
      rw [Journal.landings_append hj, hc.landings, hlanding, ← htask, acknowledged, acknowledged,
        List.filter_append, List.map_append, List.filter_cons_of_pos hack]
      rfl
    carried := by rwa [attempts_of_none rfl]
    timely, dismissed }

/-! ### Steps -/

/-- The account follows every step of a task that does not quit before it was dismissed. -/
theorem Tells.step (hc : c.Tells p hands) (lined : p.Lined hands) (hq : quits → c.dismisses t)
    (hs : Step quits t p (hands t) p' h') : c.Tracks p p' (Function.update hands t h') := by
  have hself : Function.update hands t (hands t) = hands := Function.update_eq_self t hands
  generalize hh : hands t = h at hs
  cases hs with
  | log l => exact hc.quiet [.logged l] rfl (by simp [Event.ofReports]) rfl (.inl hh)
  | start workers capacity =>
    exact hc.quiet [] (by simp) (by simp) (outlook_startWorkers p workers capacity) (.inl hh)
  | count change =>
    rw [← hh, hself]
    exact hc.count change
  | call call hcall => exact hc.quiet [_] rfl (by simp [Event.ofReports]) rfl (.inl hh)
  | @queue _ _ call j _ p₁ d hs hd =>
    refine hc.quiet [.queued t j, .submitted t j, .called t call] ?_ (by simp [Event.ofReports])
      hs.outlook_eq (.inl hh)
    show .queued t j :: p₁.journal.events = _
    rw [hs.noted.1]
    rfl
  | @divert _ _ call j deadline p₁ _ line _ _ hs hd hq =>
    cases hq
    have hquiet : c.Tracks p ({ p₁.note (.logged line) with
        dispatcher := p₁.dispatcher.countFallback }.note (.diverted t j)) hands := by
      rw [← hself]
      refine hc.quiet [.diverted t j, .logged line, .submitted t j, .called t call] ?_
        (by simp [Event.ofReports]) hs.outlook_eq (.inl rfl)
      show .diverted t j :: .logged line :: p₁.journal.events = _
      rw [hs.noted.1]
      rfl
    exact hquiet.trans fun es hc => hc.post (by simp) _ _ _ _ (by rw [hh]; rfl)
  | deliver due =>
    rw [deliver_eq]
    exact hc.quiet [_] rfl (by simp [Event.ofReports]) rfl (.inr (by rw [hh]; rfl))
  | direct url body deadline hq =>
    cases hq
    exact hc.post (by simp) _ _ _ _ (by rw [hh]; rfl)
  | answered due => exact hc.quiet [] rfl (by simp) rfl (.inr (by rw [hh]; rfl))
  | seek idle hd => exact hc.quiet [] rfl (by simp) rfl (.inl hh)
  | @take w _ d j _ _ idle hd hq =>
    cases hq
    have hquiet : c.Tracks p (({ p with dispatcher := d }.note (.taken w j)).wakeFirst
        (d.line.map .worker)) hands := by
      rw [← hself]
      exact hc.quiet [.taken w j] rfl (by simp [Event.ofReports]) rfl (.inl rfl)
    have hdelivery : Aim.delivery ≠ .report := by simp
    have hpost := hquiet.trans fun es hc =>
      hc.post hdelivery .free j.url j.body d.workerTimeout (by rw [hh]; rfl)
    obtain ⟨es, hes, htells⟩ := hpost
    exact ⟨es, hes, { htells with }⟩
  | finish busy due =>
    refine hc.quiet _ (events_noteAll _ _) (fun e he => ?_) rfl (.inl hh)
    rcases mem_finish (List.mem_reverse.mp he) with rfl | ⟨l, rfl⟩ | ⟨k, crashed, rfl⟩ | rfl <;> rfl
  | join url => exact hc.quiet [] rfl (by simp) rfl (.inr (by rw [hh]; rfl))
  | skip turn hf => exact hc.skip lined turn (by rw [hh]; rfl)
  | depart turn hf hq =>
    cases hq
    exact hc.depart _ lined turn (by rw [hh]; rfl) hf
  | land due hf accepted => exact hc.land lined hh due hf accepted
  | fail due hf => exact hc.fail lined hh due hf
  | withdraw _ gone =>
    have hdrop : c.Tells (p.dropTimers t) hands := { hc with }
    exact hdrop.leave true ⟨lined.nodup, lined.mem_line, lined.turn, lined.flight⟩
      (fun _ => rfl) ⟨rfl, rfl⟩ fun _ _ _ => hq gone
  | setTimer due later => exact hc.quiet [] rfl (by simp) rfl (.inl hh)
  | dropTimers => exact hc.quiet [] rfl (by simp) rfl (.inl hh)
  | resume => exact hc.quiet [] rfl (by simp) rfl (.inl hh)
  | wake u => exact hc.quiet [] rfl (by simp) rfl (.inl hh)
  | shown j hj => exact hc.quiet [] hj (by simp) rfl (.inl hh)
  | moveClock clock =>
    rw [← hh, hself]
    exact hc.moveClock clock
  | identify identity =>
    rw [← hh, hself]
    exact hc.identify identity
  | adjust k n => exact hc.quiet [_] rfl (by simp [Event.ofReports]) rfl (.inl hh)
  | adjustReports n => exact hc.quiet [] rfl (by simp) rfl (.inl hh)

theorem Tells.steps (hc : c.Tells p hands) (lined : p.Lined hands) (hq : quits → c.dismisses t)
    (hs : Steps quits t p (hands t) p' h') : c.Tracks p p' (Function.update hands t h') := by
  suffices c.Tracks p p' (Function.update hands t h')
      ∧ p'.Lined (Function.update hands t h') from this.1
  generalize hh : hands t = h at hs
  induction hs with
  | refl => rw [← hh, Function.update_eq_self]; exact ⟨hc.tracks, lined⟩
  | tail _ hl ih =>
    obtain ⟨htracks, hlined⟩ := ih
    refine ⟨htracks.trans fun es hc => ?_, ?_⟩
    · have hquits : quits → (hearAll es c).dismisses t := dismisses_hearAll es c t ▸ hq
      have hstep := hc.step hlined hquits (by rwa [Function.update_self])
      rwa [Function.update_idem] at hstep
    · have hstep := hlined.step (t := t) (by rwa [Function.update_self])
      rwa [Function.update_idem] at hstep

end Account

end Uplink
