import Uplink.Proofs.Kpi.Schedule
import Uplink.Proofs.Session.Prompt
/-!
In a prompt run every flusher keeps to its schedule.  It is woken when it is due, since time does
not move past the timer that it set, and no turn of another task changes what it did or counts.
-/
namespace Uplink

namespace Session

open Pipeline

variable {s s' : Session} {id : Nat} {f : Flusher} {g : Duration}

structure OnTime (g : Duration) (s : Session) : Prop where
  reachable : s.Reachable
  granularity : s.kpi.granularity = g
  sound : s.toPipeline.Sound s.hand
  kept : ∀ (id : Nat) (f : Flusher), s.flushers[id]? = some f → f.Kept g s.now

theorem OnTime.kept_cancelFlusher (hs : s.OnTime g) {f : Flusher}
    (hf : s.cancelFlusher.flushers[id]? = some f) : f.Kept g s.now := by
  rw [getElem?_cancelFlusher, Option.map_eq_some_iff] at hf
  obtain ⟨f₀, hf₀, rfl⟩ := hf
  exact (hs.kept id f₀ hf₀).cancel _

theorem kept_new (g : Duration) (now : Nat) (url : String) : Flusher.Kept g now { url } :=
  ⟨trivial, rfl, fun _ => .fresh rfl rfl⟩

theorem OnTime.start (hs : s.OnTime g) (op : Operation)
    (hf : (s.start op).1.flushers[id]? = some f) :
    f.Kept g s.now := by
  have hsame := flushing_start s op
  cases op with
  | startFlushing url =>
    have hnew : (s.cancelFlusher.flushers ++ [({ url } : Flusher)])[id]? = some f := hf
    rw [List.getElem?_append] at hnew
    split at hnew
    next => exact hs.kept_cancelFlusher hnew
    next =>
      obtain ⟨hlt, rfl⟩ := List.getElem?_eq_some_iff.mp hnew
      simpa using kept_new g s.now url
  | stopFlushing => exact hs.kept_cancelFlusher hf
  | _ =>
    have hflushing := hsame (fun _ => Operation.noConfusion) Operation.noConfusion
    exact hs.kept id f ((getElem?_of_flushing hflushing).symm.trans hf)

/-- What a flusher does in its turn keeps it on schedule, and if it quits that is over. -/
theorem OnTime.flusherTurn (hg : (g.times? 4).isSome) (hs : s.OnTime g) (ready : List Task)
    (hf : s.flushers[id]? = some f) :
    ∃ f', (Session.flusherTurn { s with ready } id).flushers = s.flushers.set id f'
      ∧ f'.Kept g s.now := by
  have hsound : Pipeline.Sound { s.toPipeline with ready } s.hand ∨ False :=
    .inl ⟨hs.sound.receiver, hs.sound.postings⟩
  obtain ⟨f₁, f', hsteps, rfl, heq⟩ := flusherTurn_steps (s := { s with ready }) hf hsound
  refine ⟨_, congrArg Prod.fst heq, ?_⟩
  have hkept := (hs.kept id f hf).steps hg (hs.granularity ▸ hsteps)
  cases hc : f.cancelled with
  | false => exact hkept
  | true =>
    refine ⟨hkept.onSchedule, hkept.failures, fun going => absurd ⟨?_, rfl⟩ going⟩
    exact hsteps.cancelled_eq.trans hc

theorem OnTime.turn (hg : (g.times? 4).isSome) (hs : s.OnTime g) (t : Task)
    (hf : ({ s with ready := s.ready.erase t }.turn t).flushers[id]? = some f) :
    f.Kept g s.now := by
  rcases turn_flushing { s with ready := s.ready.erase t } t with
    ⟨heq, -⟩ | ⟨i, f₀, -, rfl, hf₀, -⟩
  · exact hs.kept id f ((getElem?_of_flushing heq).symm.trans hf)
  · obtain ⟨f', hset, hkept⟩ := hs.flusherTurn hg (s.ready.erase (.flusher i)) hf₀
    have hturn :
        (Session.flusherTurn { s with ready := s.ready.erase (.flusher i) } i).flushers[id]?
        = some f := hf
    rw [hset] at hturn
    by_cases hi : i = id
    · subst hi
      rw [List.getElem?_set_self (List.getElem?_eq_some_iff.mp hf₀).1] at hturn
      exact Option.some_inj.mp hturn ▸ hkept
    · rw [List.getElem?_set_ne hi] at hturn
      exact hs.kept id f hturn

/-- Where no task can go on, a flusher that is not over was not cancelled, and has a timer. -/
theorem timer_of_asleep (h : s.Reachable) (settled : s.ready = []) {due : Nat}
    (hf : s.flushers[id]? = some f) (going : ¬f.Over) (hdue : f.stage = .asleep due) :
    (due, .flusher id) ∈ s.timers :=
  ((h.roused id f hf going).2 due hdue).resolve_right fun hpast => by simp [settled] at hpast

/-- Time moves on to the next timer at most, so a flusher that is due by then is woken in time. -/
theorem OnTime.elapse (hs : s.OnTime g) {now : Nat} (hm : (Move.elapse now).Prompt s)
    (hf : s.flushers[id]? = some f) : f.Kept g (s.moveTo now).now := by
  obtain ⟨settled, hearly⟩ := hm
  show f.Kept g (s.toPipeline.moveTo now).now
  rw [Pipeline.now_moveTo]
  refine (hs.kept id f hf).elapse (Nat.le_max_left _ _) fun going due hdue => ?_
  exact Nat.max_le.mpr ⟨((hs.kept id f hf).stands going).early hdue,
    hearly _ (timer_of_asleep hs.reachable settled hf going hdue)⟩

theorem granularity_move (s : Session) (m : Move) :
    (s.move m).kpi.granularity = s.kpi.granularity := by
  rcases move_steps s m with ⟨_, t, ready, -, hsteps⟩ | ⟨-, -, hkpi⟩
  · exact hsteps.granularity_eq
  · rw [hkpi]

theorem OnTime.move (hg : (g.times? 4).isSome) (hs : s.OnTime g) (m : Move) (hm : m.Prompt s) :
    (s.move m).OnTime g := by
  have hgranularity : (s.move m).kpi.granularity = g :=
    (granularity_move s m).trans hs.granularity
  suffices h : ∀ (id : Nat) (f : Flusher), (s.move m).flushers[id]? = some f →
      f.Kept g (s.move m).now from
    ⟨hs.reachable.comesTo (comesTo_move s m), hgranularity,
      move_keeps invariant_sound m hs.sound, h⟩
  have hmoves := s.moves_move m
  generalize s.move m = s' at hmoves ⊢
  cases hmoves with
  | stays => exact hs.kept
  | start op free =>
    rw [(leads_start s op free).steps.now_eq]
    exact fun id f => hs.start op
  | collect =>
    rw [toPipeline_collect]
    exact fun id f hf => hs.kept id f ((getElem?_of_flushing (flushing_collect s)).symm.trans hf)
  | turn t _ =>
    rw [(leads_turn { s with ready := s.ready.erase t } t).steps.now_eq]
    exact fun id f => hs.turn hg t
  | elapse now => exact fun id f => hs.elapse hm
  | dropOwn calling flushes =>
    rw [(leads_dropOwn calling flushes).steps.now_eq]
    exact hs.kept
  | drop calling flushes =>
    rw [(leads_drop calling flushes).steps.now_eq]
    exact hs.kept
  | discard =>
    rw [(leads_stopFlushing s).steps.now_eq]
    exact fun id f => hs.kept_cancelFlusher

structure Punctual (s : Session) : Prop where
  /-- Whatever a flusher did, it did on schedule. -/
  onSchedule : ∀ (id : Nat) (f : Flusher), s.flushers[id]? = some f →
    Flusher.OnSchedule s.kpi.granularity f.log
  /-- A flusher that was not cancelled begins before time moves on. -/
  begins : ∀ (id : Nat) (f : Flusher), s.flushers[id]? = some f → f.cancelled = false →
    f.log = [] → .flusher id ∈ s.ready
  /-- It wakes for its next attempt when that is due, before time moves on. -/
  wakes : ∀ (id : Nat) (f : Flusher) t p log, s.flushers[id]? = some f → f.cancelled = false →
    f.log = (t, p) :: log → p ≠ .wakes → Flusher.streak f.log < UInt32.size →
    ∃ due, Flusher.After t due (Flusher.factor (Flusher.streak f.log) * s.kpi.granularity.nanos)
      ∧ s.now ≤ due ∧ (s.now = due → .flusher id ∈ s.ready)
  /-- The session tells how many of the last attempts of the current flusher failed in a row. -/
  failures : match Steering.current s.steering with
    | none => s.failures = 0
    | some id => ∃ f, s.flushers[id]? = some f ∧ s.failures = .ofNat (Flusher.streak f.log)
  /-- Nothing that others do changes what a flusher did. -/
  alone : ∀ (id : Nat) (f : Flusher) (m : Move), s.flushers[id]? = some f →
    m.task? ≠ some (.flusher id) → ∃ f', (s.move m).flushers[id]? = some f' ∧ f'.log = f.log
  /-- Whatever the flusher did before, the one that replaces it has done nothing yet. -/
  restarts : s.operator.isFree → ∀ url, ∃ id,
    Steering.current (s.move (.start (.startFlushing url))).steering = some id
      ∧ (s.move (.start (.startFlushing url))).flushers[id]? = some { url }
      ∧ (s.move (.start (.startFlushing url))).failures = 0

theorem OnTime.wakes (hs : s.OnTime g) (hahead : s.toPipeline.Ahead) {t : Nat} {p : Pulse}
    {log : List (Nat × Pulse)} (hf : s.flushers[id]? = some f) (active : f.cancelled = false)
    (hlog : f.log = (t, p) :: log) (hp : p ≠ .wakes)
    (hfits : Flusher.streak f.log < UInt32.size) :
    ∃ due, Flusher.After t due (Flusher.factor (Flusher.streak f.log) * g.nanos)
      ∧ s.now ≤ due ∧ (s.now = due → .flusher id ∈ s.ready) := by
  have hkept := hs.kept id f hf
  have going : ¬f.Over := fun finished => Bool.noConfusion (active.symm.trans finished.1)
  cases hkept.stands going with
  | fresh _ hnil => simp [hlog] at hnil
  | @asleep due t' p' log' hstage hlog' _ hafter early =>
    obtain ⟨⟨rfl, rfl⟩, rfl⟩ : (t = t' ∧ p = p') ∧ log = log' := by
      simpa using hlog.symm.trans hlog'
    rw [hkept.failures, Flusher.backoffFactor_ofNat hfits] at hafter
    refine ⟨due, hafter, early, fun hnow => ?_⟩
    rcases (hs.reachable.roused id f hf going).2 due hstage with htimer | ⟨-, hready⟩
    · exact absurd (hahead.timers _ htimer) (by simp [hnow])
    · exact hready
  | @attempting t' log' _ hlog' _ =>
    obtain ⟨⟨-, rfl⟩, -⟩ : (t = t' ∧ p = .wakes) ∧ log = log' := by
      simpa using hlog.symm.trans hlog'
    exact absurd rfl hp

theorem OnTime.failures (hs : s.OnTime g) :
    match Steering.current s.steering with
    | none => s.failures = 0
    | some id => ∃ f, s.flushers[id]? = some f ∧ s.failures = .ofNat (Flusher.streak f.log) := by
  rw [← hs.reachable.tended.current]
  unfold Session.failures
  cases hcur : s.current with
  | none => rfl
  | some id =>
    obtain ⟨f, hf⟩ : ∃ f, s.flushers[id]? = some f :=
      ⟨_, List.getElem?_eq_getElem (hs.reachable.tended.exist id hcur)⟩
    refine ⟨f, hf, ?_⟩
    simp only [Option.bind_some, hf]
    exact (hs.kept id f hf).failures

/-- The flusher that a start makes has done nothing yet, and it is the current one. -/
theorem startFlushing_restarts (s : Session) (url : String) :
    ∃ id, Steering.current (s.startFlushing url).steering = some id
      ∧ (s.startFlushing url).flushers[id]? = some { url }
      ∧ (s.startFlushing url).failures = 0 := by
  have hnew : (s.startFlushing url).flushers[s.cancelFlusher.flushers.length]? = some { url } :=
    List.getElem?_concat_length
  refine ⟨_, rfl, hnew, ?_⟩
  unfold Session.failures
  rw [show (s.startFlushing url).current = some s.cancelFlusher.flushers.length from rfl,
    Option.bind_some, hnew]

theorem onTime_create (a : Assembly) (settings : Settings) (identity : Identity) (clock : Clock)
    {receiver : Receiver} (demo : AgentConfig) (chance : Chance) (sound : receiver.Sound) :
    (create a settings identity clock receiver demo chance).OnTime
      (create a settings identity clock receiver demo chance).kpi.granularity := by
  have hflushers : (create a settings identity clock receiver demo chance).flushers = [] := by
    rw [create_eq]
  exact {
    reachable := reachable_create a settings identity clock receiver demo chance
    granularity := rfl
    sound := keeps_of_create invariant_sound
      (by exact ⟨sound, fun t q hq => Hand.noConfusion hq⟩) (.refl _)
    kept := by simp [hflushers] }

/-- In every prompt run with a script without crashes, flushers keep time. -/
theorem flushers_punctual {a : Assembly} {settings : Settings} {identity : Identity}
    {clock : Clock} {receiver : Receiver} {demo : AgentConfig} {chance : Chance}
    (h : (create a settings identity clock receiver demo chance).Runs s) (sound : receiver.Sound)
    (representable : (s.kpi.granularity.times? 4).isSome) : s.Punctual := by
  have hreachable : s.Reachable := ⟨a, settings, identity, clock, receiver, demo, chance, h.comesTo⟩
  have hahead := hreachable.keeps invariant_ahead fun _ => ahead_of_fresh
  have hg : s.kpi.granularity
      = (create a settings identity clock receiver demo chance).kpi.granularity :=
    h.comesTo.preserves (P := fun s => s.kpi.granularity
      = (create a settings identity clock receiver demo chance).kpi.granularity)
      (fun s m hs => (granularity_move s m).trans hs) rfl
  have hs : s.OnTime s.kpi.granularity := by
    rw [hg] at representable ⊢
    exact h.preserves (fun s m hm hs => hs.move representable m hm)
      (onTime_create a settings identity clock demo chance sound)
  exact {
    onSchedule := fun id f hf => (hs.kept id f hf).onSchedule
    begins := fun id f hf active hlog => by
      have going : ¬f.Over := fun finished => Bool.noConfusion (active.symm.trans finished.1)
      exact (hreachable.roused id f hf going).1 (((hs.kept id f hf).stands going).stage_of_log hlog)
    wakes := fun id f t p log hf active hlog hp hfits =>
      hs.wakes hahead hf active hlog hp hfits
    failures := hs.failures
    alone := fun id f m hf hm =>
      let ⟨f', hf', left⟩ := flusher_move hf m
      ⟨f', hf', left.log hm⟩
    restarts := fun free url => by
      have hmove : s.move (.start (.startFlushing url)) = s.startFlushing url := if_pos free
      rw [hmove]
      exact startFlushing_restarts s url }

/-- A flusher whose first attempt fails, whose second is accepted and whose third finds nothing. -/
def recovered : Session :=
  (create .parts { kpi := { granularity := .ofMillis 10 } } {} {}
    [⟨"", [.status ⟨500⟩ 0, .status ⟨200⟩ 5]⟩] {}).follow
    [.start (.increment "calls"), .start (.startFlushing "kpi"), .turn (.flusher 0), .elapse 10,
      .turn (.flusher 0), .elapse 30, .turn (.flusher 0), .elapse 35, .turn (.flusher 0),
      .elapse 45, .turn (.flusher 0)]

theorem flushers_punctual_recovered :
    (recovered.flushers.map fun f => f.log.map Prod.fst) = [[45, 45, 35, 30, 10, 10, 0]]
    ∧ recovered.Punctual := by
  refine ⟨by decide +kernel, ?_⟩
  exact flushers_punctual (s := recovered) ⟨_, by decide +kernel, rfl⟩ (by decide +kernel)
    (by decide +kernel)

end Session

end Uplink
