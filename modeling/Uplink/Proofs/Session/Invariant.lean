import Uplink.Proofs.Session.Hands
/-!
Invariants of the pipeline and of what the tasks have in hand.  What one step of one task keeps,
and the passage of time, holds at every point of every session.
-/
namespace Uplink

namespace Pipeline

/-- The pipeline a session is made with, before any worker is started. -/
def ofSettings (a : Assembly) (settings : Settings) (identity : Identity) (clock : Clock)
    (receiver : Receiver) (chance : Chance) : Pipeline where
  receiver := receiver
  identity := identity
  clock := clock
  system := a.system chance.clock
  dispatcher := .create (if a.configures then settings.dispatch else {})
  services := .create settings.historyCapacity
  kpi := .create settings.kpi

/-- A pipeline to which nothing has happened. -/
structure Fresh (p : Pipeline) : Prop where
  now : p.now = 0
  events : p.journal.events = []
  dispatcher : ∃ settings, p.dispatcher = .create settings
  services : ∃ capacity, p.services = .create capacity
  kpi : ∃ settings, p.kpi = .create settings
  line : p.line = []
  ready : p.ready = []
  timers : p.timers = []

theorem fresh_ofSettings (a : Assembly) (settings : Settings) (identity : Identity) (clock : Clock)
    (receiver : Receiver) (chance : Chance) :
    (ofSettings a settings identity clock receiver chance).Fresh :=
  ⟨rfl, rfl, ⟨_, rfl⟩, ⟨_, rfl⟩, ⟨_, rfl⟩, rfl, rfl, rfl⟩

/-! ### The passage of time -/

theorem mem_ready_wake (p : Pipeline) (t u : Task) :
    u ∈ (p.wake t).ready ↔ u ∈ p.ready ∨ u = t := by
  unfold wake
  dsimp only
  split
  next ht => exact ⟨Or.inl, fun h => h.elim id fun h => h ▸ ht⟩
  next => simp

theorem foldl_wake_eq (p : Pipeline) (tasks : List Task) :
    ∃ ready, tasks.foldl wake p = { p with ready }
      ∧ ∀ u, u ∈ ready ↔ u ∈ p.ready ∨ u ∈ tasks := by
  induction tasks generalizing p with
  | nil => exact ⟨p.ready, rfl, by simp⟩
  | cons t tasks ih =>
    obtain ⟨ready, heq, hmem⟩ := ih (p.wake t)
    refine ⟨ready, heq, fun u => ?_⟩
    rw [hmem, mem_ready_wake, List.mem_cons, or_assoc]

/-- The passage of time changes the time, wakes the tasks whose timers are due, and leaves the
other timers. -/
theorem moveTo_eq (p : Pipeline) (now : Nat) :
    ∃ ready, p.moveTo now
        = { p with now := max p.now now, timers := p.timers.filter (now < ·.1), ready }
      ∧ ∀ u, u ∈ ready ↔ u ∈ p.ready ∨ ∃ due ≤ now, (due, u) ∈ p.timers := by
  obtain ⟨ready, heq, hmem⟩ := foldl_wake_eq
    { p with now := max p.now now, timers := p.timers.filter (now < ·.1) }
    (((p.timers.filter (·.1 ≤ now)).map Prod.snd).filter (· = .operator)
      ++ ((p.timers.filter (·.1 ≤ now)).map Prod.snd).filter (· ≠ .operator))
  refine ⟨ready, heq, fun u => ?_⟩
  rw [hmem]
  by_cases hu : u = .operator <;> simp [hu, and_comm]

theorem now_moveTo (p : Pipeline) (now : Nat) : (p.moveTo now).now = max p.now now := by
  obtain ⟨ready, heq, -⟩ := p.moveTo_eq now
  rw [heq]

theorem timers_moveTo (p : Pipeline) (now : Nat) :
    (p.moveTo now).timers = p.timers.filter (now < ·.1) := by
  obtain ⟨ready, heq, -⟩ := p.moveTo_eq now
  rw [heq]

theorem mem_ready_moveTo (p : Pipeline) (now : Nat) (t : Task) :
    t ∈ (p.moveTo now).ready ↔ t ∈ p.ready ∨ ∃ due ≤ now, (due, t) ∈ p.timers := by
  obtain ⟨ready, heq, hready⟩ := p.moveTo_eq now
  rw [heq]
  exact hready t

/-- What depends neither on the time and the timers nor on who can go on stays as time passes. -/
theorem moveTo_timeless {α : Sort*} {f : Pipeline → α}
    (timeless : ∀ p now timers ready, f { p with now, timers, ready } = f p) (p : Pipeline)
    (now : Nat) : f (p.moveTo now) = f p := by
  obtain ⟨ready, heq, -⟩ := p.moveTo_eq now
  rw [heq, timeless]

@[simp] theorem journal_moveTo (p : Pipeline) (now : Nat) : (p.moveTo now).journal = p.journal :=
  moveTo_timeless (f := journal) (fun _ _ _ _ => rfl) p now

@[simp] theorem dispatcher_moveTo (p : Pipeline) (now : Nat) :
    (p.moveTo now).dispatcher = p.dispatcher :=
  moveTo_timeless (f := dispatcher) (fun _ _ _ _ => rfl) p now

@[simp] theorem kpi_moveTo (p : Pipeline) (now : Nat) : (p.moveTo now).kpi = p.kpi :=
  moveTo_timeless (f := kpi) (fun _ _ _ _ => rfl) p now

@[simp] theorem line_moveTo (p : Pipeline) (now : Nat) : (p.moveTo now).line = p.line :=
  moveTo_timeless (f := line) (fun _ _ _ _ => rfl) p now

@[simp] theorem receiver_moveTo (p : Pipeline) (now : Nat) :
    (p.moveTo now).receiver = p.receiver :=
  moveTo_timeless (f := receiver) (fun _ _ _ _ => rfl) p now

/-! ### What steps keep -/

structure Invariant (I : Pipeline → (Task → Hand) → Prop) : Prop where
  step : ∀ {quits t p p' h' hands}, Step quits t p (hands t) p' h' → I p hands →
    I p' (Function.update hands t h')
  erase : ∀ {p hands} (t : Task), I p hands → I { p with ready := p.ready.erase t } hands
  elapse : ∀ {p hands} (now : Nat), I p hands → I (p.moveTo now) hands

variable {quits : Prop} {I : Pipeline → (Task → Hand) → Prop} {p p' : Pipeline} {t : Task}
  {h : Hand}
  {hands : Task → Hand}

/-- What is kept whatever the time and the timers are and whoever can go on. -/
def Timeless (I : Pipeline → (Task → Hand) → Prop) : Prop :=
  ∀ p hands now timers ready, I p hands → I { p with now, timers, ready } hands

theorem Timeless.elapse (hI : Timeless I) (now : Nat) (hp : I p hands) :
    I (p.moveTo now) hands := by
  obtain ⟨ready, heq, -⟩ := p.moveTo_eq now
  rw [heq]
  exact hI p hands _ _ _ hp

theorem Invariant.of_timeless
    (step : ∀ {quits t p p' h' hands}, Step quits t p (hands t) p' h' → I p hands →
      I p' (Function.update hands t h')) (hI : Timeless I) : Invariant I where
  step := step
  erase _ hp := hI _ _ _ _ _ hp
  elapse now hp := hI.elapse now hp

theorem Invariant.steps (hI : Invariant I) (hs : Steps quits t p (hands t) p' h) (hp : I p hands) :
    I p' (Function.update hands t h) := by
  generalize hh : hands t = h₀ at hs
  induction hs with
  | refl => rwa [← hh, Function.update_eq_self]
  | tail _ hl ih =>
    have := hI.step (t := t) (by rwa [Function.update_self]) ih
    rwa [Function.update_idem] at this

/-- Before any task has something in hand, workers may be started. -/
theorem Invariant.startWorkers (hI : Invariant I) (workers capacity : Nat)
    (hp : I p fun _ => .free) : I (p.startWorkers workers capacity) fun _ => .free := by
  have hstart := hI.step (t := .operator) (@Step.start False _ _ _ workers capacity) hp
  rwa [Function.update_eq_self_iff.mpr rfl] at hstart

end Pipeline

namespace Session

open Pipeline

variable {quits : Prop} {I : Pipeline → (Task → Hand) → Prop} {s s' : Session}

theorem Leads.keeps {t : Task} (hI : Invariant I) (hs : Leads quits t (s.hand t) s s')
    (h : I s.toPipeline s.hand) : I s'.toPipeline s'.hand := by
  rw [hs.hand_eq]
  exact hI.steps hs.steps h

theorem move_keeps (hI : Invariant I) (m : Move) (h : I s.toPipeline s.hand) :
    I (s.move m).toPipeline (s.move m).hand := by
  have hm := s.moves_move m
  generalize s.move m = s' at hm ⊢
  cases hm with
  | stays => exact h
  | start op free => exact (hand_operator_of_isFree free ▸ leads_start s op free).keeps hI h
  | collect => rwa [toPipeline_collect, hand_collect]
  | turn t _ => exact (leads_turn { s with ready := s.ready.erase t } t).keeps hI (hI.erase t h)
  | elapse now => exact hI.elapse now h
  | dropOwn calling flushes => exact (leads_dropOwn calling flushes).keeps hI h
  | drop calling flushes => exact (leads_drop calling flushes).keeps hI h
  | discard => exact (leads_stopFlushing s).keeps hI h

/-- A move is a run of steps of one task, or leaves the journal, the line and the aggregator. -/
theorem move_steps (s : Session) (m : Move) :
    (∃ quits t ready, m.task? = some t ∧ Steps quits t { s.toPipeline with ready } (s.hand t)
      (s.move m).toPipeline ((s.move m).hand t))
    ∨ ((s.move m).journal = s.journal ∧ (s.move m).line = s.line ∧ (s.move m).kpi = s.kpi) := by
  have hm := s.moves_move m
  generalize s.move m = s' at hm ⊢
  cases hm with
  | stays => exact .inr ⟨rfl, rfl, rfl⟩
  | start op free =>
    have hfree := hand_operator_of_isFree free
    exact .inl ⟨_, .operator, s.ready, rfl, hfree ▸ (leads_start s op free).steps⟩
  | collect =>
    rw [toPipeline_collect]
    exact .inr ⟨rfl, rfl, rfl⟩
  | turn t _ =>
    have hsteps := (leads_turn { s with ready := s.ready.erase t } t).steps
    exact .inl ⟨_, t, s.ready.erase t, rfl, hsteps⟩
  | elapse now =>
    exact .inr ⟨journal_moveTo s.toPipeline now, line_moveTo s.toPipeline now,
      kpi_moveTo s.toPipeline now⟩
  | dropOwn calling flushes =>
    exact .inl ⟨_, .operator, s.ready, rfl, (leads_dropOwn calling flushes).steps⟩
  | drop calling flushes => exact .inl ⟨_, _, s.ready, rfl, (leads_drop calling flushes).steps⟩
  | discard => exact .inl ⟨_, .operator, s.ready, rfl, (leads_stopFlushing s).steps⟩

theorem ComesTo.keeps (hI : Invariant I) (h : s.ComesTo s') (hs : I s.toPipeline s.hand) :
    I s'.toPipeline s'.hand :=
  h.preserves (P := fun s => I s.toPipeline s.hand) (fun _ m => move_keeps hI m) hs

/-! ### New sessions -/

section

variable (a : Assembly) (settings : Settings) (identity : Identity) (clock : Clock)
  (receiver : Receiver) (demo : AgentConfig) (chance : Chance)

/-- A session is made with the pipeline of its settings, in which the workers may be started. -/
theorem create_eq :
    create a settings identity clock receiver demo chance
      = { toPipeline :=
            if a.starts then
              (ofSettings a settings identity clock receiver chance).startWorkers
                settings.dispatch.workers settings.dispatch.queueCapacity
            else .ofSettings a settings identity clock receiver chance
          persists := chance.flusher
          generator := { config := demo, persists := chance.generator } } := by
  unfold create
  dsimp only
  split <;> rfl

theorem hand_create :
    (create a settings identity clock receiver demo chance).hand = fun _ => .free := by
  rw [create_eq]
  funext t
  cases t <;> rfl

variable {a settings identity clock receiver demo chance}

/-- What the pipeline of the settings has, started workers or not, a new session has. -/
theorem create_of_startWorkers {P : Pipeline → Prop}
    (first : P (.ofSettings a settings identity clock receiver chance))
    (started : ∀ p workers capacity, P p → P (p.startWorkers workers capacity)) :
    P (create a settings identity clock receiver demo chance).toPipeline := by
  rw [create_eq]
  dsimp only
  split
  · exact started _ _ _ first
  · exact first

/-- An invariant that holds of the pipeline a session is made with holds at every point of it. -/
theorem keeps_of_create (hI : Invariant I)
    (hfirst : I (.ofSettings a settings identity clock receiver chance) fun _ => .free)
    (h : (create a settings identity clock receiver demo chance).ComesTo s) :
    I s.toPipeline s.hand := by
  refine h.keeps hI ?_
  rw [hand_create]
  exact create_of_startWorkers (P := fun p => I p fun _ => .free) hfirst
    fun _ workers capacity => hI.startWorkers workers capacity

/-- An invariant that holds before anything happens holds at every point of every session. -/
theorem Reachable.keeps (hI : Invariant I)
    (hfresh : ∀ p, p.Fresh → I p fun _ => .free) (h : s.Reachable) : I s.toPipeline s.hand := by
  obtain ⟨a, settings, identity, clock, receiver, demo, chance, h⟩ := h
  exact keeps_of_create hI (hfresh _ (fresh_ofSettings a settings identity clock receiver chance)) h

end

end Session

end Uplink
