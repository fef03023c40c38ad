import Mathlib.Data.List.Basic
import Uplink.Proofs.Kpi.Waiting
import Uplink.Proofs.Service.Front
import Uplink.Proofs.Session.Course
import Uplink.Proofs.Session.Postings
/-!
The patience of the operator.  Whoever has the turn to flush gives it up within the timeout of a
flush, so the operator, wherever it stands in line, has what it waits for in the time it allows.
-/
namespace Uplink

namespace Pipeline

variable {quits : Prop} {t u : Task} {p p' : Pipeline} {h h' : Hand} {hands : Task → Hand}
  {last : Nat}

theorem Step.flushTimeout_eq (hs : Step quits t p h p' h') :
    p'.kpi.flushTimeout = p.kpi.flushTimeout := by
  obtain ⟨es, -, hchange⟩ := hs.kpiChange
  generalize p'.kpi = a at hchange
  cases hchange <;> rfl

/-- A POST of a report that a step leaves in hand was in hand before, or is begun at a turn to flush
with the timeout of flushes. -/
theorem Step.flushing {q : Posting} (hs : Step quits t p h p' (.waiting (.flushing q))) :
    h = .waiting (.flushing q)
      ∨ (h.isFlushing = false ∧ q.due ≤ p.now + p.kpi.flushTimeout.millis) := by
  cases hs with
  | depart turn hf hq =>
    cases hq
    exact .inr ⟨rfl, Posting.due_ofReply_le _ _ _ _⟩
  | _ => exact .inl rfl

theorem eq_waiting_flushing (hh : h.isFlushing) : ∃ q, h = .waiting (.flushing q) := by
  cases h with
  | free => simp [Hand.isFlushing] at hh
  | waiting stage =>
    cases stage with
    | flushing q => exact ⟨q, rfl⟩
    | _ => simp [Hand.isFlushing] at hh

/-- The time by which a task that has the turn to flush, with `h` in hand, gives it up. -/
def freed (p : Pipeline) (h : Hand) : Nat :=
  match h.posting? with
  | some q => max p.now q.due
  | none => p.now + p.kpi.flushTimeout.millis

/-- The operator has what it waits for at a time: the end of its POST, or, after the first in line
gives up its turn, the end of a flush of each task up to itself. -/
structure Hopes (last : Nat) (p : Pipeline) (hands : Task → Hand) : Prop where
  posting : ∀ q, (hands .operator).posting? = some q → q.due ≤ last
  line : ∀ u, p.line.head? = some u → .operator ∈ p.line →
    p.freed (hands u) + p.line.idxOf .operator * p.kpi.flushTimeout.millis ≤ last

theorem now_le_freed (p : Pipeline) (h : Hand) : p.now ≤ p.freed h := by
  unfold freed
  split
  · exact Nat.le_max_left _ _
  · exact Nat.le_add_right _ _

theorem freed_of_queueing (hh : h.flushes) (waits : h.isFlushing = false) :
    p.freed h = p.now + p.kpi.flushTimeout.millis := by
  unfold freed
  cases h with
  | free => rfl
  | waiting stage => cases stage <;> simp_all [Hand.flushes, Hand.isFlushing, Hand.posting?]

theorem freed_congr (hnow : p'.now = p.now) (htimeout : p'.kpi.flushTimeout = p.kpi.flushTimeout)
    (h : Hand) : p'.freed h = p.freed h := by
  unfold freed
  rw [hnow, htimeout]

theorem idxOf_erase_le {line : List Task} (hu : u ≠ t) : (line.erase t).idxOf u ≤ line.idxOf u := by
  induction line with
  | nil => exact Nat.le_refl _
  | cons v line ih =>
    by_cases hv : v = t
    · subst hv
      rw [List.erase_cons_head, List.idxOf_cons_ne _ hu.symm]
      exact Nat.le_succ _
    · rw [List.erase_cons_tail (by simpa using hv)]
      by_cases huv : v = u
      · rw [huv, List.idxOf_cons_self]
        exact Nat.zero_le _
      · rw [List.idxOf_cons_ne _ huv, List.idxOf_cons_ne _ huv]
        exact Nat.succ_le_succ ih

/-- Steps of other tasks do not make the operator wait any longer. -/
theorem Hopes.step (hp : p.Hopes last hands) (lined : p.Lined hands) (ht : .operator ≠ t)
    (hs : Step quits t p (hands t) p' h') : p'.Hopes last (Function.update hands t h') := by
  have hfreed := freed_congr (p := p) hs.now_eq hs.flushTimeout_eq
  have hother {u : Task} (hu : u ≠ t) : Function.update hands t h' u = hands u :=
    Function.update_of_ne hu _ _
  refine ⟨by rw [hother ht]; exact hp.posting, fun u hu hmem => ?_⟩
  rw [hfreed, hs.flushTimeout_eq]
  have hchange := hs.lineChange
  generalize hh : hands t = h at hs hchange
  cases hchange with
  | keep hline hflight hflushes hflushing =>
    rw [hline] at hu hmem ⊢
    refine Nat.le_trans (Nat.add_le_add_right (Nat.le_of_eq ?_) _) (hp.line u hu hmem)
    by_cases hut : u = t
    · subst hut
      rw [Function.update_self, hh]
      have hflush : h.flushes := hh ▸ (lined.mem_line u).mp (List.mem_of_mem_head? hu)
      cases hf : h.isFlushing with
      | false =>
        rw [freed_of_queueing (hflushes ▸ hflush) (hflushing.trans hf), freed_of_queueing hflush hf]
      | true =>
        obtain ⟨q, rfl⟩ := eq_waiting_flushing (hflushing.trans hf)
        rcases hs.flushing with rfl | ⟨hwaits, -⟩
        · rfl
        · simp [hf] at hwaits
    · rw [hother hut]
  | join url hline hflight =>
    have hfree : t ∉ p.line := lined.not_mem_line hh
    have hmem : .operator ∈ p.line := by simpa [hline, ht] using hmem
    have hhead : p.line.head? = some u := by
      cases hl : p.line with
      | nil => simp [hl] at hmem
      | cons v line => simpa [hline, hl] using hu
    have hut : u ≠ t := fun hut => hfree (hut ▸ List.mem_of_mem_head? hhead)
    rw [hother hut, hline, List.idxOf_append_of_mem hmem]
    exact hp.line u hhead hmem
  | @depart _ url q turn hline hflight =>
    rw [hline] at hu hmem ⊢
    obtain rfl : t = u := Option.some.inj (turn.symm.trans hu)
    refine Nat.le_trans (Nat.add_le_add_right ?_ _) (hp.line t hu hmem)
    rw [Function.update_self, hh]
    rcases hs.flushing with hsame | ⟨-, hdue⟩
    · cases hsame
    · exact Nat.max_le.mpr ⟨Nat.le_add_right _ _, hdue⟩
  | leave hline hflight hready =>
    rw [hline] at hu hmem ⊢
    by_cases turn : p.line.head? = some t
    · -- the task behind it has the turn next, and does not yet wait for a POST
      obtain ⟨rest, hl⟩ := List.head?_eq_some_iff.mp turn
      have hrest : p.line.erase t = rest := by simp [hl]
      rw [hrest] at hu hmem ⊢
      have hnodup := List.nodup_cons.mp (hl ▸ lined.nodup)
      have hmemu := List.mem_of_mem_head? hu
      have hut : u ≠ t := fun hut => hnodup.1 (hut ▸ hmemu)
      have hflush : (hands u).flushes := (lined.mem_line u).mp (by simp [hl, hmemu])
      have hwaits : (hands u).isFlushing = false :=
        lined.isFlushing_eq_false fun hhead => hut (Option.some.inj (hhead.symm.trans turn))
      have hbefore := hp.line t turn (by simp [hl, hmem])
      rw [hl, List.idxOf_cons_ne _ ht.symm, Nat.succ_mul] at hbefore
      have hnow := p.now_le_freed (hands t)
      rw [hother hut, freed_of_queueing hflush hwaits]
      omega
    · rw [head?_erase turn] at hu
      have hut : u ≠ t := fun hut => turn (hut ▸ hu)
      rw [hother hut]
      refine Nat.le_trans (Nat.add_le_add_left (Nat.mul_le_mul_right _ ?_) _)
        (hp.line u hu (List.mem_of_mem_erase hmem))
      exact idxOf_erase_le ht

theorem Steps.hopes (hs : Steps quits t p (hands t) p' h') (ht : .operator ≠ t)
    (lined : p.Lined hands) (hp : p.Hopes last hands) :
    p'.Hopes last (Function.update hands t h') := by
  generalize hh : hands t = h at hs
  suffices p'.Lined (Function.update hands t h') ∧ p'.Hopes last (Function.update hands t h') from
    this.2
  induction hs with
  | refl => rw [← hh, Function.update_eq_self]; exact ⟨lined, hp⟩
  | @tail p₁ h₁ p₂ h₂ _ hl ih =>
    have hstep : Step quits t p₁ (Function.update hands t h₁ t) p₂ h₂ := by
      rwa [Function.update_self]
    have hlined := invariant_lined.step hstep ih.1
    have hhopes := ih.2.step ih.1 ht hstep
    rw [Function.update_idem] at hlined hhopes
    exact ⟨hlined, hhopes⟩

/-- A task that takes up its call ends it, goes on waiting, or has its turn to flush and waits for a
POST from then on. -/
theorem proceed_cases (p : Pipeline) (t : Task) (stage : Stage) :
    (∃ r, (p.proceed t stage).2 = .ended r) ∨ p.proceed t stage = (p, stage)
      ∨ ∃ q, (p.proceed t stage).2 = .flushing q ∧ p.line.head? = some t
        ∧ (Hand.ofStage stage).posting? = none
        ∧ q.due ≤ p.now + p.kpi.flushTimeout.millis ∧ (p.proceed t stage).1.line = p.line
        ∧ (p.proceed t stage).1.now = p.now
        ∧ (p.proceed t stage).1.kpi.flushTimeout = p.kpi.flushTimeout := by
  unfold proceed
  split
  · exact .inl ⟨_, rfl⟩
  · split
    · exact .inl ⟨_, rfl⟩
    · exact .inr (.inl rfl)
  · split
    · exact .inl ⟨_, rfl⟩
    · exact .inr (.inl rfl)
  · split
    next turn =>
      unfold depart
      split
      · exact .inl ⟨_, rfl⟩
      · dsimp only
        split
        · exact .inl ⟨_, rfl⟩
        · exact .inr (.inr ⟨_, rfl, turn, rfl, Posting.due_ofReply_le _ _ _ _, rfl, rfl, rfl⟩)
    · exact .inr (.inl rfl)
  · split
    · exact .inl ⟨_, rfl⟩
    · exact .inr (.inl rfl)

end Pipeline

namespace Session

open Pipeline

variable {s : Session} {t : Task} {last : Nat} {stage : Stage}

structure Hopes (last : Nat) (s : Session) : Prop where
  calling : ∃ stage, s.operator = .calling stage
  hopes : s.toPipeline.Hopes last s.hand

theorem hand_of_calling (hs : s.operator = .calling stage) : s.hand .operator = .ofStage stage := by
  simp [hand, hs, Operator.hand]

/-- The operator goes on with its call. -/
theorem Hopes.operatorTurn (hs : s.Hopes last) (lined : s.toPipeline.Lined s.hand) :
    s.operatorTurn.Hopes last := by
  obtain ⟨⟨stage, ho⟩, hhopes⟩ := hs
  have hturn : s.operatorTurn = { s with
      toPipeline := (s.proceed .operator stage).1
      operator := .calling (s.proceed .operator stage).2 } := by
    unfold Session.operatorTurn
    rw [ho]
  have hlined : s.operatorTurn.toPipeline.Lined s.operatorTurn.hand :=
    (@leads_operatorTurn False s).keeps invariant_lined lined
  have hhand := hand_of_calling ho
  have hafter : s.operatorTurn.hand .operator = .ofStage (s.proceed .operator stage).2 := by
    rw [hturn]
    rfl
  refine ⟨⟨_, by rw [hturn]⟩, ?_⟩
  rcases proceed_cases s.toPipeline .operator stage with
    ⟨r, hr⟩ | hsame | ⟨q, hq, turn, hnone, hdue, hline, hnow, htimeout⟩
  · have hfree : s.operatorTurn.hand .operator = .free := by rw [hafter, hr]; rfl
    refine ⟨fun q hq => ?_, fun u _ hmem => absurd hmem (hlined.not_mem_line hfree)⟩
    rw [hfree] at hq
    cases hq
  · have hself : s.operatorTurn = s := by rw [hturn, hsame, ← ho]
    rw [hself]
    exact hhopes
  · rw [hq] at hafter
    have hpipeline : s.operatorTurn.toPipeline = (s.proceed .operator stage).1 := by rw [hturn]
    obtain ⟨rest, hl⟩ := List.head?_eq_some_iff.mp turn
    have hbefore := hhopes.line .operator turn (by simp [hl])
    have hfreed : s.freed (s.hand .operator) = s.now + s.kpi.flushTimeout.millis := by
      unfold freed
      rw [hhand, hnone]
    rw [hfreed, hl, List.idxOf_cons_self, Nat.zero_mul, Nat.add_zero] at hbefore
    have hlast := Nat.le_trans hdue hbefore
    refine ⟨fun q' hq' => ?_, fun u hu _ => ?_⟩
    · rw [hafter] at hq'
      cases hq'
      exact hlast
    · rw [hpipeline, hline] at hu ⊢
      obtain rfl : .operator = u := Option.some.inj (turn.symm.trans hu)
      rw [hafter, freed_congr hnow htimeout, hl, List.idxOf_cons_self, Nat.zero_mul, Nat.add_zero]
      exact Nat.max_le.mpr ⟨by omega, hlast⟩

theorem Hopes.turn (hs : s.Hopes last) (lined : s.toPipeline.Lined s.hand) (t : Task) :
    (s.turn t).Hopes last := by
  by_cases ht : t = .operator
  · exact ht ▸ hs.operatorTurn lined
  · have hleads := leads_turn s t
    refine ⟨operator_turn ht s ▸ hs.calling, ?_⟩
    rw [hleads.hand_eq]
    exact hleads.steps.hopes (Ne.symm ht) lined hs.hopes

theorem Hopes.turns (n : Nat) (h : s.Reachable) (hs : s.Hopes last) : (s.turns n).Hopes last := by
  induction n generalizing s with
  | zero => exact hs
  | succ n ih =>
    unfold Session.turns
    split
    next => exact hs
    next t ready hready =>
      have hm : s.move (.turn t) = { s with ready }.turn t := by simp [move, hready]
      have herase : s.ready.erase t = ready := by simp [hready]
      have lined := herase ▸ invariant_lined.erase t h.lined_steady.1
      have hsame : ({ s with ready } : Session).Hopes last :=
        ⟨hs.calling, hs.hopes.posting, hs.hopes.line⟩
      exact ih (h.comesTo (hm ▸ comesTo_move s (.turn t))) (hsame.turn lined t)

/-! ### Time -/

/-- Where no task can go on, the end of a POST that a task waits for is to come. -/
theorem Awaits.later {q : Posting} (hs : s.Awaits) (hready : s.ready = [])
    (hq : (s.hand t).posting? = some q) : s.now < q.due ∧ (q.due, t) ∈ s.timers :=
  (hs t q hq).resolve_right fun hdue => by simp [hready] at hdue

/-- Where no task can go on, the first in line waits for its POST. -/
theorem Heeded.flushing (hs : s.Heeded) (hready : s.ready = []) (hhead : s.line.head? = some t) :
    ∃ q, s.hand t = .waiting (.flushing q) :=
  eq_waiting_flushing ((hs t hhead).resolve_right (by simp [hready]))

/-- Where no task can go on and the operator waits, some timer is set for it, and in time. -/
theorem Hopes.exists_timer (h : s.Reachable) (hs : s.Hopes last) (hready : s.ready = [])
    (waiting : s.operator.isWaiting) : ∃ timer ∈ s.timers, timer.1 ≤ last := by
  obtain ⟨⟨stage, ho⟩, hhopes⟩ := hs
  have hhand := hand_of_calling ho
  have hown (q : Posting) (hq : (s.hand .operator).posting? = some q) :
      ∃ timer ∈ s.timers, timer.1 ≤ last :=
    ⟨_, (h.awaits.later hready hq).2, hhopes.posting q hq⟩
  cases stage with
  | ended r => simp [ho, Operator.isWaiting] at waiting
  | delivering q => exact hown q (by rw [hhand]; rfl)
  | posting q => exact hown q (by rw [hhand]; rfl)
  | flushing q => exact hown q (by rw [hhand]; rfl)
  | queueing url =>
    have hmem : .operator ∈ s.line := (h.lined_steady.1.mem_line _).mpr (by rw [hhand]; rfl)
    obtain ⟨u, hu⟩ : ∃ u, s.line.head? = some u := by
      cases hl : s.line with
      | nil => simp [hl] at hmem
      | cons u line => exact ⟨u, rfl⟩
    obtain ⟨q, hq⟩ := h.heeded.flushing hready hu
    have hlast := hhopes.line u hu hmem
    have hfreed : s.freed (s.hand u) = max s.now q.due := by rw [hq]; rfl
    refine ⟨_, (h.awaits.later hready (t := u) (q := q) (by rw [hq]; rfl)).2, ?_⟩
    dsimp only
    omega

theorem Hopes.moveTo (h : s.Reachable) (hs : s.Hopes last) (hready : s.ready = []) {due : Nat}
    (hdue : s.nextDue? = some due) : (s.moveTo due).Hopes last := by
  obtain ⟨hcalling, hhopes⟩ := hs
  obtain ⟨ready, heq, -⟩ := s.toPipeline.moveTo_eq due
  refine ⟨hcalling, ?_⟩
  show (s.toPipeline.moveTo due).Hopes last s.hand
  rw [heq]
  refine ⟨hhopes.posting, fun u hu hmem => ?_⟩
  obtain ⟨q, hq⟩ := h.heeded.flushing hready hu
  obtain ⟨hlater, htimer⟩ := h.awaits.later hready (t := u) (q := q) (by rw [hq]; rfl)
  have hle := earliest_le hdue _ htimer
  have hlast := hhopes.line u hu hmem
  rw [hq] at hlast ⊢
  simp only [freed, Hand.posting?] at hlast ⊢
  omega

theorem Hopes.await (n : Nat) (h : s.Reachable) (hs : s.Hopes last) (hfirst : s.now ≤ last)
    (hn : last < s.now + n) : ∃ r, (s.await n).operator = .calling (.ended r) := by
  obtain ⟨hawait, waiting⟩ := await_ends last (fun {s} h hs => hs.turns s.work h)
    (fun h hready hdue hs => hs.moveTo h hready hdue)
    (fun h hready waiting hs => hs.exists_timer h hready waiting) n h hs hfirst hn
  obtain ⟨stage, ho⟩ := hawait.calling
  rw [ho] at waiting ⊢
  cases stage with
  | ended r => exact ⟨r, rfl⟩
  | _ => simp [Operator.isWaiting] at waiting

theorem le_horizon {timer : Nat × Task} (hmem : timer ∈ s.timers) :
    timer.1 ≤ s.now + s.horizon := by
  have hfold (timers : List (Nat × Task)) (first : Nat) :
      first ≤ timers.foldl (fun latest timer => max latest timer.1) first
        ∧ ∀ timer ∈ timers,
          timer.1 ≤ timers.foldl (fun latest timer => max latest timer.1) first := by
    induction timers generalizing first with
    | nil => simp
    | cons head rest ih =>
      obtain ⟨hfirst, hrest⟩ := ih (max first head.1)
      rw [List.foldl_cons, List.forall_mem_cons]
      exact ⟨by omega, by omega, hrest⟩
  have hlatest := (hfold s.timers s.now).2 timer hmem
  unfold horizon
  omega

/-- The operator has the result of its call when it has waited for it. -/
theorem finish_ended (h : s.Reachable) (ho : s.operator = .calling stage) :
    ∃ r, s.finish.operator = .calling (.ended r) := by
  have hdue {t : Task} {q : Posting} (hq : (s.hand t).posting? = some q) :
      q.due ≤ s.now + s.horizon := by
    rcases h.awaits t q hq with ⟨-, htimer⟩ | ⟨hdue, -⟩
    · exact le_horizon htimer
    · omega
  have hhopes : s.Hopes (s.now + s.horizon + (s.line.length + 1) * s.kpi.flushTimeout.millis) := by
    refine ⟨⟨stage, ho⟩, fun q hq => ?_, fun u hu hmem => ?_⟩
    · have := hdue hq
      omega
    · have hplace : s.line.idxOf .operator < s.line.length := List.idxOf_lt_length_of_mem hmem
      have hturns := Nat.mul_le_mul_right s.kpi.flushTimeout.millis (Nat.succ_le_of_lt hplace)
      have hfreed : s.freed (s.hand u) ≤ s.now + s.horizon + s.kpi.flushTimeout.millis := by
        unfold freed
        split
        next q hq =>
          have := hdue hq
          omega
        next => omega
      rw [Nat.succ_mul] at hturns ⊢
      omega
  unfold finish
  split
  next waiting =>
    refine hhopes.await _ h (by omega) ?_
    simp only [patience, ho]
    omega
  next waiting =>
    cases stage with
    | ended r => exact ⟨r, ho⟩
    | _ => simp [ho, Operator.isWaiting] at waiting

/-! ### Operations -/

variable {op : Operation}

theorem lasts_isFree : Lasts fun s => s.operator.isFree where
  turn {s} ready t free := by
    by_cases ht : t = .operator
    · subst ht
      show (operatorTurn { s with ready }).operator.isFree
      unfold operatorTurn
      split <;> simp_all [Operator.isFree]
    · rwa [operator_turn ht]
  elapse _ free := free

/-- Only a call or rounds of synthetic records keep the operator. -/
theorem operator_start (hcall : ∀ c, op ≠ .call c) (hrounds : ∀ rounds, op ≠ .generate rounds) :
    (s.start op).1.operator = s.operator := by
  have hcancel (s : Session) : s.cancelFlusher.operator = s.operator :=
    (aside_cancelFlusher s).operator
  cases op with
  | call c => exact absurd rfl (hcall c)
  | generate rounds => exact absurd rfl (hrounds rounds)
  | join id =>
    show (s.join id).1.operator = _
    unfold join
    split <;> rfl
  | startFlushing url => exact hcancel s
  | stopFlushing => exact hcancel s
  | startGenerator period =>
    show (s.startGenerator period).operator = _
    unfold startGenerator
    split <;> rfl
  | stopGenerator =>
    show s.stopGenerator.operator = _
    unfold stopGenerator
    dsimp only
    split <;> rfl
  | _ => rfl

/-- Every operation of a free operator but rounds of synthetic records leaves it free again. -/
theorem perform_isFree (h : s.Reachable) (free : s.operator.isFree)
    (hrounds : ∀ rounds, op ≠ .generate rounds) : (s.perform op).1.operator.isFree := by
  have hstart : s.ComesTo (s.start op).1 := by
    have hm : s.move (.start op) = (s.start op).1 := if_pos free
    exact hm ▸ comesTo_move s (.start op)
  unfold perform
  rw [if_pos free]
  dsimp only
  cases op with
  | call c =>
    obtain ⟨r, hr⟩ := finish_ended (s := s.enter c) (h.comesTo hstart) rfl
    show (s.enter c).finish.collect.1.operator.isFree
    unfold collect
    rw [hr]
    rfl
  | generate rounds => exact absurd rfl (hrounds rounds)
  | settle => exact lasts_isFree.settle free
  | advance millis =>
    unfold conclude
    dsimp only
    exact lasts_isFree.advance millis free
  | startGenerator period =>
    refine lasts_isFree.settle ?_
    rwa [operator_start (by simp) (by simp)]
  | stopGenerator =>
    refine lasts_isFree.settle ?_
    rwa [operator_start (by simp) (by simp)]
  | _ =>
    show (s.start _).1.operator.isFree
    rwa [operator_start (by simp) (by simp)]

end Session

end Uplink
