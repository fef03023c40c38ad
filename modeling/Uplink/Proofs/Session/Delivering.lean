import Uplink.Proofs.Session.Patience
import Uplink.Proofs.Session.Prompt
import Uplink.Proofs.Session.Trace
/-!
Calls that post a job themselves.  Whoever made such a call, operator or task in the background, has
its result at the end of the POST, neither before nor after, and begins no other POST until then.
-/
namespace Uplink

/-- What the submitter of a job is told of its own POST of it. -/
def Posting.verdict (q : Posting) : CallResult :=
  match q.outcome with
  | .accepted => .pushed (.ok ())
  | .failed e => .pushed (.error (.fallbackFailed q.url e))
  | .crashed => .crashed

/-- How long the submitter of a job would wait for its own POST, and what it would be told, if it
waited for ever. -/
def Reply.tells? (url : String) : Reply → Option (Nat × CallResult)
  | .status s delay =>
    some (delay, if s.isSuccess then .pushed (.ok ())
      else .pushed (.error (.fallbackFailed url (.status s))))
  | .broken reason delay => some (delay, .pushed (.error (.fallbackFailed url (.transport reason))))
  | .hang => none
  | .crash delay => some (delay, .crashed)

/-- How long the submitter of a job waits for its own POST, and what it is told: of the end if this
comes no later than the deadline, and of the deadline otherwise. -/
def Reply.verdict (url : String) (deadline : Duration) (reply : Reply) : Nat × CallResult :=
  ((reply.tells? url).filter (·.1 ≤ deadline.millis)).getD
    (deadline.millis, .pushed (.error (.fallbackFailed url (.timeout deadline))))

theorem Posting.ofReply_verdict (url : String) (now : Nat) (deadline : Duration) (reply : Reply) :
    (ofReply url now deadline reply).due = now + (reply.verdict url deadline).1
      ∧ (ofReply url now deadline reply).verdict = (reply.verdict url deadline).2 := by
  cases reply with
  | status s delay =>
    by_cases within : delay ≤ deadline.millis
    · cases h : s.isSuccess <;>
        simp [ofReply, Reply.ending?, Option.filter, Reply.verdict, Reply.tells?, verdict,
        Outcome.ofStatus, within, h]
    · simp [ofReply, Reply.ending?, Option.filter, Reply.verdict, Reply.tells?, verdict, within]
  | broken reason delay | crash delay =>
    by_cases within : delay ≤ deadline.millis <;>
      simp [ofReply, Reply.ending?, Option.filter, Reply.verdict, Reply.tells?, verdict, within]
  | hang => exact ⟨rfl, rfl⟩

/-- The submitter is told of success exactly if the answer is one and comes in time. -/
theorem Reply.verdict_eq_ok {url : String} {deadline : Duration} {reply : Reply} :
    (reply.verdict url deadline).2 = .pushed (.ok ()) ↔
      ∃ s delay, reply = .status s delay ∧ s.isSuccess ∧ delay ≤ deadline.millis := by
  cases reply with
  | status s delay =>
    by_cases within : delay ≤ deadline.millis <;> cases h : s.isSuccess <;>
      simp [verdict, tells?, Option.filter, within, h]
  | broken reason delay | crash delay =>
    by_cases within : delay ≤ deadline.millis <;> simp [verdict, tells?, Option.filter, within]
  | hang => simp [verdict, tells?]

namespace Event

def postOf? (t : Task) : Event → Option PostEntry
  | posted u _ e => if u = t then some e else none
  | _ => none

theorem postOf?_of_task? {t u : Task} {e : Event} (hu : u ≠ t)
    (he : e.task? = none ∨ e.task? = some u) : e.postOf? t = none := by
  cases e with
  | posted v aim e =>
    have same : v = u := by simpa [task?] using he
    rw [postOf?, if_neg (same ▸ hu)]
  | _ => rfl

end Event

def Journal.postsOf (t : Task) (j : Journal) : List PostEntry :=
  j.events.filterMap (Event.postOf? t)

namespace Pipeline

variable {quits : Prop} {t u : Task} {p p' : Pipeline} {h h' : Hand}

/-- What a task does leaves the POSTs of the others as they are. -/
theorem Steps.postsOf_eq (hs : Steps quits u p h p' h') (hu : u ≠ t) :
    p'.journal.postsOf t = p.journal.postsOf t := by
  obtain ⟨es, hes, hown⟩ := hs.notes
  have none : es.filterMap (Event.postOf? t) = [] := by
    rw [List.filterMap_eq_nil_iff]
    intro e he
    exact Event.postOf?_of_task? hu (hown e he)
  unfold Journal.postsOf
  rw [hes, List.filterMap_append, none, List.nil_append]

theorem deliver_snd (p : Pipeline) (t : Task) (q : Posting) : (p.deliver t q).2 = q.verdict := by
  unfold deliver Posting.verdict
  cases q.outcome <;> rfl

theorem postsOf_deliver (p : Pipeline) (t u : Task) (q : Posting) :
    (p.deliver t q).1.journal.postsOf u = p.journal.postsOf u := by
  rw [deliver_eq]
  rfl

end Pipeline

namespace Session

open Pipeline

variable {s s' : Session} {q : Posting} {id : Nat}

/-! ### The operator -/

/-- A turn leaves the call of the operator as it is, unless its POST is over: then it may have come
to its result. -/
theorem turn_delivering (t : Task) (ho : s.operator = .calling (.delivering q)) :
    ((s.turn t).operator = .calling (.delivering q)
      ∨ q.due ≤ s.now ∧ (s.turn t).operator = .calling (.ended q.verdict))
    ∧ (s.turn t).journal.postsOf .operator = s.journal.postsOf .operator := by
  by_cases ht : t = .operator
  · subst ht
    have hturn : s.turn .operator = { s with
        toPipeline := (s.proceed .operator (.delivering q)).1
        operator := .calling (s.proceed .operator (.delivering q)).2 } := by
      show s.operatorTurn = _
      unfold operatorTurn
      rw [ho]
    rw [hturn]
    unfold proceed
    dsimp only
    split
    next due => exact ⟨.inr ⟨due, by rw [deliver_snd]⟩, postsOf_deliver _ _ _ _⟩
    next => exact ⟨.inl rfl, rfl⟩
  · rw [operator_turn ht]
    exact ⟨.inl ho, (leads_turn s t).steps.postsOf_eq ht⟩

/-- A result stays with the operator. -/
theorem turn_ended {r : CallResult} (t : Task) (ho : s.operator = .calling (.ended r)) :
    (s.turn t).operator = .calling (.ended r)
      ∧ (s.turn t).journal.postsOf .operator = s.journal.postsOf .operator := by
  by_cases ht : t = .operator
  · subst ht
    show s.operatorTurn.operator = _ ∧ s.operatorTurn.journal.postsOf _ = _
    unfold operatorTurn
    rw [ho]
    exact ⟨rfl, rfl⟩
  · rw [operator_turn ht]
    exact ⟨ho, (leads_turn s t).steps.postsOf_eq ht⟩

theorem turns_ended {r : CallResult} (n : Nat) (ho : s.operator = .calling (.ended r)) :
    (s.turns n).operator = .calling (.ended r)
      ∧ (s.turns n).journal.postsOf .operator = s.journal.postsOf .operator := by
  induction n generalizing s with
  | zero => exact ⟨ho, rfl⟩
  | succ n ih =>
    unfold turns
    split
    next => exact ⟨ho, rfl⟩
    next t ready _ =>
      obtain ⟨hturn, hposts⟩ := turn_ended (s := { s with ready }) t ho
      obtain ⟨hrest, hposts'⟩ := ih hturn
      exact ⟨hrest, hposts'.trans hposts⟩

theorem turns_delivering (n : Nat) (ho : s.operator = .calling (.delivering q)) :
    ((s.turns n).operator = .calling (.delivering q)
      ∨ q.due ≤ s.now ∧ (s.turns n).operator = .calling (.ended q.verdict))
    ∧ (s.turns n).journal.postsOf .operator = s.journal.postsOf .operator := by
  induction n generalizing s with
  | zero => exact ⟨.inl ho, rfl⟩
  | succ n ih =>
    unfold turns
    split
    next => exact ⟨.inl ho, rfl⟩
    next t ready _ =>
      have hnow : ({ s with ready }.turn t).now = s.now :=
        (leads_turn { s with ready } t).steps.now_eq
      obtain ⟨hturn, hposts⟩ := turn_delivering (s := { s with ready }) t ho
      rcases hturn with waits | ⟨due, ended⟩
      · obtain ⟨hrest, hposts'⟩ := ih waits
        rw [hnow] at hrest
        exact ⟨hrest, hposts'.trans hposts⟩
      · obtain ⟨hrest, hposts'⟩ := turns_ended n ended
        exact ⟨.inr ⟨due, hrest⟩, hposts'.trans hposts⟩

/-- The operator has the result of its call at the end of its POST, and only then. -/
theorem await_delivering {r : CallResult} (n : Nat) (h : s.Reachable)
    (ho : s.operator = .calling (.delivering q)) (hnow : s.now ≤ q.due)
    (hr : (s.await n).operator = .calling (.ended r)) :
    r = q.verdict ∧ (s.await n).now = q.due
      ∧ (s.await n).journal.postsOf .operator = s.journal.postsOf .operator := by
  induction n generalizing s with
  | zero =>
    rw [await, ho] at hr
    cases hr
  | succ n ih =>
    have hreachable := h.comesTo (comesTo_settle s)
    have hsettled := now_settle s
    obtain ⟨hsettle, hposts⟩ := turns_delivering s.work ho
    change s.settle.operator = _ ∨ _ ∧ s.settle.operator = _ at hsettle
    change s.settle.journal.postsOf _ = _ at hposts
    unfold await at hr ⊢
    dsimp only at hr ⊢
    rcases hsettle with waits | ⟨due, ended⟩
    · have waiting : s.settle.operator.isWaiting = true := by rw [waits]; rfl
      have hhand := hand_of_calling waits
      obtain ⟨later, htimer⟩ := hreachable.awaits.later h.ready_settle (t := .operator) (q := q)
        (by rw [hhand]; rfl)
      rw [if_pos waiting] at hr ⊢
      split at hr
      next hnone =>
        rw [timers_of_nextDue?_eq_none hnone] at htimer
        cases htimer
      next next hnext =>
        have hle : next ≤ q.due := earliest_le hnext _ htimer
        have hmoved := now_moveTo s.settle next
        obtain ⟨hresult, hend, hposts'⟩ :=
          ih (hreachable.comesTo (comesTo_moveTo _ next)) (by exact waits) (by omega) hr
        refine ⟨hresult, hend, hposts'.trans ?_⟩
        show (s.settle.toPipeline.moveTo next).journal.postsOf _ = _
        rw [journal_moveTo]
        exact hposts
    · have waiting : ¬s.settle.operator.isWaiting = true := by rw [ended]; exact Bool.false_ne_true
      rw [if_neg waiting] at hr ⊢
      rw [ended] at hr
      cases hr
      exact ⟨rfl, by omega, hposts⟩

/-! ### Calls in the background -/

theorem hand_caller_of_under {stage : Stage} (hc : s.callers[id]? = some (.under stage)) :
    s.hand (.caller id) = .ofStage stage := by
  simp [hand, hc, Caller.hand]

structure Delivers (id : Nat) (q : Posting) (posts : List PostEntry) (s : Session) : Prop where
  waits : s.callers[id]? = some (.under (.delivering q))
  early : s.now ≤ q.due
  posts : s.journal.postsOf (.caller id) = posts

theorem callers_of_hand (hh : s.hand (.caller id) = .waiting (.delivering q)) :
    s.callers[id]? = some (.under (.delivering q)) := by
  cases hc : s.callers[id]? with
  | none => simp [hand, hc] at hh
  | some caller =>
    cases caller with
    | under stage => cases stage <;> simp_all [hand, Caller.hand, Hand.ofStage]
    | _ => simp [hand, hc, Caller.hand] at hh

variable {quits : Prop} {posts : List PostEntry}

/-- Whatever another task does, the call goes on waiting. -/
theorem Delivers.leads {t : Task} {h : Hand} (hs : Delivers id q posts s)
    (hl : Leads quits t h s s')
    (ht : t ≠ .caller id) : Delivers id q posts s' where
  waits := callers_of_hand <| by
    rw [hl.others _ (Ne.symm ht), hand_caller_of_under hs.waits]
    rfl
  early := by
    rw [hl.steps.now_eq]
    exact hs.early
  posts := (hl.steps.postsOf_eq ht).trans hs.posts

/-- A turn of the task before the end of the POST leaves the call waiting, and one at the end brings
its result. -/
theorem Delivers.turn (hs : Delivers id q posts s) (t : Task) :
    Delivers id q posts (s.turn t) ∨ t = .caller id ∧ (s.turn t).now = q.due
      ∧ (s.turn t).callers[id]? = some (.under (.ended q.verdict))
      ∧ (s.turn t).journal.postsOf (.caller id) = posts := by
  by_cases ht : t = .caller id
  · subst ht
    obtain ⟨hid, _⟩ := List.getElem?_eq_some_iff.mp hs.waits
    have hturn : s.turn (.caller id) = let r := s.proceed (.caller id) (.delivering q)
        { s with toPipeline := r.1, callers := s.callers.set id (.under r.2) } := by
      show callerTurn _ id = _
      unfold callerTurn
      dsimp only
      rw [hs.waits]
    rw [hturn]
    unfold proceed
    dsimp only
    split
    next due =>
      have hnow : s.now = q.due := Nat.le_antisymm hs.early due
      rw [deliver_snd, postsOf_deliver, deliver_eq]
      exact .inr ⟨rfl, hnow, List.getElem?_set_self hid, hs.posts⟩
    next => exact .inl ⟨List.getElem?_set_self hid, hs.early, hs.posts⟩
  · exact .inl (hs.leads (leads_turn s t) ht)

/-- The call goes on waiting with every move at its time, until its task has its turn at the end of
the POST and the call its result. -/
theorem Delivers.move (h : s.Reachable) (hs : Delivers id q posts s) {m : Move}
    (prompt : m.Prompt s) :
    Delivers id q posts (s.move m) ∨ m = .turn (.caller id) ∧ (s.move m).now = q.due
      ∧ (s.move m).callers[id]? = some (.under (.ended q.verdict))
      ∧ (s.move m).journal.postsOf (.caller id) = posts := by
  have hm := s.moves_move m
  generalize s.move m = s' at hm ⊢
  cases hm with
  | stays => exact .inl hs
  | start op free =>
    have hfree := hand_operator_of_isFree free
    exact .inl (hs.leads (hfree ▸ leads_start s op free) (by simp))
  | collect =>
    refine .inl ⟨callers_of_hand ?_, ?_, ?_⟩
    · rw [hand_collect, hand_caller_of_under hs.waits]
      rfl
    · rw [toPipeline_collect]
      exact hs.early
    · rw [toPipeline_collect]
      exact hs.posts
  | turn t _ =>
    have hturn := Delivers.turn (s := { s with ready := s.ready.erase t })
      ⟨hs.waits, hs.early, hs.posts⟩ t
    exact hturn.imp_right fun ⟨ht, done⟩ => ⟨ht ▸ rfl, done⟩
  | elapse now =>
    obtain ⟨settled, next⟩ := prompt
    -- the task has a timer for the end of its POST, and time does not move past it
    obtain ⟨later, htimer⟩ := h.awaits.later settled (t := .caller id) (q := q)
      (by rw [hand_caller_of_under hs.waits]; rfl)
    have hle := next _ htimer
    have hmoved := now_moveTo s now
    refine .inl ⟨hs.waits, ?_, ?_⟩
    · show (s.moveTo now).now ≤ _
      omega
    · show (s.toPipeline.moveTo now).journal.postsOf _ = _
      rw [journal_moveTo]
      exact hs.posts
  | dropOwn calling flushes => exact .inl (hs.leads (leads_dropOwn calling flushes) (by simp))
  | drop calling flushes =>
    -- the call that waits for its own POST is no flush
    refine .inl (hs.leads (leads_drop calling flushes) fun own => ?_)
    cases own
    cases hs.waits.symm.trans calling
    cases flushes
  | discard => exact .inl (hs.leads (leads_stopFlushing s) (by simp))

/-- In a prompt run the call goes on waiting, or has come to its result at the end of the POST. -/
theorem Delivers.runs (h : s.Reachable) (hs : Delivers id q posts s) (run : s.Runs s') :
    Delivers id q posts s' ∨ ∃ s₁, s.Runs s₁ ∧ (s₁.move (.turn (.caller id))).Runs s'
      ∧ Delivers id q posts s₁ ∧ (s₁.move (.turn (.caller id))).now = q.due
      ∧ (s₁.move (.turn (.caller id))).callers[id]? = some (.under (.ended q.verdict))
      ∧ (s₁.move (.turn (.caller id))).journal.postsOf (.caller id) = posts := by
  obtain ⟨moves, prompt, rfl⟩ := run
  induction moves generalizing s with
  | nil => exact .inl hs
  | cons m moves ih =>
    obtain ⟨hm, hmoves⟩ := prompt
    rcases hs.move h hm with waits | ⟨rfl, hdone⟩
    · rcases ih (h.comesTo (comesTo_move s m)) waits hmoves with rest | ⟨s₁, before, after, hrest⟩
      · exact .inl rest
      · exact .inr ⟨s₁, (runs_move hm).trans before, after, hrest⟩
    · exact .inr ⟨s, .refl s, ⟨moves, hmoves, rfl⟩, hs, hdone⟩

/-! ### Whoever calls -/

/-- At `s'`, on a run from `s` where background call `id` begins, the call is not over and its time
has not passed, or the run has been through the turn that ended it at `due` with the result `r`,
after its task had begun the POSTs `posts` and no others. -/
def Answers (s : Session) (id due : Nat) (r : CallResult) (posts : List PostEntry)
    (s' : Session) : Prop :=
  s'.results (.caller id) = [] ∧ s'.now ≤ due ∧ (s'.ready = [] → s'.now < due)
    ∨ ∃ s₁, s.Runs s₁ ∧ (s₁.move (.turn (.caller id))).Runs s' ∧ s₁.results (.caller id) = []
      ∧ (s₁.move (.turn (.caller id))).results (.caller id) = [r]
      ∧ (s₁.move (.turn (.caller id))).now = due
      ∧ (s₁.move (.turn (.caller id))).journal.postsOf (.caller id)
        = posts ++ s.journal.postsOf (.caller id)

/-- Whoever makes a call at `s`, the operator or a task in the background that has its turn, has the
result `r` of it at `due`, and begins the POSTs `posts` for it and no others. -/
structure Ends (s : Session) (c : Call) (due : Nat) (r : CallResult) (posts : List PostEntry) :
    Prop where
  operator : s.operator.isFree → (s.perform (.call c)).2 = .result r
    ∧ (s.perform (.call c)).1.now = due
    ∧ (s.perform (.call c)).1.journal.postsOf .operator = posts ++ s.journal.postsOf .operator
  caller : ∀ id s', s.callers[id]? = some (.fresh c) → .caller id ∈ s.ready →
    (s.move (.turn (.caller id))).Runs s' → s.Answers id due r posts s'

end Session

/-- A call is over with the result `r`, or waits for its own POST, which ends with that at `due`. -/
def Stage.EndsWith (now due : Nat) (r : CallResult) : Stage → Prop
  | .ended r' => now = due ∧ r' = r
  | .delivering q => now < q.due ∧ q.due = due ∧ q.verdict = r
  | _ => False

namespace Session

open Pipeline

variable {s : Session} {c : Call} {due : Nat} {r : CallResult} {posts : List PostEntry}

theorem result_collect (ho : s.operator = .calling (.ended r)) : s.collect.2 = .result r := by
  rw [collect, ho]

theorem perform_call_ends (h : s.Reachable) (free : s.operator.isFree)
    (hstage : (s.begin .operator c).2.EndsWith s.now due r)
    (hposts : (s.begin .operator c).1.journal.postsOf .operator
      = posts ++ s.journal.postsOf .operator) :
    (s.perform (.call c)).2 = .result r ∧ (s.perform (.call c)).1.now = due
      ∧ (s.perform (.call c)).1.journal.postsOf .operator
        = posts ++ s.journal.postsOf .operator := by
  have hstart : s.ComesTo (s.enter c) := by
    have hm : s.move (.start (.call c)) = s.enter c := if_pos free
    exact hm ▸ comesTo_move s (.start (.call c))
  have hnow : (s.enter c).now = s.now := (@begin_steps False s.toPipeline .operator c).now_eq
  have hperform : s.perform (.call c) = (s.enter c).finish.collect := by
    rw [perform, if_pos free]
    rfl
  rw [hperform, toPipeline_collect]
  have henter : (s.enter c).operator = .calling (s.begin .operator c).2 := rfl
  have hposted : (s.enter c).journal.postsOf .operator = posts ++ s.journal.postsOf .operator :=
    hposts
  generalize hcall : (s.begin .operator c).2 = stage at hstage henter
  cases stage with
  | ended r' =>
    obtain ⟨rfl, rfl⟩ := hstage
    have idle : (s.enter c).finish = s.enter c := by
      rw [finish, henter]
      rfl
    rw [idle]
    exact ⟨result_collect henter, hnow, hposted⟩
  | delivering q =>
    obtain ⟨later, rfl, rfl⟩ := hstage
    obtain ⟨r, hr⟩ := finish_ended (h.comesTo hstart) henter
    have waiting : (s.enter c).finish = (s.enter c).await (s.enter c).patience := by
      rw [finish, if_pos (by rw [henter]; rfl)]
    rw [waiting] at hr ⊢
    obtain ⟨rfl, hend, hsame⟩ :=
      await_delivering _ (h.comesTo hstart) henter (by omega) hr
    exact ⟨result_collect hr, hend, hsame.trans hposted⟩
  | _ => cases hstage

theorem callerTurn_answers (h : s.Reachable) {id : Nat} {s' : Session}
    (hc : s.callers[id]? = some (.fresh c)) (ready : .caller id ∈ s.ready)
    (hstage : (Pipeline.begin { s.toPipeline with ready := s.ready.erase (.caller id) }
      (.caller id) c).2.EndsWith s.now due r)
    (hposts : (Pipeline.begin { s.toPipeline with ready := s.ready.erase (.caller id) }
      (.caller id) c).1.journal.postsOf (.caller id) = posts ++ s.journal.postsOf (.caller id))
    (run : (s.move (.turn (.caller id))).Runs s') : s.Answers id due r posts s' := by
  obtain ⟨hid, _⟩ := List.getElem?_eq_some_iff.mp hc
  have hbegin := (@begin_steps False { s.toPipeline with ready := s.ready.erase (.caller id) }
    (.caller id) c).now_eq
  have hmove : s.move (.turn (.caller id))
      = let r := Pipeline.begin { s.toPipeline with ready := s.ready.erase (.caller id) }
          (.caller id) c
        { s with toPipeline := r.1, callers := s.callers.set id (.under r.2) } := by
    rw [move, if_pos ready]
    show callerTurn _ id = _
    unfold callerTurn
    dsimp only
    rw [hc]
  have hfirst : s.results (.caller id) = [] := by
    simp [results, hc, Caller.results]
  have hreachable := h.comesTo (comesTo_move s (.turn (.caller id)))
  have hprompt : s.Runs (s.move (.turn (.caller id))) := runs_move trivial
  generalize hr : Pipeline.begin { s.toPipeline with ready := s.ready.erase (.caller id) }
    (.caller id) c = result at *
  obtain ⟨p, stage⟩ := result
  cases stage with
  | ended r' =>
    obtain ⟨rfl, rfl⟩ := hstage
    refine .inr ⟨s, .refl s, run, hfirst, ?_, ?_, ?_⟩
    · simp [hmove, results, hid, Caller.results, Stage.result?]
    · rw [hmove]
      exact hbegin
    · rw [hmove]
      exact hposts
  | delivering q =>
    obtain ⟨later, rfl, rfl⟩ := hstage
    have hs : Delivers id q (posts ++ s.journal.postsOf (.caller id))
        (s.move (.turn (.caller id))) := by
      rw [hmove]
      exact ⟨List.getElem?_set_self hid, by dsimp only at hbegin ⊢; omega, hposts⟩
    have none {s : Session} (hs : s.callers[id]? = some (.under (.delivering q))) :
        s.results (.caller id) = [] := by
      simp [results, hs, Caller.results, Stage.result?]
    rcases hs.runs hreachable run with waits | ⟨s₁, before, after, waits, hend, hresult, hposted⟩
    · refine .inl ⟨none waits.waits, waits.early, fun settled => ?_⟩
      exact ((hreachable.comesTo run.comesTo).awaits.later settled (t := .caller id) (q := q)
        (by rw [hand_caller_of_under waits.waits]; rfl)).1
    · refine .inr ⟨s₁, hprompt.trans before, after, none waits.waits, ?_, hend, hposted⟩
      simp [results, hresult, Caller.results, Stage.result?]
  | _ => cases hstage

/-- What the beginning of a call settles is how it ends, whoever makes it. -/
theorem ends_of_begin (h : s.Reachable)
    (hb : ∀ t ready, (Pipeline.begin { s.toPipeline with ready } t c).2.EndsWith s.now due r
      ∧ (Pipeline.begin { s.toPipeline with ready } t c).1.journal.postsOf t
        = posts ++ s.journal.postsOf t) : s.Ends c due r posts where
  operator free := perform_call_ends h free (hb .operator s.ready).1 (hb .operator s.ready).2
  caller id _ hc ready run :=
    callerTurn_answers h hc ready (hb (.caller id) _).1 (hb (.caller id) _).2 run

end Session

end Uplink
