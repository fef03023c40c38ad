import Uplink.Session.Operation
/-!
Likeness.  Two sessions look alike if they differ only in what no answer shows: in the journal
beside the POSTs, the calls of the hook and the lines of the log, and in the memory of what was done
about flushing.  Nothing that happens tells such sessions apart.
-/
namespace Uplink

/-- What can be shown of two journals is the same, and the same was shown already. -/
structure Journal.LooksLike (j j' : Journal) : Prop where
  posts : j'.posts = j.posts
  hooks : j'.hooks = j.hooks
  logs : j'.logs = j.logs
  shownPosts : j'.shownPosts = j.shownPosts
  shownHooks : j'.shownHooks = j.shownHooks
  shownLogs : j'.shownLogs = j.shownLogs

namespace Journal

variable {j j' j'' : Journal}

theorem LooksLike.refl (j : Journal) : j.LooksLike j := ⟨rfl, rfl, rfl, rfl, rfl, rfl⟩

theorem LooksLike.trans (h : j.LooksLike j') (h' : j'.LooksLike j'') : j.LooksLike j'' :=
  ⟨h'.posts.trans h.posts, h'.hooks.trans h.hooks, h'.logs.trans h.logs,
    h'.shownPosts.trans h.shownPosts, h'.shownHooks.trans h.shownHooks,
    h'.shownLogs.trans h.shownLogs⟩

theorem LooksLike.addAll (h : j.LooksLike j') (es : List Event) :
    (j.addAll es).LooksLike (j'.addAll es) := by
  have hsame {α : Type} (f : Event → Option α)
      (hf : j'.events.filterMap f = j.events.filterMap f) :
      (j'.addAll es).events.filterMap f = (j.addAll es).events.filterMap f := by
    simp only [Journal.addAll, List.filterMap_append, hf]
  exact ⟨hsame _ h.posts, hsame _ h.hooks, hsame _ h.logs, h.shownPosts, h.shownHooks, h.shownLogs⟩

theorem LooksLike.add (h : j.LooksLike j') (e : Event) : (j.add e).LooksLike (j'.add e) :=
  h.addAll [e]

/-- An event that is neither a POST nor a call of the hook nor a line of the log is not seen. -/
theorem looksLike_add {e : Event} (hpost : e.post? = none) (hhook : e.hook? = none)
    (hlog : e.log? = none) (j : Journal) : j.LooksLike (j.add e) :=
  ⟨List.filterMap_cons_none hpost, List.filterMap_cons_none hhook, List.filterMap_cons_none hlog,
    rfl, rfl, rfl⟩

theorem LooksLike.showPosts (h : j.LooksLike j') : j.showPosts.LooksLike j'.showPosts :=
  ⟨h.posts, h.hooks, h.logs, congrArg List.length h.posts, h.shownHooks, h.shownLogs⟩

theorem LooksLike.showHooks (h : j.LooksLike j') : j.showHooks.LooksLike j'.showHooks :=
  ⟨h.posts, h.hooks, h.logs, h.shownPosts, congrArg List.length h.hooks, h.shownLogs⟩

theorem LooksLike.showLogs (h : j.LooksLike j') : j.showLogs.LooksLike j'.showLogs :=
  ⟨h.posts, h.hooks, h.logs, h.shownPosts, h.shownHooks, congrArg List.length h.logs⟩

theorem LooksLike.sortedPosts (h : j.LooksLike j') : j'.sortedPosts = j.sortedPosts := by
  unfold Journal.sortedPosts
  rw [h.posts, h.shownPosts]

theorem LooksLike.sortedHooks (h : j.LooksLike j') : j'.sortedHooks = j.sortedHooks := by
  unfold Journal.sortedHooks
  rw [h.hooks, h.shownHooks]

theorem LooksLike.sortedLogs (h : j.LooksLike j') : j'.sortedLogs = j.sortedLogs := by
  unfold Journal.sortedLogs
  rw [h.logs, h.shownLogs]

end Journal

namespace Pipeline

/-- Two pipelines differ in their journals only, and these look alike. -/
def LooksLike (p p' : Pipeline) : Prop :=
  ∃ j, p' = { p with journal := j } ∧ p.journal.LooksLike j

/-- Two results are equal and leave pipelines that look alike. -/
def LookAlike {α : Type} (r r' : Pipeline × α) : Prop := r.1.LooksLike r'.1 ∧ r'.2 = r.2

variable {p p' : Pipeline}

theorem LooksLike.refl (p : Pipeline) : p.LooksLike p := ⟨p.journal, rfl, .refl _⟩

theorem LookAlike.exists_journal {α : Type} {r r' : Pipeline × α} (h : LookAlike r r') :
    ∃ j, r' = ({ r.1 with journal := j }, r.2) ∧ r.1.journal.LooksLike j := by
  obtain ⟨⟨j, heq, hj⟩, hresult⟩ := h
  exact ⟨j, Prod.ext heq hresult, hj⟩

/-! ### What the tasks do to the pipeline -/

theorem LooksLike.note (h : p.LooksLike p') (e : Event) : (p.note e).LooksLike (p'.note e) := by
  obtain ⟨j, rfl, hj⟩ := h
  exact ⟨_, rfl, hj.add e⟩

theorem LooksLike.wake (h : p.LooksLike p') (t : Task) : (p.wake t).LooksLike (p'.wake t) := by
  obtain ⟨j, rfl, hj⟩ := h
  exact ⟨j, rfl, hj⟩

theorem LooksLike.resumeFirst (h : p.LooksLike p') (t : Task) :
    (p.resumeFirst t).LooksLike (p'.resumeFirst t) := by
  obtain ⟨j, rfl, hj⟩ := h
  exact ⟨j, rfl, hj⟩

theorem LooksLike.startWorkers (h : p.LooksLike p') (workers capacity : Nat) :
    (p.startWorkers workers capacity).LooksLike (p'.startWorkers workers capacity) := by
  obtain ⟨j, rfl, hj⟩ := h
  unfold Pipeline.startWorkers
  dsimp only
  split <;> exact ⟨j, rfl, hj⟩

theorem LooksLike.count (h : p.LooksLike p') (c : Change) : (p.count c).LooksLike (p'.count c) := by
  obtain ⟨j, rfl, hj⟩ := h
  exact ⟨_, rfl, hj.add _⟩

theorem LooksLike.post (h : p.LooksLike p') (t : Task) (aim : Aim) (url : String) (body : Octets)
    (deadline : Duration) :
    LookAlike (p.post t aim url body deadline) (p'.post t aim url body deadline) := by
  obtain ⟨j, rfl, hj⟩ := h
  exact ⟨⟨_, rfl, hj.add _⟩, rfl⟩

theorem LooksLike.moveTo (h : p.LooksLike p') (now : Nat) :
    (p.moveTo now).LooksLike (p'.moveTo now) := by
  -- each task is woken by what the ones before it left
  have hwake {p p' : Pipeline} (h : p.LooksLike p') (ts : List Task) :
      (ts.foldl Pipeline.wake p).LooksLike (ts.foldl Pipeline.wake p') := by
    induction ts generalizing p p' with
    | nil => exact h
    | cons t ts ih => exact ih (h.wake t)
  obtain ⟨j, rfl, hj⟩ := h
  have hmoved : LooksLike { p with now := max p.now now, timers := p.timers.filter (now < ·.1) }
      { p with journal := j, now := max p.now now, timers := p.timers.filter (now < ·.1) } :=
    ⟨j, rfl, hj⟩
  exact hwake hmoved _

/-! ### Jobs -/

theorem LooksLike.deliver (h : p.LooksLike p') (t : Task) (q : Posting) :
    LookAlike (p.deliver t q) (p'.deliver t q) := by
  obtain ⟨j, rfl, hj⟩ := h
  unfold Pipeline.deliver
  dsimp only
  cases q.outcome <;> exact ⟨⟨_, rfl, hj.add _⟩, rfl⟩

/-- A POST is over at once, or its task waits for it. -/
theorem LooksLike.await (h : p.LooksLike p') (finish : Pipeline → Posting → Pipeline × CallResult)
    (hfinish : ∀ {p p'}, p.LooksLike p' → ∀ q, LookAlike (finish p q) (finish p' q)) (q : Posting)
    (stage : Stage) :
    LookAlike
      (if q.due ≤ p.now then ((finish p q).1, .ended (finish p q).2) else (p, stage))
      (if q.due ≤ p'.now then ((finish p' q).1, .ended (finish p' q).2) else (p', stage)) := by
  obtain ⟨hf, heq⟩ := hfinish h q
  obtain ⟨j, rfl, hj⟩ := h
  dsimp only
  split
  · exact ⟨hf, congrArg Stage.ended heq⟩
  · exact ⟨⟨j, rfl, hj⟩, rfl⟩

theorem LooksLike.fallback (h : p.LooksLike p') (t : Task) (j : Job) (deadline : Duration) :
    LookAlike (p.fallback t j deadline) (p'.fallback t j deadline) := by
  obtain ⟨journal, rfl, hj⟩ := h
  have hnote : LooksLike
      ({ p with dispatcher := p.dispatcher.countFallback }.note (.diverted t j))
      ({ p with journal, dispatcher := p.dispatcher.countFallback }.note (.diverted t j)) :=
    ⟨_, rfl, hj.add _⟩
  exact (hnote.post t .fallback j.url j.body deadline).1.await (Pipeline.deliver · t)
    (fun h q => h.deliver t q) _ _

theorem LooksLike.submit (h : p.LooksLike p') (t : Task) (j : Job) (deadline : Duration) :
    LookAlike (p.submit t j deadline) (p'.submit t j deadline) := by
  obtain ⟨journal, heq, hj⟩ := (h.note (.submitted t j)).startWorkers 0 0
  unfold Pipeline.submit
  rw [heq]
  generalize (p.note (.submitted t j)).startWorkers 0 0 = p at hj
  dsimp only
  cases p.dispatcher.offer j with
  | ok d => exact ⟨⟨_, rfl, hj.add _⟩, rfl⟩
  | error refusal =>
    have hp : p.LooksLike { p with journal } := ⟨journal, rfl, hj⟩
    cases refusal with
    | full => exact (hp.note _).fallback t j deadline
    | closed => exact (hp.note _).fallback t j deadline

/-! ### The flush -/

theorem LooksLike.leave (h : p.LooksLike p') (t : Task) (e : Event) :
    (p.leave t e).LooksLike (p'.leave t e) := by
  obtain ⟨j, rfl, hj⟩ := h
  unfold Pipeline.leave
  dsimp only
  split
  · exact ⟨_, rfl, hj.add _⟩
  · exact ⟨j, rfl, hj⟩

theorem LooksLike.land (h : p.LooksLike p') (t : Task) (q : Posting) :
    LookAlike (p.land t q) (p'.land t q) := by
  obtain ⟨j, rfl, hj⟩ := h
  have hp : p.LooksLike { p with journal := j } := ⟨j, rfl, hj⟩
  unfold Pipeline.land
  dsimp only
  cases p.kpi.flight with
  | none => exact ⟨hp.leave t _, rfl⟩
  | some f =>
    cases q.outcome with
    | accepted => exact ⟨LooksLike.leave ⟨_, rfl, hj.add _⟩ t _, rfl⟩
    | failed e => exact ⟨(hp.note _).leave t _, rfl⟩
    | crashed => exact ⟨hp.leave t _, rfl⟩

theorem LooksLike.depart (h : p.LooksLike p') (t : Task) (url : String) :
    LookAlike (p.depart t url) (p'.depart t url) := by
  obtain ⟨j, rfl, hj⟩ := h
  have hstamp : ({ p with journal := j } : Pipeline).reportStamp = p.reportStamp := rfl
  unfold Pipeline.depart
  dsimp only
  rw [hstamp]
  cases p.kpi.prepare p.identity.neUid p.reportStamp with
  | none => exact ⟨LooksLike.leave ⟨j, rfl, hj⟩ t _, rfl⟩
  | some f =>
    have hnote : LooksLike (p.launch t f) (Pipeline.launch { p with journal := j } t f) :=
      ⟨_, rfl, hj.add _⟩
    exact (hnote.post t .report url (Record.encode f.report) p.kpi.flushTimeout).1.await
      (Pipeline.land · t) (fun h q => h.land t q) _ _

theorem LooksLike.flush (h : p.LooksLike p') (t : Task) (url : String) :
    LookAlike (p.flush t url) (p'.flush t url) := by
  obtain ⟨j, rfl, hj⟩ := h
  have hp : LooksLike { p with line := p.line ++ [t] }
      { p with journal := j, line := p.line ++ [t] } := ⟨j, rfl, hj⟩
  unfold Pipeline.flush
  dsimp only
  split
  · exact hp.depart t url
  · exact ⟨hp, rfl⟩

/-! ### Calls -/

theorem LooksLike.begin (h : p.LooksLike p') (t : Task) (c : Call) :
    LookAlike (p.begin t c) (p'.begin t c) := by
  have hnote := h.note (.called t c)
  obtain ⟨j, rfl, hj⟩ := h
  cases c with
  | push url record timeout =>
    cases record with
    | error e => exact ⟨hnote, rfl⟩
    | ok r => exact LooksLike.submit ⟨_, rfl, hj.add _⟩ t _ _
  | submit url body deadline =>
    cases body with
    | none => exact ⟨hnote, rfl⟩
    | some body => exact hnote.submit t _ _
  | flush url => exact hnote.flush t url
  | post url body deadline =>
    exact (hnote.post t .direct url body deadline).1.await (fun p q => (p, postResult q))
      (fun h _ => ⟨h, rfl⟩) _ _

theorem LooksLike.proceed (h : p.LooksLike p') (t : Task) (stage : Stage) :
    LookAlike (p.proceed t stage) (p'.proceed t stage) := by
  cases stage with
  | ended r => exact ⟨h, rfl⟩
  | delivering q => exact h.await (Pipeline.deliver · t) (fun h q => h.deliver t q) q _
  | posting q => exact h.await (fun p q => (p, postResult q)) (fun h _ => ⟨h, rfl⟩) q _
  | flushing q => exact h.await (Pipeline.land · t) (fun h q => h.land t q) q _
  | queueing url =>
    have hdepart := h.depart t url
    obtain ⟨j, rfl, hj⟩ := h
    unfold Pipeline.proceed
    dsimp only
    split
    · exact hdepart
    · exact ⟨⟨j, rfl, hj⟩, rfl⟩

/-! ### Workers -/

theorem LooksLike.finishJob (h : p.LooksLike p') (w : Nat) (q : Posting) :
    (p.finishJob w q).LooksLike (p'.finishJob w q) := by
  obtain ⟨j, rfl, hj⟩ := h
  exact ⟨_, rfl, hj.addAll _⟩

/-- The POST of a worker is over at once, or the worker waits for it. -/
theorem LooksLike.engage (h : p.LooksLike p') (w : Nat) (q : Posting) :
    LooksLike
      (if q.due ≤ p.now then (p.finishJob w q).resumeFirst (.worker w)
        else { p with dispatcher := p.dispatcher.engage w q })
      (if q.due ≤ p'.now then (p'.finishJob w q).resumeFirst (.worker w)
        else { p' with dispatcher := p'.dispatcher.engage w q }) := by
  have hfinish := (h.finishJob w q).resumeFirst (.worker w)
  obtain ⟨j, rfl, hj⟩ := h
  dsimp only
  split
  · exact hfinish
  · exact ⟨j, rfl, hj⟩

theorem LooksLike.seekJob (h : p.LooksLike p') (w : Nat) :
    (p.seekJob w).LooksLike (p'.seekJob w) := by
  obtain ⟨j, rfl, hj⟩ := h
  unfold Pipeline.seekJob
  dsimp only
  split
  · rcases p.dispatcher.seek w with ⟨d, _ | job⟩
    · exact ⟨j, rfl, hj⟩
    · have htaken : LooksLike
          (({ p with dispatcher := d }.note (.taken w job)).wakeFirst (d.line.map .worker))
          (({ p with journal := j, dispatcher := d }.note (.taken w job)).wakeFirst
            (d.line.map .worker)) := ⟨_, rfl, hj.add _⟩
      exact (htaken.post (.worker w) .delivery job.url job.body d.workerTimeout).1.engage w _
  · exact ⟨j, rfl, hj⟩

theorem LooksLike.workerTurn (h : p.LooksLike p') (w : Nat) :
    (p.workerTurn w).LooksLike (p'.workerTurn w) := by
  have hseek := h.seekJob w
  have hfinish (q : Posting) := (h.finishJob w q).seekJob w
  obtain ⟨j, rfl, hj⟩ := h
  unfold Pipeline.workerTurn
  dsimp only
  cases p.dispatcher.worker? w with
  | none => exact hseek
  | some worker =>
    cases worker with
    | busy q =>
      dsimp only
      split
      · exact hfinish q
      · exact ⟨j, rfl, hj⟩
    | _ => exact hseek

/-! ### Rounds of synthetic records -/

theorem LooksLike.notePush (h : p.LooksLike p') (k : Kind) (r : CallResult) (failures : Nat) :
    LookAlike (p.notePush k r failures) (p'.notePush k r failures) := by
  have hwarn (text : String) : (p.warn text).LooksLike (p'.warn text) := by
    obtain ⟨j, rfl, hj⟩ := h
    exact ⟨_, rfl, hj.add _⟩
  unfold Pipeline.notePush
  split
  · exact ⟨h, rfl⟩
  · exact ⟨hwarn _, rfl⟩
  · exact ⟨h, rfl⟩

theorem LooksLike.countRound (h : p.LooksLike p') (failures : Nat) :
    (p.countRound failures).LooksLike (p'.countRound failures) := by
  have hcount := (h.count (.increment "DEMO.Rounds")).count (.addOf "DEMO.Records" (.ofNat 5))
  unfold Pipeline.countRound
  dsimp only
  split
  · exact hcount
  · exact hcount.count _

/-- A round goes on after a push of it, or waits for the push. -/
theorem LookAlike.round {r r' : Pipeline × Stage} (h : LookAlike r r')
    {next : Pipeline → Nat → Pipeline × RoundStage}
    (hnext : ∀ {p p'}, p.LooksLike p' → ∀ failures, LookAlike (next p failures) (next p' failures))
    (k : Kind) (rest : List Report) (failures : Nat) :
    LookAlike
      (match r.2 with
        | .ended result =>
          match r.1.notePush k result failures with
          | (p, some failures) => next p failures
          | (p, none) => (p, .crashed)
        | stage => (r.1, .under ⟨stage, k, rest, failures⟩))
      (match r'.2 with
        | .ended result =>
          match r'.1.notePush k result failures with
          | (p, some failures) => next p failures
          | (p, none) => (p, .crashed)
        | stage => (r'.1, .under ⟨stage, k, rest, failures⟩)) := by
  obtain ⟨p, _⟩ := r
  obtain ⟨p', stage⟩ := r'
  obtain ⟨hp, rfl⟩ := h
  dsimp only at hp ⊢
  cases stage with
  | ended result =>
    have hnote := hp.notePush k result failures
    dsimp only
    generalize p.notePush k result failures = r at hnote ⊢
    generalize p'.notePush k result failures = r' at hnote ⊢
    obtain ⟨p₁, _⟩ := r
    obtain ⟨p₁', more⟩ := r'
    obtain ⟨hp₁, rfl⟩ := hnote
    cases more with
    | none => exact ⟨hp₁, rfl⟩
    | some failures => exact hnext hp₁ failures
  | _ => exact ⟨hp, rfl⟩

theorem LooksLike.pushRecords (h : p.LooksLike p') (t : Task) (c : AgentConfig)
    (records : List Report) (failures : Nat) :
    LookAlike (p.pushRecords t c records failures) (p'.pushRecords t c records failures) := by
  induction records generalizing p p' failures with
  | nil => exact ⟨h.countRound failures, rfl⟩
  | cons r rest ih =>
    exact (h.begin t (.push (c.endpoint r.kind.path) (.ok r) c.pushTimeout)).round ih r.kind rest
      failures

theorem LooksLike.proceedRound (h : p.LooksLike p') (t : Task) (c : AgentConfig) (r : Round) :
    LookAlike (p.proceedRound t c r) (p'.proceedRound t c r) :=
  (h.proceed t r.stage).round (fun h failures => h.pushRecords t c r.rest failures) r.kind r.rest
    r.failures

theorem LooksLike.beginRound (h : p.LooksLike p') (t : Task) (g : Generator) :
    LookAlike (p.beginRound t g) (p'.beginRound t g) := by
  obtain ⟨hp, heq⟩ := h.pushRecords t g.config (Demo.records (g.rounds + 1)) 0
  exact ⟨hp, congrArg (Prod.mk { g with rounds := g.rounds + 1 }) heq⟩

end Pipeline

end Uplink
