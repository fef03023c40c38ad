import Uplink.Proofs.Dispatch.InFlight
/-!
How the POSTs of jobs end.  Each end that the journal tells of is that of one POST, which its task
had begun before and nothing has ended since; each POST of a job has one end, or is the one that its
task waits for.
-/
namespace Uplink

/-- What a task posts jobs for: workers deliver those they took, and all others post their own. -/
def Task.jobAim : Task → Aim
  | .worker _ => .delivery
  | _ => .fallback

/-- A POST that began with an entry ends as the receiver has it. -/
def PostEntry.EndsAs (e : PostEntry) (q : Posting) : Prop :=
  ∃ reply, q = .ofReply e.url e.time e.deadline reply

theorem PostEntry.EndsAs.url_eq {e : PostEntry} {q : Posting} (h : e.EndsAs q) : q.url = e.url := by
  obtain ⟨reply, rfl⟩ := h
  unfold Posting.ofReply
  split <;> rfl

structure Ending where
  task : Task
  entry : PostEntry
  posting : Posting

namespace Event

def jobPost? (t : Task) : Event → Option PostEntry
  | posted u aim e => if u = t ∧ aim = t.jobAim then some e else none
  | _ => none

def finish? : Event → Option (Task × Posting)
  | finished t q => some (t, q)
  | _ => none

/-- Events that tell of POSTs of jobs. -/
def ofPosts : Event → Bool
  | posted _ .delivery _ | posted _ .fallback _ | finished _ _ => true
  | _ => false

/-- Events that tell neither of POSTs of jobs nor of calls of the failure hook. -/
def isQuiet (e : Event) : Bool := !e.ofPosts && e.hook?.isNone

variable {e : Event} {t : Task}

theorem jobPost?_of_not_ofPosts (h : e.ofPosts = false) : e.jobPost? t = none := by
  cases e with
  | posted u aim e =>
    unfold jobPost?
    refine if_neg fun ⟨_, haim⟩ => ?_
    cases t <;> cases haim <;> simp [ofPosts, Task.jobAim] at h
  | _ => rfl

theorem finish?_of_not_ofPosts (h : e.ofPosts = false) : e.finish? = none := by
  cases e with
  | finished u q => simp [ofPosts] at h
  | _ => rfl

theorem ofPosts_of_isQuiet (h : e.isQuiet) : e.ofPosts = false := by
  simp only [isQuiet, Bool.and_eq_true, Bool.not_eq_true'] at h
  exact h.1

theorem hook?_of_isQuiet (h : e.isQuiet) : e.hook? = none := by
  simp only [isQuiet, Bool.and_eq_true, Option.isNone_iff_eq_none] at h
  exact h.2

/-- The POST of a job that task `t` began and that is not over, as the events tell, the last
first. -/
def underWay (t : Task) : List Event → Option PostEntry
  | [] => none
  | e :: es =>
    match e.jobPost? t, e.finish? with
    | some entry, _ => some entry
    | none, some (u, _) => if u = t then none else underWay t es
    | none, none => underWay t es

/-- The ends of the POSTs of jobs, each with the POST that its task had under way. -/
def endings : List Event → List Ending
  | [] => []
  | e :: es =>
    match e.finish? with
    | some (t, q) => ((underWay t es).map fun entry => ⟨t, entry, q⟩).toList ++ endings es
    | none => endings es

variable {es : List Event}

theorem underWay_quiet (h : e.ofPosts = false) : underWay t (e :: es) = underWay t es := by
  rw [underWay, jobPost?_of_not_ofPosts h, finish?_of_not_ofPosts h]

theorem endings_quiet (h : e.ofPosts = false) : endings (e :: es) = endings es := by
  rw [endings, finish?_of_not_ofPosts h]

end Event

open Event

def Journal.endings (j : Journal) : List Ending := Event.endings j.events

/-! ### POSTs and their ends -/

section

/-- What the events tell, the last first, when each task waits for the end of some POST or none:
every POST of a job ends once or is waited for, and every end is that of a POST. -/
structure Paired (es : List Event) (pending : Task → Option Posting) : Prop where
  waits : ∀ t, Option.Rel PostEntry.EndsAs (underWay t es) (pending t)
  ends : ∀ x ∈ endings es, x.entry.EndsAs x.posting
  finished : (endings es).map (fun x => (x.task, x.posting)) = es.filterMap Event.finish?
  posts : ∀ t, es.filterMap (Event.jobPost? t)
    = (underWay t es).toList ++ ((endings es).filter (·.task = t)).map Ending.entry

variable {es : List Event} {pending : Task → Option Posting} {t : Task} {e : PostEntry}
  {q : Posting}

theorem paired_nil : Paired [] fun _ => none where
  waits _ := .none
  ends _ hx := absurd hx List.not_mem_nil
  finished := rfl
  posts _ := rfl

theorem Paired.quiet (h : Paired es pending) {es' : List Event}
    (quiet : ∀ e ∈ es', e.ofPosts = false) : Paired (es' ++ es) pending := by
  induction es' with
  | nil => exact h
  | cons e es' ih =>
    have hrest := ih fun e he => quiet e (List.mem_cons_of_mem _ he)
    have he := quiet e List.mem_cons_self
    rw [List.cons_append]
    refine ⟨fun t => ?_, ?_, ?_, fun t => ?_⟩
    · rw [underWay_quiet he]
      exact hrest.waits t
    · rw [endings_quiet he]
      exact hrest.ends
    · rw [endings_quiet he, List.filterMap_cons_none (finish?_of_not_ofPosts he)]
      exact hrest.finished
    · rw [endings_quiet he, underWay_quiet he,
        List.filterMap_cons_none (jobPost?_of_not_ofPosts he)]
      exact hrest.posts t

theorem Paired.underWay_eq_none (h : Paired es pending) (ht : pending t = none) :
    underWay t es = none := by
  have hrel := h.waits t
  generalize underWay t es = entry at hrel ⊢
  rw [ht] at hrel
  cases hrel
  rfl

theorem Paired.exists_underWay (h : Paired es pending) (ht : pending t = some q) :
    ∃ e, underWay t es = some e ∧ e.EndsAs q := by
  have hrel := h.waits t
  generalize underWay t es = entry at hrel ⊢
  rw [ht] at hrel
  cases hrel with
  | some ends => exact ⟨_, rfl, ends⟩

/-- A task that waits for no POST begins one. -/
theorem Paired.begins (h : Paired es pending) (free : pending t = none) (ends : e.EndsAs q) :
    Paired (.posted t t.jobAim e :: es) (Function.update pending t (some q)) := by
  have own : Event.jobPost? t (.posted t t.jobAim e) = some e := if_pos ⟨rfl, rfl⟩
  have other (u : Task) (hu : u ≠ t) : Event.jobPost? u (.posted t t.jobAim e) = none :=
    if_neg fun heq => hu heq.1.symm
  have begun : underWay t (.posted t t.jobAim e :: es) = some e := by rw [underWay, own]
  have kept (u : Task) (hu : u ≠ t) : underWay u (.posted t t.jobAim e :: es) = underWay u es := by
    rw [underWay, other u hu]
    rfl
  have before : underWay t es = none := h.underWay_eq_none free
  have same : endings (.posted t t.jobAim e :: es) = endings es := rfl
  refine ⟨fun u => ?_, ?_, ?_, fun u => ?_⟩
  · by_cases hu : u = t
    · rw [hu, begun, Function.update_self]
      exact .some ends
    · rw [kept u hu, Function.update_of_ne hu]
      exact h.waits u
  · rw [same]
    exact h.ends
  · rw [same]
    exact h.finished
  · rw [same]
    by_cases hu : u = t
    · rw [hu, begun, List.filterMap_cons_some own, h.posts t, before]
      rfl
    · rw [kept u hu, List.filterMap_cons_none (other u hu)]
      exact h.posts u

/-- The POST that a task waits for ends. -/
theorem Paired.finish (h : Paired es pending) (ht : pending t = some q) :
    Paired (.finished t q :: es) (Function.update pending t none) := by
  obtain ⟨e, he, ends⟩ := h.exists_underWay ht
  have ended : underWay t (.finished t q :: es) = none := if_pos rfl
  have kept (u : Task) (hu : u ≠ t) : underWay u (.finished t q :: es) = underWay u es :=
    if_neg (Ne.symm hu)
  have more : endings (.finished t q :: es) = ⟨t, e, q⟩ :: endings es := by
    show ((underWay t es).map _).toList ++ _ = _
    rw [he]
    rfl
  refine ⟨fun u => ?_, fun x hx => ?_, ?_, fun u => ?_⟩
  · by_cases hu : u = t
    · rw [hu, ended, Function.update_self]
      exact .none
    · rw [kept u hu, Function.update_of_ne hu]
      exact h.waits u
  · rw [more] at hx
    rcases List.mem_cons.mp hx with rfl | hx
    · exact ends
    · exact h.ends x hx
  · rw [more, List.map_cons, h.finished]
    rfl
  · rw [more]
    show es.filterMap (Event.jobPost? u) = _
    rw [h.posts u]
    by_cases hu : u = t
    · rw [hu, ended, he, List.filter_cons_of_pos (by simp)]
      rfl
    · rw [kept u hu, List.filter_cons_of_neg (by simpa using Ne.symm hu)]

end

/-! ### What the tasks wait for -/

namespace Hand

/-- The POST of a job that a task with this in hand waits for. -/
def delivery? : Hand → Option Posting
  | waiting (.delivering q) => some q
  | _ => none

end Hand

namespace Dispatcher

variable {d d' : Dispatcher} {w : Nat} {j : Job} {q : Posting}

def delivery? (d : Dispatcher) (w : Nat) : Option Posting :=
  match d.worker? w with
  | some (.busy q) => some q
  | _ => none

theorem delivery?_eq_some : d.delivery? w = some q ↔ d.worker? w = some (.busy q) := by
  unfold delivery?
  split <;> simp_all

theorem delivery?_congr (h : ∀ q, d'.worker? w = some (.busy q) ↔ d.worker? w = some (.busy q)) :
    d'.delivery? w = d.delivery? w := by
  apply Option.ext
  intro q
  rw [delivery?_eq_some, delivery?_eq_some, h]

theorem delivery?_engage (h : (d.worker? w).isSome) (q : Posting) :
    (d.engage w q).delivery? w = some q :=
  delivery?_eq_some.mpr (worker?_engage h q)

theorem delivery?_engage_of_ne {v : Nat} (hv : v ≠ w) (q : Posting) :
    (d.engage w q).delivery? v = d.delivery? v := by
  apply delivery?_congr
  intro q'
  rw [worker?_engage_of_ne hv]

theorem delivery?_release (q : Posting) : (d.release w q).delivery? w = none := by
  apply Option.eq_none_iff_forall_ne_some.mpr
  intro q' hq
  exact worker?_release q q' (delivery?_eq_some.mp hq)

theorem delivery?_release_of_ne {v : Nat} (hv : v ≠ w) (q : Posting) :
    (d.release w q).delivery? v = d.delivery? v := by
  apply delivery?_congr
  intro _
  rw [worker?_release_of_ne hv]

/-- A change that leaves the failures counted as they are, the hook with what it was told, and the
POSTs of all workers, and loses no worker. -/
structure Spares (d d' : Dispatcher) : Prop where
  failed : d'.totals.failed = d.totals.failed
  hook : d'.hook = d.hook
  told : d'.told = d.told
  busy : ∀ w, d'.delivery? w = d.delivery? w
  lost : ∀ w, d'.worker? w = some .lost → d.worker? w = some .lost

theorem Spares.refl (d : Dispatcher) : d.Spares d := ⟨rfl, rfl, rfl, fun _ => rfl, fun _ => id⟩

theorem spares_start (d : Dispatcher) (workers capacity : Nat) :
    d.Spares (d.start workers capacity) where
  failed := by rw [totals_start]
  hook := by
    obtain ⟨pool, heq, -⟩ := d.start_eq workers capacity
    rw [heq]
  told := by
    obtain ⟨pool, heq, -⟩ := d.start_eq workers capacity
    rw [heq]
  busy w := delivery?_congr fun _ => d.worker?_start_eq_busy workers capacity
  lost w lost := by
    obtain ⟨pool, heq, rfl | ⟨hp, n, -, c, rfl⟩⟩ := d.start_eq workers capacity
    · rwa [heq] at lost
    · simp [heq, Dispatcher.worker?, Pool.create, List.getElem?_replicate] at lost

theorem spares_offer (h : (d.start 0 0).offer j = .ok d') : d.Spares d' := by
  obtain ⟨failed, hook, told, busy, lost⟩ := d.spares_start 0 0
  refine ⟨?_, ?_, ?_, fun w => (delivery?_congr fun q => ?_).trans (busy w), fun w hw => lost w ?_⟩
  · rw [totals_offer h, ← failed]
  · obtain ⟨p, -, -, -, rfl⟩ := offer_eq h
    exact hook
  · obtain ⟨p, -, -, -, rfl⟩ := offer_eq h
    exact told
  · rw [worker?_offer h]
  · rwa [worker?_offer h] at hw

theorem spares_countFallback (d : Dispatcher) : d.Spares (d.start 0 0).countFallback := by
  obtain ⟨failed, hook, told, busy, lost⟩ := d.spares_start 0 0
  exact ⟨failed, hook, told, busy, lost⟩

theorem spares_seek (d : Dispatcher) (w : Nat) : d.Spares (d.seek w).1 := by
  obtain ⟨-, totals, hook, worker⟩ := d.seek_eq w
  exact ⟨by rw [totals], hook, d.told_seek w, fun v => delivery?_congr fun q => by rw [worker],
    fun v lost => (worker v).symm.trans lost⟩

end Dispatcher

namespace Pipeline

/-- How a step on behalf of a task changes the dispatcher, and what it notes, as far as POSTs of
jobs and their failures go. -/
inductive PostChange (p : Pipeline) : Task → Hand → Dispatcher → List Event → Hand → Prop
  | quiet {t h h' d} (es : List Event) (quiet : ∀ e ∈ es, e.isQuiet)
    (spares : p.dispatcher.Spares d) (same : h'.delivery? = h.delivery?) :
    PostChange p t h d es h'
  | divert {t d e q} (es : List Event) (quiet : ∀ e ∈ es, e.isQuiet)
    (spares : p.dispatcher.Spares d) (ends : e.EndsAs q) :
    PostChange p t .free d (.posted t .fallback e :: es) (.waiting (.delivering q))
  | deliver {t q} :
    PostChange p t (.waiting (.delivering q)) (p.dispatcher.countOutcome q.outcome)
      [.finished t q] .free
  | take {w d j e q} (idle : p.dispatcher.worker? w = some .idle) (spares : p.dispatcher.Spares d)
    (left : d.worker? w = some .idle) (ends : e.EndsAs q) :
    PostChange p (.worker w) .free (d.engage w q)
      [.posted (.worker w) .delivery e, .taken w j] .free
  | finish {w q} (es : List Event) (quiet : ∀ e ∈ es, e.isQuiet)
    (busy : p.dispatcher.worker? w = some (.busy q)) :
    PostChange p (.worker w) .free (p.dispatcher.release w q)
      (es ++ (p.outcomeReport q).reverse ++ [.finished (.worker w) q]) .free

variable {quits : Prop} {t : Task} {p p' : Pipeline} {h h' : Hand} {hands : Task → Hand}
  {d d' : Dispatcher}

def awaited (d : Dispatcher) (hands : Task → Hand) : Task → Option Posting
  | .worker w => d.delivery? w
  | t => (hands t).delivery?

theorem awaited_of_ne (ht : ∀ w, t ≠ .worker w) : awaited d hands t = (hands t).delivery? := by
  cases t with
  | worker w => exact absurd rfl (ht w)
  | _ => rfl

/-- Only what one task waits for changes. -/
theorem awaited_update {o : Option Posting}
    (own : awaited d' (Function.update hands t h') t = o)
    (others : ∀ v, .worker v ≠ t → d'.delivery? v = d.delivery? v) :
    awaited d' (Function.update hands t h') = Function.update (awaited d hands) t o := by
  funext u
  by_cases hu : u = t
  · rw [hu, own, Function.update_self]
  · rw [Function.update_of_ne hu]
    cases u with
    | worker v => exact others v hu
    | _ => simp only [awaited, Function.update_of_ne hu]

/-- A submitter waits for what it has in hand. -/
theorem awaited_submitter (ht : ∀ w, t ≠ .worker w) (busy : ∀ v, d'.delivery? v = d.delivery? v) :
    awaited d' (Function.update hands t h')
      = Function.update (awaited d hands) t h'.delivery? := by
  apply awaited_update
  · rw [awaited_of_ne ht, Function.update_self]
  · exact fun v _ => busy v

/-- A worker waits for what it is busy with. -/
theorem awaited_worker {w : Nat} (others : ∀ v ≠ w, d'.delivery? v = d.delivery? v) :
    awaited d' (Function.update hands (.worker w) h')
      = Function.update (awaited d hands) (.worker w) (d'.delivery? w) := by
  apply awaited_update rfl
  intro v hv
  exact others v fun hvw => hv (by rw [hvw])

theorem awaited_quiet (spares : d.Spares d') (same : h'.delivery? = (hands t).delivery?) :
    awaited d' (Function.update hands t h') = awaited d hands := by
  have own : awaited d' (Function.update hands t h') t = awaited d hands t := by
    cases t with
    | worker w => exact spares.busy w
    | _ => simpa only [awaited, Function.update_self] using same
  rw [awaited_update own fun v _ => spares.busy v, Function.update_eq_self]

/-- Every step is one of these. -/
theorem Step.postChange (hs : Step quits t p h p' h') :
    ∃ es, p'.journal.events = es ++ p.journal.events ∧ PostChange p t h p'.dispatcher es h' := by
  have hquiet {p₀ : Pipeline} {h₀ h₁ : Hand} (es : List Event)
      (hes : ∀ e ∈ es, e.isQuiet) (hj : p₀.journal.events = es ++ p.journal.events)
      (hd : p₀.dispatcher = p.dispatcher) (hh : h₁.delivery? = h₀.delivery?) :
      ∃ es, p₀.journal.events = es ++ p.journal.events ∧ PostChange p t h₀ p₀.dispatcher es h₁ :=
    ⟨es, hj, .quiet es hes (hd ▸ .refl _) hh⟩
  have hleave {p₀ : Pipeline} {h₀ h₁ : Hand} {last : Event} (hlast : last.isQuiet)
      (es : List Event) (hes : ∀ e ∈ es, e.isQuiet)
      (hj : p₀.journal.events = es ++ p.journal.events)
      (hd : p₀.dispatcher = p.dispatcher) (hh : h₁.delivery? = h₀.delivery?) :
      ∃ es, (p₀.leave t last).journal.events = es ++ p.journal.events
        ∧ PostChange p t h₀ (p₀.leave t last).dispatcher es h₁ := by
    refine hquiet (p₀.yields t last ++ es) (fun e he => ?_) ?_ ?_ hh
    · exact (List.mem_append.mp he).elim (forall_yields (P := fun e => e.isQuiet) hlast e) (hes e)
    · rw [events_leave, hj, List.append_assoc]
    · rw [dispatcher_leave, hd]
  cases hs with
  | log l => exact hquiet [_] (by simp [Event.isQuiet, Event.ofPosts, Event.hook?]) rfl rfl rfl
  | start workers capacity =>
    refine ⟨[], by simp, .quiet [] (by simp) ?_ rfl⟩
    rw [dispatcher_startWorkers]
    exact p.dispatcher.spares_start workers capacity
  | count c => exact hquiet [_] (by simp [Event.isQuiet, Event.ofPosts, Event.hook?]) rfl rfl rfl
  | call c hc => exact hquiet [_] (by simp [Event.isQuiet, Event.ofPosts, Event.hook?]) rfl rfl rfl
  | @queue _ _ c j _ p₁ d hs hd =>
    obtain ⟨hj, hstart, -⟩ := hs.noted
    refine ⟨[.queued t j, .submitted t j, .called t c], ?_,
      .quiet _ (by simp [Event.isQuiet, Event.ofPosts, Event.hook?])
        (Dispatcher.spares_offer (hstart ▸ hd)) rfl⟩
    show .queued t j :: p₁.journal.events = _
    rw [hj]
    rfl
  | @divert _ _ c j deadline p₁ _ l _ q hs hd hq =>
    cases hq
    obtain ⟨hj, hstart, -⟩ := hs.noted
    refine ⟨.posted t .fallback ⟨p₁.now, j.url, j.body, deadline⟩
      :: [.diverted t j, .logged l, .submitted t j, .called t c], ?_, ?_⟩
    · show _ :: .diverted t j :: .logged l :: p₁.journal.events = _
      rw [hj]
      rfl
    · refine .divert _ (by simp [Event.isQuiet, Event.ofPosts, Event.hook?]) ?_ ⟨_, rfl⟩
      show p.dispatcher.Spares p₁.dispatcher.countFallback
      rw [hstart]
      exact p.dispatcher.spares_countFallback
  | deliver due =>
    rw [deliver_eq]
    exact ⟨[_], rfl, .deliver⟩
  | direct url body deadline hq =>
    cases hq
    exact hquiet [_] (by simp [Event.isQuiet, Event.ofPosts, Event.hook?]) rfl rfl rfl
  | answered due => exact hquiet [] (by simp) rfl rfl rfl
  | @seek w _ d idle hd =>
    have spares := p.dispatcher.spares_seek w
    rw [hd] at spares
    exact ⟨[], rfl, .quiet [] (by simp) spares rfl⟩
  | @take w _ d j _ q idle hd hq =>
    cases hq
    have spares := p.dispatcher.spares_seek w
    have left := (p.dispatcher.seek_eq w).2.2.2 w
    rw [hd] at spares left
    exact ⟨[_, _], rfl, .take idle spares (left.trans idle) ⟨_, rfl⟩⟩
  | @finish w _ q busy due =>
    refine ⟨_, events_noteAll _ _, ?_⟩
    rw [List.reverse_cons, List.reverse_append]
    refine .finish _ (fun e he => ?_) busy
    split at he
    · rw [List.mem_singleton.mp he]
      rfl
    · simp at he
  | join url => exact hquiet [] (by simp) rfl rfl rfl
  | skip turn hf => exact hleave rfl [] (by simp) rfl rfl rfl
  | @depart _ _ url f _ q turn hf hq =>
    cases hq
    exact hquiet [_, _] (by simp [Event.isQuiet, Event.ofPosts, Event.hook?]) rfl rfl rfl
  | @land _ _ f q due hf accepted =>
    exact hleave rfl [_] (by simp [Event.isQuiet, Event.ofPosts, Event.hook?]) rfl rfl rfl
  | fail due hf => exact hleave rfl [] (by simp) rfl rfl rfl
  | @withdraw _ _ h hh =>
    refine hleave rfl [] (by simp) rfl rfl ?_
    rcases hh with rfl | hh
    · rfl
    · cases h with
      | free => rfl
      | waiting s => cases s <;> simp_all [Hand.flushes, Hand.isFlushing, Hand.delivery?]
  | setTimer due later => exact hquiet [] (by simp) rfl rfl rfl
  | dropTimers => exact hquiet [] (by simp) rfl rfl rfl
  | resume => exact hquiet [] (by simp) rfl rfl rfl
  | wake u => exact hquiet [] (by simp) rfl rfl rfl
  | shown j hj => exact hquiet [] (by simp) hj rfl rfl
  | moveClock clock =>
    exact hquiet [_] (by simp [Event.isQuiet, Event.ofPosts, Event.hook?]) rfl rfl rfl
  | identify identity =>
    exact hquiet [_] (by simp [Event.isQuiet, Event.ofPosts, Event.hook?]) rfl rfl rfl
  | adjust k n => exact hquiet [_] (by simp [Event.isQuiet, Event.ofPosts, Event.hook?]) rfl rfl rfl
  | adjustReports n => exact hquiet [] (by simp) rfl rfl rfl

/-- A change begins the POST that its task then waits for, or ends the one that it waited for, as
long as workers hold nothing in hand. -/
theorem PostChange.paired {es l : List Event} (hc : PostChange p t h d es h') (hh : hands t = h)
    (hworkers : ∀ w, hands (.worker w) = .free) (hworker : ∀ w, t = .worker w → h' = .free)
    (hp : Paired l (awaited p.dispatcher hands)) :
    Paired (es ++ l) (awaited d (Function.update hands t h')) := by
  have hquiet {es : List Event} (quiet : ∀ e ∈ es, e.isQuiet) :
      Paired (es ++ l) (awaited p.dispatcher hands) :=
    hp.quiet fun e he => Event.ofPosts_of_isQuiet (quiet e he)
  cases hc with
  | quiet es quiet spares same =>
    rw [awaited_quiet spares (hh ▸ same)]
    exact hquiet quiet
  | @divert _ _ e q es quiet spares ends =>
    have hnot (w : Nat) : t ≠ .worker w := fun hw => by simpa using hworker w hw
    have aim : t.jobAim = .fallback := by
      cases t with
      | worker w => exact absurd rfl (hnot w)
      | _ => rfl
    have free : awaited p.dispatcher hands t = none := by
      rw [awaited_of_ne hnot, hh]
      rfl
    rw [awaited_submitter hnot spares.busy, ← aim]
    exact (hquiet quiet).begins free ends
  | @deliver _ q =>
    have hnot (w : Nat) : t ≠ .worker w := fun hw => by
      rw [hw, hworkers] at hh
      cases hh
    have waited : awaited p.dispatcher hands t = some q := by
      rw [awaited_of_ne hnot, hh]
      rfl
    rw [Dispatcher.countOutcome_eq]
    rw [awaited_submitter hnot fun _ => rfl]
    exact hp.finish waited
  | @take w d j e q idle spares left ends =>
    have free : awaited p.dispatcher hands (.worker w) = none := by
      simp [awaited, Dispatcher.delivery?, idle]
    have others (v : Nat) (hv : v ≠ w) :
        (d.engage w q).delivery? v = p.dispatcher.delivery? v :=
      (Dispatcher.delivery?_engage_of_ne hv q).trans (spares.busy v)
    rw [awaited_worker others, Dispatcher.delivery?_engage (by simp [left])]
    have quiet : ∀ e ∈ [Event.taken w j], e.isQuiet := by
      simp [Event.isQuiet, Event.ofPosts, Event.hook?]
    exact (hquiet quiet).begins free ends
  | @finish w q es quiet busy =>
    have waited : awaited p.dispatcher hands (.worker w) = some q :=
      Dispatcher.delivery?_eq_some.mpr busy
    have reports : ∀ e ∈ es ++ (p.outcomeReport q).reverse, e.ofPosts = false := fun e he => by
      rcases List.mem_append.mp he with he | he
      · exact Event.ofPosts_of_isQuiet (quiet e he)
      · rcases isReport_of_mem_outcomeReport (List.mem_reverse.mp he) with
          ⟨l, rfl⟩ | ⟨k, crashed, rfl⟩ <;> rfl
    rw [awaited_worker fun v hv => Dispatcher.delivery?_release_of_ne hv q,
      Dispatcher.delivery?_release, List.append_assoc]
    exact (hp.finish waited).quiet reports

/-- What the journal tells of POSTs of jobs is what the tasks wait for. -/
theorem workInvariant_paired :
    WorkInvariant fun p hands => Paired p.journal.events (awaited p.dispatcher hands) :=
  by
  refine .of_timeless (fun hs hworkers hworker hp => ?_) fun _ _ _ _ _ hp => hp
  obtain ⟨es, hes, hchange⟩ := hs.postChange
  rw [hes]
  exact hchange.paired rfl hworkers hworker hp

theorem paired_of_fresh {p : Pipeline} (hp : p.Fresh) :
    Paired p.journal.events (awaited p.dispatcher fun _ => .free) := by
  obtain ⟨settings, hd⟩ := hp.dispatcher
  have none : awaited p.dispatcher (fun _ => .free) = fun _ => none := by
    funext t
    rw [hd]
    cases t <;> rfl
  rw [hp.events, none]
  exact paired_nil

end Pipeline

namespace Session

/-- At every point of every session, every POST of a job has one end or is waited for by its task,
and every end is that of a POST. -/
theorem Reachable.paired {s : Session} (h : s.Reachable) :
    Paired s.journal.events (Pipeline.awaited s.dispatcher s.hand) :=
  h.keepsWork Pipeline.workInvariant_paired fun _ => Pipeline.paired_of_fresh

end Session

end Uplink
