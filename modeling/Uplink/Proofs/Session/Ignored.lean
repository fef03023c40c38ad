import Uplink.Proofs.Service.Isolation
import Uplink.Proofs.Session.Alike
/-!
Operations without effect.  A session ignores them at whatever point of a run they come: all other
operations have the same answers at the same times, and in the end nothing that could still be
asked for differs.
-/
namespace Uplink

/-! ### What there is nothing to do about -/

theorem Dictionary.erase_eq_self {α : Type} {d : Dictionary α} {k : String}
    (absent : d.get? k = none) : d.erase k = d := by
  obtain ⟨entries, ascending⟩ := d
  have hentries : entries.filter (·.1 ≠ k) = entries := by
    refine List.filter_eq_self.mpr fun e he => ?_
    have hne : (k != e.1) = true := List.lookup_eq_none_iff.mp absent e he
    exact decide_eq_true (bne_iff_ne.mp hne).symm
  simp only [erase, hentries]

theorem Ring.adjust_eq_self {α : Type} {n : Int} (hn : n ≤ 0) (r : Ring α) : r.adjust n = r :=
  if_pos hn

theorem Services.update_adjust_eq_self {n : Int} (hn : n ≤ 0) (v : Services) (k : Kind) :
    v.update (·.adjust n) k = v := by
  cases k <;> simp only [update, Service.adjust, Ring.adjust_eq_self hn]

theorem Pipeline.startWorkers_eq_self {p : Pipeline} (started : p.dispatcher.isStarted)
    (workers capacity : Nat) : p.startWorkers workers capacity = p := if_pos started

theorem Aggregator.count_delete_eq_self {a : Aggregator} {key : String}
    (absent : a.counters.cells.get? key = none) : a.count (.delete key) = a := by
  simp only [count, Counters.apply, Counters.delete, Dictionary.erase_eq_self absent]

namespace Session

open Pipeline

variable {s s' : Session} {op : Operation}

/-- Whether an operation is one that has no effect: the submission of a payload that cannot be
serialized, the start of workers that are started, the request for a history of zero records or
less, the end of a periodic flush that is not there, and the deletion of an absent counter. -/
def ignores (s : Session) : Operation → Bool
  | .call (.submit _ none _) => true
  | .startWorkers _ _ => s.dispatcher.isStarted
  | .adjustHistory _ n => n ≤ 0
  | .adjustKpiHistory n => n ≤ 0
  | .stopFlushing => s.current.isNone
  | .deleteCounter key => (s.kpi.counters.cells.get? key).isNone
  | _ => false

theorem LooksLike.ignores (h : s.LooksLike s') (op : Operation) : s'.ignores op = s.ignores op := by
  obtain ⟨_, _, rfl, j, rfl, -⟩ := h
  cases op <;> rfl

/-- A payload that cannot be serialized is refused before anything is done about it. -/
theorem perform_unserializable (free : s.operator.isFree) (url : String) (deadline : Duration) :
    s.perform (.call (.submit url none deadline))
      = ({ s with toPipeline := s.note (.called .operator (.submit url none deadline)) },
          .result (.pushed (.error .badKey))) := by
  have hfree : s.operator = .free := by
    cases ho : s.operator <;> simp_all [Operator.isFree]
  have hperform : s.perform (.call (.submit url none deadline))
      = ({ s with
            toPipeline := s.note (.called .operator (.submit url none deadline))
            operator := .free },
          .result (.pushed (.error .badKey))) := if_pos free
  rw [hperform, ← hfree]

/-- What is only noted in the journal, and not shown, cannot be seen. -/
theorem looksLike_note {e : Event} (hpost : e.post? = none) (hhook : e.hook? = none)
    (hlog : e.log? = none) (s : Session) : s.LooksLike { s with toPipeline := s.note e } :=
  looksLike_within ⟨_, rfl, Journal.looksLike_add hpost hhook hlog _⟩ s s.steering

/-- What is ignored cannot be seen afterwards. -/
theorem looksLike_perform (h : s.ignores op) : s.LooksLike (s.perform op).1 := by
  by_cases free : s.operator.isFree
  · -- only a call may have to be waited for; all else is done with its beginning
    have hstart (himmediate : s.perform op = s.start op) (hs : s.LooksLike (s.start op).1) :
        s.LooksLike (s.perform op).1 := himmediate ▸ hs
    cases op with
    | call c =>
      cases c with
      | submit url body deadline =>
        cases body with
        | none =>
          rw [perform_unserializable free]
          exact looksLike_note rfl rfl rfl s
        | some body => cases h
      | _ => cases h
    | startWorkers workers capacity =>
      refine hstart (if_pos free) ?_
      show s.LooksLike { s with toPipeline := s.startWorkers workers capacity }
      rw [startWorkers_eq_self h]
      exact .refl s
    | adjustHistory k n =>
      refine hstart (if_pos free) ?_
      have hservices := s.services.update_adjust_eq_self (of_decide_eq_true h) k
      show s.LooksLike { s with toPipeline :=
        { s.toPipeline with services := s.services.update (·.adjust n) k }.note (.adjusted k n) }
      rw [hservices]
      exact looksLike_note rfl rfl rfl s
    | adjustKpiHistory n =>
      refine hstart (if_pos free) ?_
      have hhistory := s.kpi.history.adjust_eq_self (of_decide_eq_true h)
      show s.LooksLike { s with kpi := { s.kpi with history := s.kpi.history.adjust n } }
      rw [hhistory]
      exact .refl s
    | stopFlushing =>
      refine hstart (if_pos free) ?_
      have hcancel : s.cancelFlusher = s := by
        unfold cancelFlusher
        rw [Option.isNone_iff_eq_none.mp h]
      show s.LooksLike { s.cancelFlusher with steering := _ }
      rw [hcancel]
      exact looksLike_within (.refl _) s _
    | deleteCounter key =>
      refine hstart (if_pos free) ?_
      have hkpi := Aggregator.count_delete_eq_self (Option.isNone_iff_eq_none.mp h)
      show s.LooksLike { s with toPipeline :=
        { s.toPipeline with kpi := s.kpi.count (.delete key) }.note (.counted (.delete key)) }
      rw [hkpi]
      exact looksLike_note rfl rfl rfl s
    | _ => cases h
  · unfold perform
    rw [if_neg free]
    exact .refl s

theorem looksLike_performTimes (h : s.ignores op) (n : Nat) :
    s.LooksLike (s.performTimes op n).1 := by
  induction n generalizing s with
  | zero => exact .refl s
  | succ n ih =>
    have hfirst := looksLike_perform h
    cases n with
    | zero => exact hfirst
    | succ n => exact hfirst.trans (ih (hfirst.ignores op ▸ h))

end Session

/-! ### Insertions -/

/-- An operation of a script that is performed a number of times, or one that was inserted. -/
structure Entry where
  op : Operation
  times : Nat := 1
  inserted : Bool := false

namespace Entry

def whole (entries : List Entry) : List (Operation × Nat) := entries.map fun e => (e.op, e.times)

def kept (entries : List Entry) : List (Operation × Nat) := whole (entries.filter (!·.inserted))

/-- Of the answers to a script with insertions, those that are not answers to insertions. -/
def heard (entries : List Entry) (answers : List (Nat × Answer)) : List (Nat × Answer) :=
  (entries.zip answers).filterMap fun (e, answer) => if e.inserted then none else some answer

theorem kept_cons (e : Entry) (entries : List Entry) :
    kept (e :: entries) = if e.inserted then kept entries else (e.op, e.times) :: kept entries := by
  unfold kept
  rw [List.filter_cons]
  cases e.inserted <;> rfl

theorem heard_cons (e : Entry) (entries : List Entry) (answer : Nat × Answer)
    (answers : List (Nat × Answer)) :
    heard (e :: entries) (answer :: answers)
      = if e.inserted then heard entries answers else answer :: heard entries answers := by
  cases h : e.inserted <;> simp [heard, h]

end Entry

namespace Session

open Entry

variable {s s' : Session}

/-- Whatever was inserted is ignored when it comes. -/
def IgnoresInserted : Session → List Entry → Prop
  | _, [] => True
  | s, e :: rest =>
    (e.inserted → s.ignores e.op) ∧ (s.performTimes e.op e.times).1.IgnoresInserted rest

instance decidableIgnoresInserted :
    (s : Session) → (entries : List Entry) → Decidable (s.IgnoresInserted entries)
  | _, [] => isTrue trivial
  | s, e :: rest =>
    have := decidableIgnoresInserted (s.performTimes e.op e.times).1 rest
    inferInstanceAs (Decidable ((e.inserted → s.ignores e.op) ∧ IgnoresInserted _ rest))

/-- At each point of the script the sessions with and without the insertions look alike: what is
kept is performed in both, and what is inserted is performed in one of them and cannot be seen
there. -/
theorem LooksLike.insertions (h : s.LooksLike s') {entries : List Entry}
    (ignored : s'.IgnoresInserted entries) :
    heard entries (s'.run (whole entries)) = s.run (kept entries)
      ∧ (s.after (kept entries)).LooksLike (s'.after (whole entries)) := by
  induction entries generalizing s s' with
  | nil => exact ⟨rfl, h⟩
  | cons e entries ih =>
    obtain ⟨first, rest⟩ := ignored
    have hrun : s'.run (whole (e :: entries))
        = ((s'.performTimes e.op e.times).1.now, (s'.performTimes e.op e.times).2)
          :: (s'.performTimes e.op e.times).1.run (whole entries) := rfl
    rw [hrun, heard_cons, kept_cons]
    split
    next inserted =>
      have hs := h.trans (looksLike_performTimes (first inserted) e.times)
      exact ih hs rest
    next =>
      obtain ⟨hfirst, hanswer⟩ := h.performTimes e.op e.times
      obtain ⟨hanswers, hafter⟩ := ih hfirst rest
      refine ⟨?_, hafter⟩
      rw [hfirst.now, hanswer, hanswers]
      rfl

/-- Operations without effect are invisible.  However many of them are inserted into a script and
wherever, all other operations have the answers they have without them, at the same times; and in
the end there were the same POSTs, calls of the hook and lines of the log, and the counters, the
dispatcher, the histories and all else are as they would be. -/
theorem insertions_invisible (s : Session) {entries : List Entry}
    (ignored : s.IgnoresInserted entries) :
    heard entries (s.run (whole entries)) = s.run (kept entries)
      ∧ (s.after (kept entries)).LooksLike (s.after (whole entries)) :=
  (LooksLike.refl s).insertions ignored

/-- A queue for one job whose only worker waits for an answer that never comes, and a report under
way; what is inserted comes before the workers are started, while the queue is full, and while the
report is under way. -/
def saturated : List Entry :=
  let unserializable : Operation := .call (.submit "sink" none (.ofSecs 1))
  [{ op := unserializable, times := 2, inserted := true }, { op := .started },
    { op := .startWorkers 1 1 }, { op := .startWorkers 5 9, inserted := true },
    { op := .call (.submit "sink" (some []) (.ofSecs 1)) }, { op := .settle },
    { op := .call (.submit "sink" (some []) (.ofSecs 1)) },
    { op := unserializable, times := 3, inserted := true },
    { op := .increment "calls" }, { op := .background (.flush "kpi") }, { op := .settle },
    { op := .deleteCounter "drops", times := 2, inserted := true },
    { op := .adjustHistory .alarm (-1), inserted := true },
    { op := .adjustKpiHistory 0, times := 4, inserted := true },
    { op := .stopFlushing, inserted := true },
    { op := .advance 5 }, { op := .join 0 }, { op := .totals }]

theorem insertions_invisible_saturated :
    let s := create .parts {} {} {} [⟨"sink", [.hang]⟩, ⟨"kpi", [.status ⟨200⟩ 5]⟩] {}
    s.IgnoresInserted saturated
      ∧ heard saturated (s.run (whole saturated)) = s.run (kept saturated)
      ∧ (s.after (kept saturated)).LooksLike (s.after (whole saturated)) := by
  intro s
  have ignored : s.IgnoresInserted saturated := by decide +kernel
  exact ⟨ignored, insertions_invisible s ignored⟩

end Session

end Uplink
