import Mathlib.Algebra.BigOperators.Group.List.Basic
import Mathlib.Data.Int.ModEq
import Mathlib.Data.UInt
import Mathlib.Tactic.Abel
import Uplink.Proofs.Kpi.Changes
/-!
Conservation of amounts: what was added to a counter is in it or in a report that was delivered.
Amounts are words that wrap, so the sums are sums of words; a sum of signed amounts that is itself
a signed word is what the counter reads.
-/
namespace Uplink

namespace Amount

def signed (a : Amount) : Int := a.toInt64.toInt

theorem signed_add_modEq (a b : Amount) :
    signed (a + b) ≡ signed a + signed b [ZMOD 2 ^ 64] := by
  unfold signed
  rw [UInt64.toInt64_add, Int64.toInt_add]
  exact Int.bmod_emod

theorem signed_sum_modEq (l : List Amount) :
    signed l.sum ≡ (l.map signed).sum [ZMOD 2 ^ 64] := by
  induction l with
  | nil => rfl
  | cons a l ih =>
    rw [List.sum_cons, List.map_cons, List.sum_cons]
    exact (signed_add_modEq a l.sum).trans (ih.add_left _)

/-- A signed word is determined by what it is modulo its size. -/
theorem signed_eq_of_modEq {a : Amount} {n : Int} (h : signed a ≡ n [ZMOD 2 ^ 64])
    (low : -2 ^ 63 ≤ n) (high : n < 2 ^ 63) : signed a = n := by
  have hlow : -2 ^ 63 ≤ signed a := a.toInt64.le_toInt
  have hhigh : signed a < 2 ^ 63 := a.toInt64.toInt_lt
  obtain ⟨c, hc⟩ := h.dvd
  omega

end Amount

namespace Counters

variable (c : Counters) (k : String)

@[simp] theorem amount_put_self (a : Amount) : (c.put k a).amount k = a := by
  simp [amount, put]

theorem amount_put_of_ne {k j : String} (h : j ≠ k) (a : Amount) :
    (c.put k a).amount j = c.amount j := by
  simp [amount, put, Dictionary.get?_put_of_ne _ h]

/-- Adding to a counter adds to what it holds, whether or not it was there. -/
theorem amount_add_self (delta : Amount) : (c.add k delta).amount k = c.amount k + delta := by
  unfold add
  cases hc : c.cells.get? k with
  | none => simp [amount, put, hc]
  | some cell => simp [amount, hc]

theorem amount_add_of_ne {k j : String} (h : j ≠ k) (delta : Amount) :
    (c.add k delta).amount j = c.amount j := by
  unfold add
  split
  · simp [amount, Dictionary.get?_put_of_ne _ h]
  · exact amount_put_of_ne c h delta

theorem amount_delete_of_ne {k j : String} (h : j ≠ k) :
    (c.delete k).amount j = c.amount j := by
  simp [amount, delete, Dictionary.get?_erase_of_ne _ h]

theorem get?_settle (sample : Dictionary Cell) :
    (c.settle sample).cells.get? k = (c.cells.get? k).bind fun cell =>
      match sample.get? k with
      | some s => remainder cell s
      | none => some cell :=
  Dictionary.get?_filterMap _ c.cells k

/-- Every sample of a key is of the cell that is still there. -/
def Matches (sample : Dictionary Cell) : Prop :=
  ∀ s, sample.get? k = some s → ∃ cell, c.cells.get? k = some cell ∧ cell.stamp = s.stamp

/-- What a sample of the counters says a key holds, zero when it is absent. -/
def sampled (sample : Dictionary Cell) : Amount := ((sample.get? k).map Cell.amount).getD 0

/-- Settling takes what the sample says out of a cell that is still there. -/
theorem amount_settle {sample : Dictionary Cell} (h : c.Matches k sample) :
    sampled k sample + (c.settle sample).amount k = c.amount k := by
  unfold amount sampled
  rw [get?_settle]
  cases hs : sample.get? k with
  | none => simp
  | some s =>
    obtain ⟨cell, hcell, hstamp⟩ := h s hs
    by_cases ha : cell.amount = s.amount
    · simp [hcell, remainder, hstamp, ha]
    · simp [hcell, remainder, hstamp, ha]

theorem matches_self : c.Matches k c.cells := fun s hs => ⟨s, hs, rfl⟩

/-- A key that is only added to keeps its cell. -/
theorem Matches.add {c : Counters} {k : String} {sample : Dictionary Cell}
    (h : c.Matches k sample) (j : String) (delta : Amount) : (c.add j delta).Matches k sample := by
  intro s hs
  obtain ⟨cell, hcell, hstamp⟩ := h s hs
  unfold Counters.add
  by_cases hj : k = j
  · subst hj
    simp [hcell, hstamp]
  · cases c.cells.get? j <;> simp [put, Dictionary.get?_put_of_ne _ hj, hcell, hstamp]

theorem Matches.set {c : Counters} {k j : String} {sample : Dictionary Cell}
    (h : c.Matches k sample) (hj : k ≠ j) (a : Amount) : (c.set j a).Matches k sample := by
  intro s hs
  obtain ⟨cell, hcell, hstamp⟩ := h s hs
  exact ⟨cell, by simp [Counters.set, put, Dictionary.get?_put_of_ne _ hj, hcell], hstamp⟩

theorem Matches.delete {c : Counters} {k j : String} {sample : Dictionary Cell}
    (h : c.Matches k sample) (hj : k ≠ j) : (c.delete j).Matches k sample := by
  intro s hs
  obtain ⟨cell, hcell, hstamp⟩ := h s hs
  exact ⟨cell, by simp [Counters.delete, Dictionary.get?_erase_of_ne _ hj, hcell], hstamp⟩

end Counters

namespace Event

/-- What an event adds to a counter. -/
def added (k : String) : Event → Amount
  | counted (.add j delta) => if j = k then delta else 0
  | _ => 0

/-- What an event takes out of a counter for a delivered report. -/
def reported (k : String) : Event → Amount
  | landed _ f => Counters.sampled k f.sample
  | _ => 0

def overrides (k : String) : Event → Bool
  | counted (.set j _) => j = k
  | counted (.delete j) => j = k
  | _ => false

theorem added_of_not_ofAggregator {e : Event} (h : e.ofAggregator = false) (k : String) :
    e.added k = 0 := by
  cases e <;> first | rfl | exact absurd h (by simp [ofAggregator])

theorem reported_of_not_ofAggregator {e : Event} (h : e.ofAggregator = false) (k : String) :
    e.reported k = 0 := by
  cases e <;> first | rfl | exact absurd h (by simp [ofAggregator])

end Event

namespace Journal

def added (j : Journal) (k : String) : Amount := (j.events.map (Event.added k)).sum

def reported (j : Journal) (k : String) : Amount := (j.events.map (Event.reported k)).sum

/-- What was added less what was reported, in signed amounts that do not wrap. -/
def difference (j : Journal) (k : String) : Int :=
  (j.events.map fun e => (e.added k).signed).sum
    - (j.events.map fun e => (e.reported k).signed).sum

theorem difference_modEq (j : Journal) (k : String) {a : Amount}
    (h : j.reported k + a = j.added k) : a.signed ≡ j.difference k [ZMOD 2 ^ 64] := by
  have hadded :
      (j.added k).signed ≡ (j.events.map fun e => (e.added k).signed).sum [ZMOD 2 ^ 64] := by
    simpa [added, Function.comp_def] using Amount.signed_sum_modEq (j.events.map (Event.added k))
  have hreported :
      (j.reported k).signed ≡ (j.events.map fun e => (e.reported k).signed).sum [ZMOD 2 ^ 64] := by
    simpa [reported, Function.comp_def] using
      Amount.signed_sum_modEq (j.events.map (Event.reported k))
  have hsum := Amount.signed_add_modEq (j.reported k) a
  rw [h] at hsum
  have hdiff := (hsum.symm.trans hadded).sub hreported
  rwa [add_sub_cancel_left] at hdiff

end Journal

namespace Aggregator

/-- What was added to `k` is what was reported and what is left, and the sample of a report under
way is of the cell that is there. -/
structure Conserves (k : String) (added reported : Amount) (a : Aggregator) : Prop where
  balance : reported + a.counters.amount k = added
  flight : ∀ f, a.flight = some f → a.counters.Matches k f.sample

variable {quits : Prop} {k : String} {added reported : Amount} {a : Aggregator}

theorem Conserves.count (ha : a.Conserves k added reported) (c : Change)
    (hc : Event.overrides k (.counted c) = false) :
    (a.count c).Conserves k (Event.added k (.counted c) + added) reported := by
  have hbalance := ha.balance
  cases c with
  | set j x =>
    have hj : k ≠ j := fun hj => by simp [Event.overrides, hj] at hc
    have hkeep : (a.counters.put j x).amount k = a.counters.amount k :=
      Counters.amount_put_of_ne _ hj x
    exact ⟨by simpa [Event.added, Aggregator.count, Counters.apply, Counters.set, hkeep],
      fun f hf => (ha.flight f hf).set hj x⟩
  | delete j =>
    have hj : k ≠ j := fun hj => by simp [Event.overrides, hj] at hc
    have hkeep := Counters.amount_delete_of_ne a.counters hj
    exact ⟨by simpa [Event.added, Aggregator.count, Counters.apply, hkeep],
      fun f hf => (ha.flight f hf).delete hj⟩
  | add j delta =>
    refine ⟨?_, fun f hf => (ha.flight f hf).add j delta⟩
    show reported + (a.counters.add j delta).amount k = (if j = k then delta else 0) + added
    by_cases hj : j = k
    · rw [hj, if_pos rfl, Counters.amount_add_self, ← hbalance]
      abel
    · rw [if_neg hj, Counters.amount_add_of_ne _ (Ne.symm hj), zero_add, hbalance]

/-- A report departs with a sample of all counters. -/
theorem sample_prepare {neUid : String} {now : Int64} {f : Flight}
    (hf : a.prepare neUid now = some f) : f.sample = a.counters.cells := by
  unfold prepare at hf
  split at hf
  · cases hf
  · cases hf
    rfl

theorem Conserves.depart (ha : a.Conserves k added reported) {neUid : String} {now : Int64}
    {f : Flight} (hf : a.prepare neUid now = some f) : (a.depart f).Conserves k added reported := by
  refine ⟨ha.balance, fun g hg => ?_⟩
  cases hg
  rw [sample_prepare hf]
  exact a.counters.matches_self k

/-- A report that lands is taken out of the counters. -/
theorem Conserves.land (ha : a.Conserves k added reported) {f : Flight}
    (hf : a.flight = some f) :
    (a.land f).Conserves k added (Counters.sampled k f.sample + reported) := by
  refine ⟨?_, fun g hg => absurd hg (by simp [Aggregator.land])⟩
  have hsettle := a.counters.amount_settle k (ha.flight f hf)
  have hbalance := ha.balance
  show Counters.sampled k f.sample + reported + (a.counters.settle f.sample).amount k = added
  rw [← hbalance, ← hsettle]
  abel

theorem Conserves.abandon (ha : a.Conserves k added reported) :
    a.abandon.Conserves k added reported :=
  ⟨ha.balance, fun g hg => absurd hg (by simp [Aggregator.abandon])⟩

end Aggregator

namespace Pipeline

/-- A pipeline conserves `k` unless something happened that sets or deletes it. -/
def Conserves (k : String) (p : Pipeline) : Prop :=
  (∀ e ∈ p.journal.events, e.overrides k = false) →
    p.kpi.Conserves k (p.journal.added k) (p.journal.reported k)

theorem Conserves.step {k : String} {t : Task} {p p' : Pipeline} {h h' : Hand}
    (hs : Step quits t p h p' h') (hp : p.Conserves k) : p'.Conserves k := by
  obtain ⟨es, hes, hk⟩ := hs.kpiChange
  intro untouched
  rw [hes] at untouched
  have ha := hp fun e he => untouched e (List.mem_append_right _ he)
  have hadded : p'.journal.added k = (es.map (Event.added k)).sum + p.journal.added k := by
    simp [Journal.added, hes]
  have hreported :
      p'.journal.reported k = (es.map (Event.reported k)).sum + p.journal.reported k := by
    simp [Journal.reported, hes]
  rw [hadded, hreported]
  generalize p'.kpi = a at hk
  cases hk with
  | none _ hquiet =>
    have hadd : (es.map (Event.added k)).sum = 0 := List.sum_eq_zero fun x hx => by
      obtain ⟨e, he, rfl⟩ := List.mem_map.mp hx
      exact Event.added_of_not_ofAggregator (hquiet e he) k
    have hreport : (es.map (Event.reported k)).sum = 0 := List.sum_eq_zero fun x hx => by
      obtain ⟨e, he, rfl⟩ := List.mem_map.mp hx
      exact Event.reported_of_not_ofAggregator (hquiet e he) k
    simpa [hadd, hreport] using ha
  | count c => simpa [Event.reported] using ha.count c (untouched _ (by simp))
  | depart turn hf => simpa [Event.added, Event.reported] using ha.depart hf
  | land hf accepted =>
    have hyields : ((p.yields t).map (Event.added k)).sum = 0
        ∧ ((p.yields t).map (Event.reported k)).sum = 0 := by
      unfold yields
      split <;> simp [Event.added, Event.reported]
    simpa [hyields.1, hyields.2, Event.added, Event.reported] using ha.land hf
  | abandon he turn =>
    rcases he with rfl | rfl <;> simpa [Event.added, Event.reported] using ha.abandon
  | adjust n => exact ⟨by simpa using ha.balance, ha.flight⟩

theorem conserves_of_fresh {p : Pipeline} (hp : p.Fresh) (k : String) : p.Conserves k := by
  intro _
  obtain ⟨settings, hkpi⟩ := hp.kpi
  refine ⟨?_, fun f hf => ?_⟩
  · simp [Journal.added, Journal.reported, hp.events, hkpi, Aggregator.create, Counters.amount]
  · simp [hkpi, Aggregator.create] at hf

theorem invariant_conserves (k : String) : Invariant fun p _ => p.Conserves k :=
  .of_timeless (fun hs hp => hp.step hs) fun _ _ _ _ _ hp => hp

end Pipeline

namespace Session

/-- At every point of every session, what was added to a counter that is never set or deleted is
in the reports that were delivered and in the counter, and the counter reads the exact difference
whenever that is a signed word. -/
theorem reported_add_amount {s : Session} (h : s.Reachable) {k : String}
    (untouched : ∀ e ∈ s.journal.events, e.overrides k = false) :
    s.journal.reported k + s.kpi.counters.amount k = s.journal.added k
      ∧ (-2 ^ 63 ≤ s.journal.difference k → s.journal.difference k < 2 ^ 63 →
        (s.kpi.counters.amount k).signed = s.journal.difference k) := by
  have hconserves := h.keeps (Pipeline.invariant_conserves k)
    (fun _ hp => Pipeline.conserves_of_fresh hp k) untouched
  exact ⟨hconserves.balance, Amount.signed_eq_of_modEq
    (s.journal.difference_modEq k hconserves.balance)⟩

/-- A flush whose POST takes five milliseconds, with an increment before it and one during it. -/
def flushedBetween : Session :=
  (create .parts {} {} {} [⟨"", [.status ⟨200⟩ 5]⟩] {}).follow
    [.start (.increment "calls"), .start (.background (.flush "kpi")), .turn (.caller 0),
      .start (.increment "calls"), .elapse 5, .turn (.caller 0)]

theorem reported_add_amount_flushedBetween :
    (flushedBetween.journal.reported "calls" = 1000
      ∧ flushedBetween.kpi.counters.amount "calls" = 1000)
    ∧ flushedBetween.journal.reported "calls" + flushedBetween.kpi.counters.amount "calls"
      = flushedBetween.journal.added "calls"
    ∧ (flushedBetween.kpi.counters.amount "calls").signed
      = flushedBetween.journal.difference "calls" := by
  have h := reported_add_amount (s := flushedBetween) ⟨_, _, _, _, _, _, _, _, rfl⟩ (k := "calls")
    (by decide +kernel)
  exact ⟨by decide +kernel, h.1, h.2 (by decide +kernel) (by decide +kernel)⟩

end Session

end Uplink
