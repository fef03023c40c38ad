import Mathlib.Algebra.Group.Nat.Defs
import Mathlib.Data.List.Nodup
import Uplink.Agent.Demo
/-!
The records of many rounds.  A numeral can be read back, whatever zeros stand in front of it, so no
two rounds have an alarm id, a calling number or an IMSI in common.
-/
namespace Uplink

namespace Report

def alarmId? : Report → Option String
  | .alarm a => some a.alarmId
  | _ => none

def callingNumber? : Report → Option String
  | .callDetail ⟨_, _, .typed call⟩ => some call.callingNumber
  | _ => none

def address? : Report → Option String
  | .stationState s => some s.address
  | _ => none

def imsi? : Report → Option String
  | .terminalAccess t => some t.imsi
  | _ => none

end Report

namespace Demo

/-- The records of the first rounds with the numbers of their rounds, in the order they are
pushed. -/
def schedule (rounds : Nat) : List (Nat × Report) :=
  (List.range rounds).flatMap fun i => (records (.ofNat (i + 1))).map (i + 1, ·)

theorem schedule_succ (n : Nat) :
    schedule (n + 1) = schedule n ++ (records (.ofNat (n + 1))).map (n + 1, ·) := by
  rw [schedule, List.range_succ, List.flatMap_append, List.flatMap_singleton]
  rfl

/-! ### Numerals -/

theorem ofDigitChars_padded (n width : Nat) :
    Nat.ofDigitChars 10 (padded n width).toList 0 = n := by
  have hdigits : (padded n width).toList
      = List.replicate (width - (Nat.toDigits 10 n).length) '0' ++ Nat.toDigits 10 n :=
    String.toList_ofList
  rw [hdigits, Nat.ofDigitChars_append, Nat.ofDigitChars_replicate_zero, Nat.mul_zero,
    Nat.ofDigitChars_ten_toDigits]

theorem padded_injective (width : Nat) : Function.Injective (padded · width) := by
  intro m n h
  calc
    m = Nat.ofDigitChars 10 (padded m width).toList 0 := (ofDigitChars_padded m width).symm
    _ = Nat.ofDigitChars 10 (padded n width).toList 0 := by rw [show padded m width = _ from h]
    _ = n := ofDigitChars_padded n width

theorem toString_eq_padded (n : Nat) : toString n = padded n 0 := by
  rw [Nat.toString_eq_ofList_toDigits, padded]
  simp

theorem append_injective (stem : String) : Function.Injective (stem ++ ·) := by
  intro a b h
  have hlists : stem.toList ++ a.toList = stem.toList ++ b.toList := by
    simpa using congrArg String.toList h
  exact String.toList_inj.mp (List.append_cancel_left hlists)

/-! ### What tells the rounds apart -/

/-- What each round has one of, a schedule has once for each round. -/
theorem filterMap_schedule {f : Report → Option String} {g : Nat → String}
    (hf : ∀ round, (records round).filterMap f = [g round.toNat]) {n : Nat} (hn : n < 2 ^ 64) :
    ((schedule n).map Prod.snd).filterMap f = (List.range n).map fun i => g (i + 1) := by
  induction n with
  | zero => rfl
  | succ n ih =>
    have hround : (UInt64.ofNat (n + 1)).toNat = n + 1 := UInt64.toNat_ofNat_of_lt' hn
    rw [schedule_succ, List.map_append, List.filterMap_append, ih (Nat.lt_of_succ_lt hn),
      List.map_map, show Prod.snd ∘ (n + 1, ·) = (id : Report → Report) from rfl, List.map_id, hf,
      hround, List.range_succ, List.map_append]
    rfl

theorem nodup_filterMap_schedule {f : Report → Option String} {g : Nat → String}
    (hf : ∀ round, (records round).filterMap f = [g round.toNat]) (hg : Function.Injective g)
    {n : Nat} (hn : n < 2 ^ 64) : (((schedule n).map Prod.snd).filterMap f).Nodup := by
  rw [filterMap_schedule hf hn]
  exact List.Nodup.map (hg.comp fun _ _ => Nat.succ.inj) List.nodup_range

variable {n : Nat}

theorem nodup_alarmIds (hn : n < 2 ^ 64) :
    (((schedule n).map Prod.snd).filterMap Report.alarmId?).Nodup := by
  refine nodup_filterMap_schedule (g := fun n => toString (10000 + n)) (fun _ => rfl) ?_ hn
  intro a b h
  simp only [toString_eq_padded] at h
  exact Nat.add_left_cancel (padded_injective 0 h)

theorem nodup_callingNumbers (hn : n < 2 ^ 64) :
    (((schedule n).map Prod.snd).filterMap Report.callingNumber?).Nodup :=
  nodup_filterMap_schedule (g := fun n => "1380000" ++ padded n 4) (fun _ => rfl)
    ((append_injective _).comp (padded_injective 4)) hn

theorem nodup_imsis (hn : n < 2 ^ 64) :
    (((schedule n).map Prod.snd).filterMap Report.imsi?).Nodup :=
  nodup_filterMap_schedule (g := fun n => "4600000" ++ padded n 8) (fun _ => rfl)
    ((append_injective _).comp (padded_injective 8)) hn

/-- Every station of a schedule has a host number that addresses a host. -/
theorem host_of_schedule (hn : n < 2 ^ 64) :
    ∀ address ∈ ((schedule n).map Prod.snd).filterMap Report.address?,
      ∃ host, 1 ≤ host ∧ host ≤ 254 ∧ address = "192.168.1." ++ toString host := by
  rw [filterMap_schedule (g := fun n => "192.168.1." ++ toString (n % 254 + 1)) (fun _ => rfl) hn]
  intro address hmem
  obtain ⟨i, -, rfl⟩ := List.mem_map.mp hmem
  have hlt : (i + 1) % 254 < 254 := Nat.mod_lt _ (by decide)
  exact ⟨(i + 1) % 254 + 1, by omega, by omega, rfl⟩

end Demo

end Uplink
