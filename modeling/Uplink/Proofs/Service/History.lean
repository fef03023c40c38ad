import Uplink.Proofs.Service.Chronicle
/-!
Histories and what is submitted: the services keep the records that the chronicle tells of, and
these records go to the dispatcher, in one order and with the same text.
-/
namespace Uplink

namespace Service

variable {α : Type} {v : Service α} {s : Shelf α}

structure Follows (v : Service α) (s : Shelf α) : Prop where
  history : v.history.Shows s.kept
  sequence : v.sequence = .ofNat s.pushed

theorem follows_create (capacity : Nat) :
    (create capacity : Service α).Follows (.create capacity) :=
  ⟨Ring.shows_create capacity, rfl⟩

theorem Follows.number (h : v.Follows s) : v.sequence + 1 = .ofNat (s.pushed + 1) := by
  rw [h.sequence, UInt64.ofNat_add]
  rfl

theorem Follows.record (h : v.Follows s) (a : α) : (v.record a).Follows (s.push a) :=
  ⟨h.history.push a, h.number⟩

theorem Follows.adjust (h : v.Follows s) (n : Int) : (v.adjust n).Follows (s.adjust n) := by
  unfold Service.adjust Ring.adjust Shelf.adjust
  by_cases hn : 0 < n
  · rw [if_neg (Int.not_le.mpr hn), if_pos hn]
    exact ⟨h.history.resize n.toNat, h.sequence⟩
  · rw [if_pos (Int.not_lt.mp hn), if_neg hn]
    exact h

theorem Follows.recent (h : v.Follows s) (n : Int) : v.history.recent n = s.recent n := by
  have hholds := h.history.holds
  unfold Ring.recent Shelf.recent
  rw [hholds.toList_eq, hholds.last_eq]
  rfl

/-- A record is completed with its number, the time, and the network element that it names or else
the one of the session, where a record does not change when it is given its own. -/
theorem complete_eq [Record α] (lawful : ∀ a : α, Record.withNeUid (Record.neUid a) a = a)
    (v : Service α) (now : Int64) (neUid : String) (a : α) :
    v.complete now neUid a
      = (let a := Record.numbered (v.sequence + 1) (Record.stamped now a)
        Record.withNeUid (if (Record.neUid a).isEmpty then neUid else Record.neUid a) a) := by
  unfold complete
  dsimp only
  split
  · rfl
  · exact (lawful _).symm

end Service

namespace Services

structure Follow (v : Services) (c : Chronicle) : Prop where
  alarm : v.alarm.Follows c.alarm
  callDetail : v.callDetail.Follows c.callDetail
  generalEvent : v.generalEvent.Follows c.generalEvent
  stationState : v.stationState.Follows c.stationState
  terminalAccess : v.terminalAccess.Follows c.terminalAccess

variable {v v' : Services} {c : Chronicle}

/-- A record that is pushed is completed and kept as the chronicle tells, and what is submitted is
the text of the record that is kept. -/
theorem Follow.push (h : v.Follow c) {r r' : Report} (t : Task) (url : String)
    (hr : v.push (c.stamp r.kind) c.neUid r = (v', r')) :
    v'.Follow (c.push t url r) ∧ (c.push t url r).jobs = c.jobs ++ [(t, ⟨url, r'.encode⟩)] := by
  cases r with
  | alarm a =>
    rw [Services.push, Service.complete_eq (fun _ => rfl), h.alarm.number] at hr
    cases hr
    exact ⟨{ h with alarm := h.alarm.record _ }, rfl⟩
  | callDetail a =>
    rw [Services.push, Service.complete_eq fun _ => rfl] at hr
    cases hr
    exact ⟨{ h with callDetail := h.callDetail.record _ }, rfl⟩
  | generalEvent a =>
    rw [Services.push, Service.complete_eq fun _ => rfl] at hr
    cases hr
    exact ⟨{ h with generalEvent := h.generalEvent.record _ }, rfl⟩
  | stationState a =>
    rw [Services.push, Service.complete_eq fun _ => rfl] at hr
    cases hr
    exact ⟨{ h with stationState := h.stationState.record _ }, rfl⟩
  | terminalAccess a =>
    rw [Services.push, Service.complete_eq fun _ => rfl] at hr
    cases hr
    exact ⟨{ h with terminalAccess := h.terminalAccess.record _ }, rfl⟩
  | kpi k =>
    cases hr
    exact ⟨{ h with }, rfl⟩

theorem Follow.adjust (h : v.Follow c) (n : Int) (k : Kind) :
    (v.update (·.adjust n) k).Follow (c.adjust n k) := by
  cases k with
  | alarm => exact { h with alarm := h.alarm.adjust n }
  | callDetail => exact { h with callDetail := h.callDetail.adjust n }
  | generalEvent => exact { h with generalEvent := h.generalEvent.adjust n }
  | stationState => exact { h with stationState := h.stationState.adjust n }
  | terminalAccess => exact { h with terminalAccess := h.terminalAccess.adjust n }
  | kpi => exact h

end Services

namespace Ledger

/-- Only submissions are entered as pushes. -/
theorem pushes_enterAll {es : List Event} (h : ∀ e ∈ es, e.ofRecords = false) (l : Ledger) :
    (enterAll es l).pushes = l.pushes := by
  refine List.foldrRecOn (motive := fun l' => l'.pushes = l.pushes) es enter rfl
    fun l' hl e he => Eq.trans ?_ hl
  have he := h e he
  unfold enter
  split <;> first | rfl | (split <;> rfl) | simp_all [Event.ofRecords]

theorem pushes_enterAll_submitted {rest : List Event} (h : ∀ e ∈ rest, e.ofRecords = false)
    (t : Task) (j : Job) (c : Call) (l : Ledger) :
    (enterAll (rest ++ [.submitted t j, .called t c]) l).pushes = l.pushes ++ [(t, j)] := by
  rw [enterAll_append, pushes_enterAll h]
  show (enter (.called t c) l).pushes ++ [(t, j)] = _
  unfold enter
  dsimp only
  split <;> rfl

end Ledger

namespace Journal

/-- The chronicle of what the journal says, from a given beginning. -/
def chronicle (j : Journal) (first : Chronicle) : Chronicle := Chronicle.enterAll j.events first

end Journal

namespace Chronicle

variable {k : Kind}

theorem pushed_push (c : Chronicle) (t : Task) (url : String) (r : Report) (hk : k ≠ .kpi) :
    (c.push t url r).pushed k = c.pushed k + if r.kind = k then 1 else 0 := by
  cases r <;> cases k <;> first | rfl | exact absurd rfl hk

theorem pushed_adjust (c : Chronicle) (n : Int) (k' : Kind) :
    (c.adjust n k').pushed = c.pushed := by
  have hshelf {α : Type} (s : Shelf α) : (s.adjust n).pushed = s.pushed := by
    unfold Shelf.adjust
    split <;> rfl
  funext k
  cases k' <;> cases k <;> first | rfl | exact hshelf _

structure Agrees (c : Chronicle) (p : Pipeline) : Prop where
  times : ∀ k ≠ .kpi, ∀ n, (p.system.map SystemClock.services).map (· k n)
    = c.times.map (· k (c.pushed k + n))
  now : p.clock.now = c.now
  neUid : p.identity.neUid = c.neUid
  services : p.services.Follow c
  jobs : p.journal.ledger.pushes = c.jobs

/-- Pushing a record changes nothing that completes records. -/
theorem push_completes (c : Chronicle) (t : Task) (url : String) (r : Report) :
    (c.push t url r).times = c.times ∧ (c.push t url r).now = c.now
      ∧ (c.push t url r).neUid = c.neUid := by
  cases r <;> exact ⟨rfl, rfl, rfl⟩

theorem adjust_keeps (c : Chronicle) (n : Int) (k : Kind) :
    (c.adjust n k).times = c.times ∧ (c.adjust n k).now = c.now
      ∧ (c.adjust n k).neUid = c.neUid ∧ (c.adjust n k).jobs = c.jobs := by
  cases k <;> exact ⟨rfl, rfl, rfl, rfl⟩

theorem enterAll_submitted {rest : List Event} (h : ∀ e ∈ rest, e.ofRecords = false) (t : Task)
    (j : Job) (call : Call) (c : Chronicle) :
    enterAll (rest ++ [.submitted t j, .called t call]) c = enter (.called t call) c := by
  rw [enterAll_append, enterAll_of_not_ofRecords h]
  rfl

variable {quits : Prop} {first c : Chronicle} {p p' : Pipeline} {t : Task}

/-- A record is stamped as the chronicle tells, and a KPI report is not. -/
theorem Agrees.push_eq (hp : c.Agrees p) (r : Report) :
    p.services.push (p.stamp r.kind) p.identity.neUid r
      = p.services.push (c.stamp r.kind) c.neUid r := by
  have hstamp (hk : r.kind ≠ .kpi) : p.stamp r.kind = c.stamp r.kind := by
    have htimes := hp.times r.kind hk 0
    unfold Pipeline.stamp stamp
    rw [Option.map_map] at htimes
    rw [hp.now]
    exact congrArg (·.getD c.now) htimes
  rw [hp.neUid]
  cases r with
  | kpi k => rfl
  | _ => rw [hstamp (by simp [Report.kind])]

/-- What every step keeps. -/
theorem Agrees.step {h h' : Hand} (hs : Pipeline.Step quits t p h p' h')
    (hp : (p.journal.chronicle first).Agrees p) : (p'.journal.chronicle first).Agrees p' := by
  obtain ⟨es, hes, hchange⟩ := hs.recordChange
  have hpushes : p'.journal.ledger.pushes = (Ledger.enterAll es p.journal.ledger).pushes := by
    rw [Pipeline.ledger_of_events hes]
  have hchronicle : p'.journal.chronicle first = enterAll es (p.journal.chronicle first) := by
    unfold Journal.chronicle
    rw [hes, enterAll_append]
  rw [hchronicle]
  generalize p.journal.chronicle first = c at hp
  have htimes : p'.system.map SystemClock.services = p'.front.1 := rfl
  have hclock : p'.clock = p'.front.2.1 := rfl
  have hidentity : p'.identity = p'.front.2.2.1 := rfl
  have hservices : p'.services = p'.front.2.2.2 := rfl
  generalize p'.front = front at hchange htimes hclock hidentity hservices
  cases hchange with
  | none _ hquiet =>
    rw [enterAll_of_not_ofRecords hquiet]
    rw [Ledger.pushes_enterAll hquiet] at hpushes
    exact ⟨htimes ▸ hp.times, hclock ▸ hp.now, hidentity ▸ hp.neUid, hservices ▸ hp.services,
      hpushes.trans hp.jobs⟩
  | @push rest services r' url r timeout hr hrest =>
    rw [enterAll_submitted hrest]
    rw [Ledger.pushes_enterAll_submitted hrest, hp.jobs] at hpushes
    rw [hp.push_eq] at hr
    obtain ⟨hfollow, hjobs⟩ := hp.services.push t url hr
    obtain ⟨hsame, hnow, hneUid⟩ := push_completes c t url r
    exact {
      times := fun k hk n => by
        show _ = (c.push t url r).times.map (· k ((c.push t url r).pushed k + n))
        have hread := hp.times k hk (if k = r.kind then n + 1 else n)
        rw [htimes, hsame, pushed_push c t url r hk, Option.map_map, Option.map_map]
        rw [Option.map_map] at hread
        refine hread.trans ?_
        by_cases hkind : k = r.kind
        · rw [if_pos hkind, if_pos hkind.symm, Nat.add_comm n 1, Nat.add_assoc]
        · rw [if_neg hkind, if_neg (Ne.symm hkind), Nat.add_zero]
      now := by rw [hclock, hp.now]; exact hnow.symm
      neUid := by rw [hidentity, hp.neUid]; exact hneUid.symm
      services := hservices ▸ hfollow
      jobs := hpushes.trans hjobs.symm }
  | submit url body deadline hrest =>
    rw [enterAll_submitted hrest]
    rw [Ledger.pushes_enterAll_submitted hrest, hp.jobs] at hpushes
    exact ⟨htimes ▸ hp.times, hclock ▸ hp.now, hidentity ▸ hp.neUid,
      hservices ▸ { hp.services with }, hpushes⟩
  | moveClock clock =>
    exact ⟨htimes ▸ hp.times, congrArg Clock.now hclock, hidentity ▸ hp.neUid,
      hservices ▸ { hp.services with }, hpushes.trans hp.jobs⟩
  | identify identity =>
    exact ⟨htimes ▸ hp.times, hclock ▸ hp.now, congrArg Identity.neUid hidentity,
      hservices ▸ { hp.services with }, hpushes.trans hp.jobs⟩
  | adjust k n =>
    obtain ⟨hsame, hnow, hneUid, hjobs⟩ := adjust_keeps c n k
    exact {
      times := fun k' hk m => by
        show _ = (c.adjust n k).times.map (· k' ((c.adjust n k).pushed k' + m))
        rw [hsame, pushed_adjust, htimes]
        exact hp.times k' hk m
      now := by rw [hclock, hp.now]; exact hnow.symm
      neUid := by rw [hidentity, hp.neUid]; exact hneUid.symm
      services := hservices ▸ hp.services.adjust n k
      jobs := hpushes.trans (hp.jobs.trans hjobs.symm) }

theorem invariant_agrees (first : Chronicle) :
    Pipeline.Invariant fun p _ => (p.journal.chronicle first).Agrees p :=
  .of_timeless (fun hs hp => hp.step hs)
    fun _ _ _ _ _ hp => ⟨hp.times, hp.now, hp.neUid, hp.services, hp.jobs⟩

theorem agrees_ofSettings (a : Assembly) (settings : Settings) (identity : Identity)
    (clock : Clock) (receiver : Receiver) (chance : Chance) :
    (create ((a.system chance.clock).map SystemClock.services) identity clock
        settings.historyCapacity).Agrees
      (.ofSettings a settings identity clock receiver chance) where
  times k _ n := by
    have hnone : (create ((a.system chance.clock).map SystemClock.services) identity clock
        settings.historyCapacity).pushed k = 0 := by cases k <;> rfl
    rw [hnone, Nat.zero_add]
    rfl
  now := rfl
  neUid := rfl
  services :=
    ⟨Service.follows_create _, Service.follows_create _, Service.follows_create _,
      Service.follows_create _, Service.follows_create _⟩
  jobs := rfl

end Chronicle

namespace Session

/-- At every point of every session each history gives the records that the chronicle of the
session tells of, and the jobs submitted to the dispatcher are the chronicle's. -/
theorem histories_eq_chronicle {a : Assembly} {settings : Settings} {identity : Identity}
    {clock : Clock} {receiver : Receiver} {demo : AgentConfig} {chance : Chance} {s : Session}
    (h : (create a settings identity clock receiver demo chance).ComesTo s) :
    let c := s.journal.chronicle
      (.create ((a.system chance.clock).map SystemClock.services) identity
      clock settings.historyCapacity)
    ((∀ n, s.services.alarm.history.recent n = c.alarm.recent n)
      ∧ (∀ n, s.services.callDetail.history.recent n = c.callDetail.recent n)
      ∧ (∀ n, s.services.generalEvent.history.recent n = c.generalEvent.recent n)
      ∧ (∀ n, s.services.stationState.history.recent n = c.stationState.recent n)
      ∧ (∀ n, s.services.terminalAccess.history.recent n = c.terminalAccess.recent n))
    ∧ s.journal.ledger.pushes = c.jobs := by
  intro c
  have hagrees : c.Agrees s.toPipeline :=
    keeps_of_create (Chronicle.invariant_agrees _) (Chronicle.agrees_ofSettings _ _ _ _ _ _) h
  have hfollow := hagrees.services
  exact ⟨⟨hfollow.alarm.recent, hfollow.callDetail.recent, hfollow.generalEvent.recent,
    hfollow.stationState.recent, hfollow.terminalAccess.recent⟩, hagrees.jobs⟩

/-- Two alarms, the second of which names its network element, at two times; the history keeps one
of them in the end. -/
def alarmedTwice : Session :=
  (create .parts {} { neUid := "station" } { now := 7 } [] {}).follow
    [.start (.background (.push "alarms" (.ok (.alarm { alarmId := "a" })) .zero)),
      .turn (.caller 0), .start (.setClock 9),
      .start (.background (.push "alarms" (.ok (.alarm { neUid := "cell" })) .zero)),
      .turn (.caller 1), .start (.adjustHistory .alarm 1)]

theorem histories_eq_chronicle_alarmedTwice :
    alarmedTwice.services.alarm.history.recent 0
      = [{ neUid := "cell", alarmSeq := 2, alarmTime := 9 }]
    ∧ alarmedTwice.journal.ledger.pushes
      = [(.caller 0, ⟨"alarms", Record.encode
            ({ neUid := "station", alarmSeq := 1, alarmId := "a", alarmTime := 7 } : Alarm)⟩),
          (.caller 1, ⟨"alarms", Record.encode
            ({ neUid := "cell", alarmSeq := 2, alarmTime := 9 } : Alarm)⟩)] := by
  have h : (create .parts {} { neUid := "station" } { now := 7 } [] {}).ComesTo alarmedTwice :=
    ⟨_, rfl⟩
  obtain ⟨⟨halarm, -⟩, hjobs⟩ := histories_eq_chronicle h
  exact ⟨(halarm 0).trans (by decide +kernel), hjobs.trans (by decide +kernel)⟩

end Session

end Uplink
