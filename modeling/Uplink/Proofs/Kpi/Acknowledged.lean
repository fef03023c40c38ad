import Uplink.Proofs.Kpi.Archive
import Uplink.Proofs.Kpi.Exclusion
import Uplink.Proofs.Kpi.Told
import Uplink.Proofs.Session.Patience
/-!
The history of the reports is that of the POSTs that were acknowledged.  The account of a trace says
which POSTs of reports there were, what each of them carries and which of them were acknowledged;
the POSTs, the results of the flushes and the history of every session are as it says.
-/
namespace Uplink

namespace Session

open Pipeline

variable {quits : Prop} {c : Account} {s s' : Session} {p : Pipeline} {hands : Task → Hand}
  {t : Task} {id : Nat}
  {f : Flusher}

/-! ### Moves -/

theorem Leads.tracks (hc : c.Tells s.toPipeline s.hand) (lined : s.toPipeline.Lined s.hand)
    (hq : quits → c.dismisses t) (hl : Leads quits t (s.hand t) s s') :
    c.Tracks s.toPipeline s'.toPipeline s'.hand := by
  rw [hl.hand_eq]
  exact hc.steps lined hq hl.steps

/-- The account follows every move. -/
theorem move_tracks (hc : c.Tells s.toPipeline s.hand) (lined : s.toPipeline.Lined s.hand)
    (tended : s.Tended) (m : Move) (hcurrent : (∃ t, m = .turn t) → c.current = s.current)
    (hdropped : ∀ t ∈ s.dropped m, c.dropped = some t) :
    c.Tracks s.toPipeline (s.move m).toPipeline (s.move m).hand := by
  have hm := s.moves_move m
  generalize s.move m = s' at hm ⊢
  cases hm with
  | stays => exact hc.tracks
  | start op free =>
    exact Leads.tracks hc lined False.elim
      (hand_operator_of_isFree free ▸ leads_start s op free)
  | collect =>
    rw [toPipeline_collect, hand_collect]
    exact hc.tracks
  | turn t _ =>
    have hready : c.Tells ({ s with ready := s.ready.erase t } : Session).toPipeline s.hand :=
      { hc with }
    refine Leads.tracks (s := { s with ready := s.ready.erase t }) hready
      (invariant_lined.erase t lined) ?_ (leads_turn _ t)
    rintro ⟨id, f, rfl, hf, cancelled⟩
    -- whoever quits was cancelled, and so it is not the current flusher
    have hother : s.current ≠ some id := fun hid => by
      simp [(tended.active id f hf).mpr hid] at cancelled
    simpa [Account.dismisses, hcurrent ⟨_, rfl⟩] using hother
  | elapse now =>
    obtain ⟨ready, heq, -⟩ := s.toPipeline.moveTo_eq now
    refine ⟨[], congrArg Journal.events (journal_moveTo s.toPipeline now), ?_⟩
    show c.Tells (s.toPipeline.moveTo now) s.hand
    rw [heq]
    exact { hc with
      timely := fun x hx kept => Nat.le_trans (hc.timely x hx kept) (Nat.le_max_left _ _) }
  | @dropOwn stage calling flushes =>
    have hflushes : (s.hand .operator).flushes := by
      rw [hand_of_calling calling, flushes_ofStage, flushes]
    refine Leads.tracks hc lined (fun _ => ?_) (leads_dropOwn calling flushes)
    simpa [Account.dismisses] using hdropped .operator (by simp [dropped, hflushes])
  | @drop id stage calling flushes =>
    have hflushes : (s.hand (.caller id)).flushes := by
      simpa [hand, calling, Caller.hand, flushes_ofStage] using flushes
    refine Leads.tracks hc lined (fun _ => ?_) (leads_drop calling flushes)
    simpa [Account.dismisses] using hdropped (.caller id) (by simp [dropped, hflushes])
  | discard => exact Leads.tracks hc lined False.elim (leads_stopFlushing s)

end Session

/-! ### Reading a trace -/

namespace Account

open Pipeline

variable {c : Account} {s : Session} {p : Pipeline} {hands : Task → Hand} {op : Operation}

/-- An operation changes what is kept and which flusher is the current one, and nothing else. -/
theorem Tells.ask (hc : c.Tells p hands) (op : Operation) : (c.ask op).Tells p hands := by
  cases op <;> exact { hc with }

theorem acknowledged_ask (c : Account) (op : Operation) :
    (c.ask op).acknowledged = c.acknowledged := by
  cases op <;> rfl

theorem attempts_ask (c : Account) (op : Operation) : (c.ask op).attempts = c.attempts := by
  cases op <;> rfl

/-- A move drops the flush of one task at most, and that is all the account takes from it. -/
theorem dropAll_eq (c : Account) (s : Session) (m : Session.Move) :
    ∃ dropped, (s.dropped m).foldl drop c = { c with dropped }
      ∧ ∀ t ∈ s.dropped m, dropped = some t := by
  have hone {b : Bool} {t : Task} :
      ∃ dropped, (if b then [t] else []).foldl drop c = { c with dropped }
        ∧ ∀ u ∈ (if b then [t] else []), dropped = some u := by
    cases b with
    | true => exact ⟨some t, rfl, fun u hu => congrArg some (List.mem_singleton.mp hu).symm⟩
    | false => exact ⟨c.dropped, rfl, by simp⟩
  unfold Session.dropped
  split
  · exact hone
  · exact hone
  · exact ⟨c.dropped, rfl, by simp⟩

theorem Tells.askAll (hc : c.Tells p hands) (ops : List Operation) :
    (ops.foldl Account.ask c).Tells p hands
      ∧ (ops.foldl Account.ask c).acknowledged = c.acknowledged
      ∧ (ops.foldl Account.ask c).attempts = c.attempts := by
  induction ops generalizing c with
  | nil => exact ⟨hc, rfl, rfl⟩
  | cons op ops ih =>
    obtain ⟨htells, hacknowledged, hattempts⟩ := ih (hc.ask op)
    exact ⟨htells, hacknowledged.trans (acknowledged_ask c op),
      hattempts.trans (attempts_ask c op)⟩

theorem read_asked (c : Account) (ops : List Operation) :
    c.read (ops.map .asked) = ops.foldl ask c := List.foldl_map

theorem read_dropped (c : Account) (ts : List Task) :
    c.read (ts.map .dropped) = ts.foldl drop c := List.foldl_map

theorem read_noted (c : Account) (es : List Event) :
    c.read (es.reverse.map .noted) = hearAll es c := by
  unfold read
  rw [List.foldl_map, List.foldl_reverse]
  rfl

theorem read_told (c : Account) (told : List (Task × CallResult)) :
    c.read (told.map fun (t, r) => .told t r) = c := by
  unfold read
  rw [List.foldl_map]
  exact List.foldl_fixed told

theorem read_append (c : Account) (trace trace' : List Occurrence) :
    c.read (trace ++ trace') = (c.read trace).read trace' := List.foldl_append

/-- The account of a move is that of the operation it asks, of the flush it drops, and of the events
it notes. -/
theorem read_occurrences (c : Account) (s : Session) (m : Session.Move) {es : List Event}
    (hnoted : s.noted m = es.reverse) :
    c.read (s.occurrences m) = hearAll es ((s.dropped m).foldl drop ((s.asked m).foldl ask c)) := by
  unfold Session.occurrences
  rw [read_append, read_append, read_append, read_asked, read_dropped, hnoted, read_noted,
    read_told]

end Account

namespace Shelf

variable {α : Type} {s : Shelf α} {r : Ring α}

theorem shows_adjust (h : r.Shows s.kept) (n : Int) : (r.adjust n).Shows (s.adjust n).kept := by
  unfold Ring.adjust Shelf.adjust
  by_cases hn : 0 < n
  · rw [if_neg (Int.not_le.mpr hn), if_pos hn]
    exact h.resize n.toNat
  · rw [if_pos (Int.not_lt.mp hn), if_neg hn]
    exact h

theorem shows_pushAll (h : r.Shows s.kept) (xs : List α) :
    (xs.foldl Ring.push r).Shows (xs.foldl push s).kept := by
  induction xs generalizing r s with
  | nil => exact h
  | cons x xs ih => exact ih (s := s.push x) (h.push x)

theorem recent_eq (h : r.Shows s.kept) (n : Int) : r.recent n = s.recent n := by
  have hfollows : Service.Follows ⟨r, .ofNat s.pushed⟩ s := ⟨h, rfl⟩
  exact hfollows.recent n

theorem rtake_suffix (l : List α) (n : Nat) : l.rtake n <:+ l := List.drop_suffix _ l

theorem suffix_adjust {l : List α} (h : s.kept.items <:+ l) (n : Int) :
    (s.adjust n).kept.items <:+ l := by
  unfold adjust Bounded.resize
  split
  · dsimp only
    split
    · exact h
    · exact (rtake_suffix _ _).trans h
  · exact h

theorem suffix_pushAll {l : List α} (h : s.kept.items <:+ l) (xs : List α) :
    (xs.foldl push s).kept.items <:+ l ++ xs := by
  induction xs generalizing s l with
  | nil => rwa [List.append_nil]
  | cons x xs ih =>
    have hpush : (s.push x).kept.items <:+ l ++ [x] := by
      obtain ⟨older, rfl⟩ := h
      refine (rtake_suffix _ _).trans ⟨older, ?_⟩
      rw [List.append_assoc]
    have hrest := ih hpush
    rwa [List.append_assoc] at hrest

end Shelf

namespace Session

open Pipeline

variable {c : Account} {s : Session}

/-! ### Runs -/

/-- The account says how the session stands, and the history holds the newest of the reports that
were acknowledged. -/
structure KeepsTo (s : Session) (c : Account) : Prop where
  tells : c.Tells s.toPipeline s.hand
  current : c.current = s.current
  started : c.started = s.flushers.length
  history : s.kpi.history.Shows c.shelf.kept
  newest : c.shelf.kept.items <:+ c.acknowledged.map Attempt.report

/-- A start or a stop of flushing is all that changes the current flusher. -/
theorem KeepsTo.asked (hs : s.KeepsTo c) (m : Move) :
    ((s.asked m).foldl Account.ask c).current = (s.move m).current
      ∧ ((s.asked m).foldl Account.ask c).started = (s.move m).flushers.length := by
  have hkeep {c' : Account} {s' : Session} (hc : c'.current = c.current ∧ c'.started = c.started)
      (hflushing : s'.flushing = s.flushing) :
      c'.current = s'.current ∧ c'.started = s'.flushers.length := by
    simp only [flushing, Prod.mk.injEq] at hflushing
    rw [hc.1, hc.2, hs.current, hs.started, hflushing.1, hflushing.2.1]
    exact ⟨rfl, rfl⟩
  have hlength : s.cancelFlusher.flushers.length = s.flushers.length := by
    unfold cancelFlusher
    split
    · rfl
    · exact List.length_modify _ _ _
  cases m with
  | start op =>
    simp only [Session.asked, move]
    split
    next =>
      cases op with
      | startFlushing url =>
        refine ⟨congrArg some (hs.started.trans hlength.symm), ?_⟩
        show c.started + 1 = (s.cancelFlusher.flushers ++ [_]).length
        rw [List.length_append, hlength, hs.started]
        rfl
      | stopFlushing =>
        exact ⟨(current_cancelFlusher s).symm, hs.started.trans hlength.symm⟩
      | _ =>
        exact hkeep ⟨rfl, rfl⟩ (flushing_start s _ (fun _ => Operation.noConfusion)
          Operation.noConfusion)
    next => exact hkeep ⟨rfl, rfl⟩ rfl
  | collect => exact hkeep ⟨rfl, rfl⟩ (flushing_collect s)
  | turn t =>
    simp only [Session.asked, move]
    split
    next =>
      rcases turn_flushing { s with ready := s.ready.erase t } t with
        ⟨heq, -⟩ | ⟨id, f, f', -, hf, heq, -⟩
      · exact hkeep ⟨rfl, rfl⟩ heq
      · simp only [flushing, Prod.mk.injEq] at heq
        rw [heq.1, heq.2.1, List.length_set]
        exact ⟨hs.current, hs.started⟩
    next => exact hkeep ⟨rfl, rfl⟩ rfl
  | elapse now => exact hkeep ⟨rfl, rfl⟩ rfl
  | drop t =>
    refine hkeep ⟨rfl, rfl⟩ ?_
    simp only [move]
    unfold Session.drop
    split
    · split
      · split <;> rfl
      · rfl
    · split
      · split <;> rfl
      · rfl
    · rfl
  | discard => exact ⟨(current_cancelFlusher s).symm, hs.started.trans hlength.symm⟩

/-- The shelf and the history change alike when an operation begins. -/
theorem KeepsTo.shelf_asked (hs : s.KeepsTo c) (ops : List Operation) (hops : ops.length ≤ 1) :
    (ops.foldl Archive.ask s.archive).2.Shows (ops.foldl Account.ask c).shelf.kept
      ∧ (ops.foldl Archive.ask s.archive).1 = s.journal.landings
      ∧ (ops.foldl Account.ask c).shelf.kept.items <:+ c.acknowledged.map Attempt.report := by
  match ops with
  | [] => exact ⟨hs.history, rfl, hs.newest⟩
  | [op] =>
    cases op with
    | adjustKpiHistory n =>
      exact ⟨Shelf.shows_adjust hs.history n, rfl, Shelf.suffix_adjust hs.newest n⟩
    | _ => exact ⟨hs.history, rfl, hs.newest⟩
  | _ :: _ :: _ => simp at hops

theorem length_asked_le (s : Session) (m : Move) : (s.asked m).length ≤ 1 := by
  unfold Session.asked
  split
  · split <;> simp
  · simp
  · simp

structure Adds (s : Session) (c c' : Account) (trace : List Occurrence) : Prop where
  keeps : s.KeepsTo c'
  posts : (c'.attempts.map fun x => (x.task, x.entry))
    = (c.attempts.map fun x => (x.task, x.entry)) ++ trace.filterMap Occurrence.report?
  sent : (c'.acknowledged.map fun x => (x.task, x.report))
    = (c.acknowledged.map fun x => (x.task, x.report)) ++ trace.filterMap Occurrence.sent?

theorem report?_occurrences (s : Session) (m : Move) :
    (s.occurrences m).filterMap Occurrence.report? = (s.noted m).filterMap Event.report? := by
  have hasked : (s.asked m).filterMap (fun op => Occurrence.report? (.asked op)) = [] :=
    List.filterMap_eq_nil_iff.mpr fun _ _ => rfl
  have htold : (s.told m).filterMap (fun (t, r) => Occurrence.report? (.told t r)) = [] :=
    List.filterMap_eq_nil_iff.mpr fun _ _ => rfl
  rw [filterMap_occurrences fun _ => rfl, hasked, htold, List.nil_append, List.append_nil]
  rfl

theorem sent?_occurrences (s : Session) (m : Move) :
    (s.occurrences m).filterMap Occurrence.sent?
      = (s.told m).filterMap fun (t, r) => r.sent?.map (t, ·) := by
  have hasked : (s.asked m).filterMap (fun op => Occurrence.sent? (.asked op)) = [] :=
    List.filterMap_eq_nil_iff.mpr fun _ _ => rfl
  have hnoted : (s.noted m).filterMap (fun e => Occurrence.sent? (.noted e)) = [] :=
    List.filterMap_eq_nil_iff.mpr fun _ _ => rfl
  rw [filterMap_occurrences fun _ => rfl, hasked, hnoted, List.append_nil, List.nil_append]
  rfl

theorem KeepsTo.move (hs : s.KeepsTo c) (h : s.Reachable) (m : Move) :
    (s.move m).Adds c (c.read (s.occurrences m)) (s.occurrences m) := by
  obtain ⟨lined, steady⟩ := h.lined_steady
  obtain ⟨hcurrent, hstarted⟩ := hs.asked m
  obtain ⟨hshows, hlandings, hnewest⟩ := hs.shelf_asked (s.asked m) (s.length_asked_le m)
  obtain ⟨htells, hacknowledged, hattempts⟩ := hs.tells.askAll (s.asked m)
  have hask : (∃ t, m = .turn t) → ((s.asked m).foldl Account.ask c).current = s.current := by
    rintro ⟨t, rfl⟩
    exact hs.current
  obtain ⟨dropped, hdrop, htask⟩ := Account.dropAll_eq ((s.asked m).foldl Account.ask c) s m
  have hread {es : List Event} (hnoted : s.noted m = es.reverse) :=
    Account.read_occurrences c s m hnoted
  generalize (s.asked m).foldl Account.ask c = c₀ at *
  -- the account before the events of the move
  obtain ⟨c₁, hc₁⟩ : ∃ c₁ : Account, c₁ = { c₀ with dropped } := ⟨_, rfl⟩
  have htells : c₁.Tells s.toPipeline s.hand := hc₁ ▸ { htells with }
  have hcurrent : c₁.current = (s.move m).current := hc₁ ▸ hcurrent
  have hstarted : c₁.started = (s.move m).flushers.length := hc₁ ▸ hstarted
  have hacknowledged : c₁.acknowledged = c.acknowledged := hc₁ ▸ hacknowledged
  have hattempts : c₁.attempts = c.attempts := hc₁ ▸ hattempts
  have hshows : ((s.asked m).foldl Archive.ask s.archive).2.Shows c₁.shelf.kept := hc₁ ▸ hshows
  have hnewest : c₁.shelf.kept.items <:+ c.acknowledged.map Attempt.report := hc₁ ▸ hnewest
  have htracks := move_tracks htells lined h.tended m (hc₁ ▸ hask) (hc₁ ▸ htask)
  obtain ⟨es, hes, hafter⟩ := htracks
  have hnoted : s.noted m = es.reverse := noted_eq hes
  have hflushing := Account.hearAll_flushing es c₁
  rw [hread hnoted, hdrop, ← hc₁]
  have harchive := move_files steady m
  rw [Archive.foldl_file] at harchive
  have hsent : ((Account.hearAll es c₁).acknowledged.map fun x => (x.task, x.report))
      = (c.acknowledged.map fun x => (x.task, x.report))
        ++ (s.told m).filterMap fun (t, r) => r.sent?.map (t, ·) := by
    rw [← hafter.landings, ← hs.tells.landings, ← hlandings]
    exact congrArg Prod.fst harchive
  obtain ⟨new, hnew, hshelf⟩ := Account.hearAll_shelf es c₁
  rw [hnew, hacknowledged, List.map_append] at hsent
  have htold := List.append_cancel_left hsent
  refine ⟨⟨hafter, ?_, ?_, ?_, ?_⟩, ?_, ?_⟩
  · exact (congrArg Prod.fst hflushing).trans hcurrent
  · exact (congrArg (·.2.1) hflushing).trans hstarted
  · have hhistory : (s.move m).kpi.history = (new.map Attempt.report).foldl Ring.push
        ((s.asked m).foldl Archive.ask s.archive).2 := by
      refine (congrArg Prod.snd harchive).trans ?_
      dsimp only
      rw [← htold, List.foldl_map, List.foldl_map]
    rw [hhistory, hshelf]
    exact Shelf.shows_pushAll hshows _
  · rw [hshelf, hnew, hacknowledged, List.map_append]
    exact Shelf.suffix_pushAll hnewest _
  · rw [report?_occurrences, hnoted, ← hafter.posts, ← hattempts, ← htells.posts]
    exact Journal.reports_append hes
  · rw [sent?_occurrences, hnew, hacknowledged, List.map_append, htold]

theorem KeepsTo.follow (hs : s.KeepsTo c) (h : s.Reachable) (moves : List Move) :
    (s.follow moves).Adds c (c.read (s.trace moves)) (s.trace moves) := by
  induction moves generalizing s c with
  | nil => exact ⟨hs, (List.append_nil _).symm, (List.append_nil _).symm⟩
  | cons m moves ih =>
    obtain ⟨hkeeps, hposts, hsent⟩ := hs.move h m
    obtain ⟨hlast, hposts', hsent'⟩ := ih hkeeps (h.comesTo (comesTo_move s m))
    unfold trace
    rw [Account.read_append]
    refine ⟨hlast, ?_, ?_⟩
    · rw [hposts', hposts, List.filterMap_append, List.append_assoc]
    · rw [hsent', hsent, List.filterMap_append, List.append_assoc]

theorem keepsTo_create (a : Assembly) (settings : Settings) (identity : Identity) (clock : Clock)
    (receiver : Receiver) (demo : AgentConfig) (chance : Chance) :
    (create a settings identity clock receiver demo chance).KeepsTo
      (.create a settings identity clock receiver chance) := by
  have hfirst : (Account.create a settings identity clock receiver chance).Tells
      (.ofSettings a settings identity clock receiver chance) fun _ => .free :=
    { times := fun n => by simp [Account.create, Account.attempts, ofSettings]
      now := rfl, neUid := rfl, granularity := rfl, receiver := rfl, counters := rfl
      flight := rfl, flying := by simp [Account.create], posts := rfl, landings := rfl
      carried := by simp [Account.create, Account.attempts]
      timely := by simp [Account.create]
      dismissed := by simp [Account.create] }
  refine ⟨?_, ?_, ?_, ?_, List.nil_suffix⟩
  · rw [hand_create]
    refine create_of_startWorkers (P := fun p => Account.Tells _ p fun _ => .free) hfirst
      fun p workers capacity hp => hp.of_outlook_eq (outlook_startWorkers p workers capacity) ?_ ?_
    · exact congrArg Journal.reports (journal_startWorkers p workers capacity)
    · exact congrArg Journal.landings (journal_startWorkers p workers capacity)
  · rw [create_eq]
    rfl
  · rw [create_eq]
    rfl
  · rw [kpi_create]
    exact Ring.shows_create _

/-- The effective time for the POST of a report never changes. -/
theorem flushTimeout_eq {a : Assembly} {settings : Settings} {identity : Identity} {clock : Clock}
    {receiver : Receiver} {demo : AgentConfig} {chance : Chance}
    (h : (create a settings identity clock receiver demo chance).ComesTo s) :
    s.kpi.flushTimeout = settings.kpi.flushTimeout.orDefault Default.flushTimeout := by
  have hinvariant : Invariant fun p _ => p.kpi.flushTimeout
      = settings.kpi.flushTimeout.orDefault Default.flushTimeout :=
    .of_timeless (fun hs hp => hs.flushTimeout_eq.trans hp) fun _ _ _ _ _ hp => hp
  exact keeps_of_create hinvariant rfl h

structure Acknowledges (settings : Settings) (trace : List Occurrence) (c : Account)
    (s : Session) : Prop where
  /-- The account has the identity, the time and the counters of the session. -/
  neUid : s.identity.neUid = c.neUid
  stamp : s.reportStamp = c.stamp
  counters : s.kpi.counters = c.counters
  /-- The attempts are the POSTs of reports in their order, and each carries the report that was
  expected of it. -/
  posts : trace.filterMap Occurrence.report? = c.attempts.map fun x => (x.task, x.entry)
  carried : ∀ x ∈ c.attempts,
    x.Carries (settings.kpi.flushTimeout.orDefault Default.flushTimeout)
  /-- An attempt that was not cancelled is over at its time and not before. -/
  finished : ∀ x ∈ c.finished, x.cancelled = false → x.due ≤ s.now
  /-- An attempt is cancelled only after its flusher was stopped or replaced, or when its task drops
  the flush. -/
  cancelled : ∀ x ∈ c.finished, x.cancelled → x.dismissed
  underWay : ∀ x, c.flight = some x → s.now < x.due ∨ x.task ∈ s.ready
  /-- The acknowledged attempts are the flushes that say that they sent a report, and it is
  theirs. -/
  sent : trace.filterMap Occurrence.sent? = c.acknowledged.map fun x => (x.task, x.report)
  /-- The history holds the newest of their reports, and that is what is listed and adjusted. -/
  newest : c.shelf.kept.items <:+ c.acknowledged.map Attempt.report
  listed : ∀ n, (s.start (.kpiHistory n)).2 = .records ((c.shelf.recent n).map Record.encode)
  adjusted : ∀ n, (s.start (.adjustKpiHistory n)).2 = .number (c.shelf.adjust n).kept.items.length

/-- At every point of every session, the POSTs of reports, the outcomes of the flushes and the
history are those of the account of its trace: what is in the history was acknowledged, and in the
order in which the POSTs began. -/
theorem reports_acknowledged (a : Assembly) (settings : Settings) (identity : Identity)
    (clock : Clock) (receiver : Receiver) (demo : AgentConfig) (chance : Chance)
    (moves : List Move) :
    let first := create a settings identity clock receiver demo chance
    (first.follow moves).Acknowledges settings (first.trace moves)
      ((Account.create a settings identity clock receiver chance).read (first.trace moves)) := by
  intro first
  have hcomes : first.ComesTo (first.follow moves) := ⟨moves, rfl⟩
  have hreachable : (first.follow moves).Reachable := ⟨_, _, _, _, _, _, _, hcomes⟩
  obtain ⟨hkeeps, hposts, hsent⟩ :=
    (keepsTo_create a settings identity clock receiver demo chance).follow
    ⟨_, _, _, _, _, _, _, .refl _⟩ moves
  exact {
    neUid := hkeeps.tells.neUid
    stamp := hkeeps.tells.reportStamp_eq
    counters := hkeeps.tells.counters
    posts := hposts.symm
    carried := flushTimeout_eq hcomes ▸ hkeeps.tells.carried
    finished := hkeeps.tells.timely
    cancelled := hkeeps.tells.dismissed
    underWay := fun x hx => by
      have hwaits := hkeeps.tells.flying x hx
      have hawaits := hreachable.awaits x.task x.posting (by rw [hwaits]; rfl)
      unfold Pipeline.Awaits at hawaits
      rw [x.due_posting] at hawaits
      exact hawaits.imp And.left And.right
    sent := hsent.symm
    newest := hkeeps.newest
    listed := fun n => by
      show Answer.records (((first.follow moves).kpi.history.recent n).map Record.encode) = _
      rw [Shelf.recent_eq hkeeps.history n]
    adjusted := fun n => by
      have hshows := Shelf.shows_adjust hkeeps.history n
      exact congrArg Answer.number hshows.holds.count_eq }

/-- A flush in the background is answered after five milliseconds, with an increment during it; the
flusher that sends this increment is stopped before the answer. -/
example :
    let receiver : Receiver := [⟨"", [.status ⟨200⟩ 5, .status ⟨200⟩ 5]⟩]
    let moves : List Move :=
      [.start (.increment "calls"), .start (.background (.flush "kpi")), .turn (.caller 0),
        .start (.increment "calls"), .elapse 5, .turn (.caller 0),
        .start (.startFlushing "kpi"), .turn (.flusher 0), .elapse 60005, .turn (.flusher 0),
        .start .stopFlushing, .turn (.flusher 0)]
    let c := (Account.create .parts {} {} {} receiver {}).read
      ((create .parts {} {} {} receiver {}).trace moves)
    c.attempts.map (fun x => (x.accepted, x.cancelled)) = [(true, false), (true, true)]
      ∧ c.shelf.kept.items.length = 1 := by
  decide +kernel

end Session

end Uplink
