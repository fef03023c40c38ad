import Uplink.Proofs.Kpi.Account
import Uplink.Proofs.Service.Front
import Uplink.Proofs.Session.Settling
import Uplink.Proofs.Session.Trace
/-!
The archive of the reports: those that landed, and the history of them.  Only flushes add to it, and
each of them adds the report that its result says was sent.
-/
namespace Uplink

namespace CallResult

def sent? : CallResult → Option KpiReport
  | flushed (.sent r) => some r
  | _ => none

end CallResult

namespace Occurrence

def sent? : Occurrence → Option (Task × KpiReport)
  | told t r => r.sent?.map (t, ·)
  | _ => none

end Occurrence

/-- The reports that landed, with whose they were, and the history. -/
abbrev Archive := List (Task × KpiReport) × Ring KpiReport

namespace Archive

def file (a : Archive) (t : Task) (r : CallResult) : Archive :=
  match r.sent? with
  | some report => (a.1 ++ [(t, report)], a.2.push report)
  | none => a

def ask (a : Archive) : Operation → Archive
  | .adjustKpiHistory n => (a.1, a.2.adjust n)
  | _ => a

def fileAll (a : Archive) (t : Task) (rs : List CallResult) : Archive :=
  rs.foldl (fun a r => a.file t r) a

theorem foldl_file (a : Archive) (told : List (Task × CallResult)) :
    told.foldl (fun a (t, r) => a.file t r) a
      = (a.1 ++ told.filterMap fun (t, r) => r.sent?.map (t, ·),
        (told.filterMap fun (t, r) => r.sent?.map (t, ·)).foldl (fun h x => h.push x.2) a.2) := by
  induction told generalizing a with
  | nil => simp
  | cons x told ih =>
    obtain ⟨t, r⟩ := x
    rw [List.foldl_cons, ih]
    unfold file
    cases hr : r.sent? <;> simp [hr]

end Archive

namespace Pipeline

def archive (p : Pipeline) : Archive := (p.journal.landings, p.kpi.history)

/-- A call of a task leaves in the archive what its result says, if it is over. -/
def Files (t : Task) (p p' : Pipeline) (stage : Stage) : Prop :=
  p'.archive = p.archive.fileAll t stage.result?.toList

variable {p p₁ p' : Pipeline} {t : Task} {e : Event} {stage : Stage}

theorem archive_note (he : e.landing? = none) (p : Pipeline) : (p.note e).archive = p.archive := by
  have hj : (p.note e).journal.events = [e] ++ p.journal.events := rfl
  unfold archive
  rw [Journal.landings_eq hj (by simp [he])]
  rfl

theorem archive_noteAll {es : List Event} (hes : ∀ e ∈ es, e.landing? = none) (p : Pipeline) :
    (p.noteAll es).archive = p.archive := by
  unfold archive
  rw [Journal.landings_eq (events_noteAll p es)
    (by rw [List.reverse_reverse]; exact List.filterMap_eq_nil_iff.mpr hes)]
  rfl

@[simp] theorem archive_startWorkers (p : Pipeline) (workers capacity : Nat) :
    (p.startWorkers workers capacity).archive = p.archive := by
  unfold archive
  rw [journal_startWorkers, kpi_startWorkers]

theorem archive_leave {e : Event} (he : e.landing? = none) (p : Pipeline) (t : Task) :
    (p.leave t e).archive = p.archive := by
  unfold archive
  rw [Journal.landings_eq (events_leave p t e), kpi_leave]
  · split <;> rfl
  · unfold yields
    split
    · simp [he]
    · rfl

@[simp] theorem archive_withdraw (p : Pipeline) (t : Task) : (p.withdraw t).archive = p.archive :=
  archive_leave rfl (p.dropTimers t) t

@[simp] theorem archive_post (p : Pipeline) (t : Task) (aim : Aim) (url : String) (body : Octets)
    (deadline : Duration) : (p.post t aim url body deadline).1.archive = p.archive :=
  archive_note rfl _

@[simp] theorem archive_count (p : Pipeline) (c : Change) : (p.count c).archive = p.archive :=
  archive_note rfl _

/-! ### Calls -/

/-- A call of a task leaves the archive as it is, and no report of its own was sent. -/
structure Spares (p p' : Pipeline) (stage : Stage) : Prop where
  archive : p'.archive = p.archive
  unsent : ∀ r, stage = .ended r → r.sent? = none

theorem Spares.files (h : Spares p p' stage) : Files t p p' stage := by
  unfold Files
  rw [h.archive]
  cases stage with
  | ended r => simp [Stage.result?, Archive.fileAll, Archive.file, h.unsent r rfl]
  | _ => rfl

theorem Files.of_archive_eq (h : Files t p₁ p' stage) (heq : p₁.archive = p.archive) :
    Files t p p' stage := by
  unfold Files at *
  rwa [← heq]

theorem archive_deliver (p : Pipeline) (t : Task) (q : Posting) :
    (p.deliver t q).1.archive = p.archive := by
  rw [deliver_eq]
  exact archive_note rfl _

theorem sent?_deliver (p : Pipeline) (t : Task) (q : Posting) : (p.deliver t q).2.sent? = none := by
  unfold deliver
  dsimp only
  split <;> rfl

theorem spares_fallback (p : Pipeline) (t : Task) (j : Job) (deadline : Duration) :
    Spares p (p.fallback t j deadline).1 (p.fallback t j deadline).2 := by
  unfold fallback
  dsimp only
  split
  next =>
    refine ⟨?_, fun r hr => ?_⟩
    · rw [archive_deliver, archive_post]
      exact archive_note rfl _
    · cases hr
      exact sent?_deliver _ t _
  next => exact ⟨(archive_post _ _ _ _ _ _).trans (archive_note rfl _), by simp⟩

theorem spares_submit (p : Pipeline) (t : Task) (j : Job) (deadline : Duration) :
    Spares p (p.submit t j deadline).1 (p.submit t j deadline).2 := by
  have hstart : ((p.note (.submitted t j)).startWorkers 0 0).archive = p.archive :=
    (archive_startWorkers _ 0 0).trans (archive_note rfl p)
  have hfallback (line : LogEntry) :
      let p₁ := ((p.note (.submitted t j)).startWorkers 0 0).note (.logged line)
      Spares p (p₁.fallback t j deadline).1 (p₁.fallback t j deadline).2 := by
    obtain ⟨harchive, hunsent⟩ := spares_fallback
      (((p.note (.submitted t j)).startWorkers 0 0).note (.logged line)) t j deadline
    exact ⟨harchive.trans ((archive_note rfl _).trans hstart), hunsent⟩
  unfold submit
  dsimp only
  split
  next =>
    refine ⟨Eq.trans ?_ hstart, fun r hr => ?_⟩
    · exact archive_note (e := .queued t j) rfl _
    · cases hr
      rfl
  next => exact hfallback _
  next => exact hfallback _

theorem spares_proceed (p : Pipeline) (t : Task) {q : Posting} :
    Spares p (p.proceed t (.delivering q)).1 (p.proceed t (.delivering q)).2 := by
  unfold proceed
  dsimp only
  split
  next => exact ⟨archive_deliver p t q, fun r hr => by cases hr; exact sent?_deliver p t q⟩
  next => exact ⟨rfl, by simp⟩

/-- A flush that is over files its report, if it says that it was sent. -/
theorem files_land (p : Pipeline) (t : Task) (q : Posting) :
    Files t p (p.land t q).1 (.ended (p.land t q).2) := by
  have hlost {p₁ : Pipeline} {r : CallResult} (heq : p₁.archive = p.archive) (hr : r.sent? = none) :
      Files t p (p₁.leave t) (.ended r) :=
    Spares.files ⟨(archive_leave rfl p₁ t).trans heq, fun _ h => by cases h; exact hr⟩
  unfold land
  split
  next => exact hlost rfl rfl
  next f hf =>
    split
    next =>
      have hj : ({ p with kpi := p.kpi.land f }.note (.landed t f)).journal.events
          = [.landed t f] ++ p.journal.events := rfl
      unfold Files
      rw [archive_leave rfl]
      unfold archive
      rw [Journal.landings_append hj]
      rfl
    next => exact hlost (archive_note rfl p) rfl
    next => exact hlost rfl rfl

theorem files_depart (p : Pipeline) (t : Task) (url : String) :
    Files t p (p.depart t url).1 (p.depart t url).2 := by
  unfold depart
  split
  next => exact Spares.files ⟨archive_leave rfl p t, fun r hr => by cases hr; rfl⟩
  next f hf =>
    have hpost : ((p.launch t f).post t .report url
        (Record.encode f.report) p.kpi.flushTimeout).1.archive = p.archive :=
      (archive_post _ _ _ _ _ _).trans (archive_note rfl _)
    dsimp only
    split
    next => exact (files_land _ t _).of_archive_eq hpost
    next => exact Spares.files ⟨hpost, by simp⟩

theorem files_flush (p : Pipeline) (t : Task) (url : String) :
    Files t p (p.flush t url).1 (p.flush t url).2 := by
  unfold flush
  dsimp only
  split
  · exact (files_depart _ t url).of_archive_eq rfl
  · exact Spares.files ⟨rfl, by simp⟩

theorem sent?_postResult (q : Posting) : (postResult q).sent? = none := by
  unfold postResult
  split <;> rfl

theorem files_begin (p : Pipeline) (t : Task) (c : Call) :
    Files t p (p.begin t c).1 (p.begin t c).2 := by
  have hcalled : (p.note (.called t c)).archive = p.archive := archive_note rfl p
  unfold begin
  split
  next => exact Spares.files ⟨hcalled, fun r hr => by cases hr; rfl⟩
  next => exact (spares_submit _ t _ _).files.of_archive_eq hcalled
  next => exact Spares.files ⟨hcalled, fun r hr => by cases hr; rfl⟩
  next => exact (spares_submit _ t _ _).files.of_archive_eq hcalled
  next => exact (files_flush _ t _).of_archive_eq hcalled
  next url body deadline =>
    have hpost := (archive_post (p.note (.called t (.post url body deadline))) t .direct url body
      deadline).trans hcalled
    dsimp only
    split
    next => exact Spares.files ⟨hpost, fun r hr => by cases hr; exact sent?_postResult _⟩
    next => exact Spares.files ⟨hpost, by simp⟩

/-- A call that goes on files what its result says when it is over. -/
theorem files_proceed (p : Pipeline) (t : Task) (waits : stage.result? = none) :
    Files t p (p.proceed t stage).1 (p.proceed t stage).2 := by
  have hself : Files t p p stage :=
    Spares.files ⟨rfl, fun r hr => by simp [hr, Stage.result?] at waits⟩
  cases stage with
  | ended r => simp [Stage.result?] at waits
  | delivering q => exact (spares_proceed p t).files
  | posting q =>
    unfold proceed
    dsimp only
    split
    next => exact Spares.files ⟨rfl, fun r hr => by cases hr; exact sent?_postResult q⟩
    next => exact hself
  | queueing url =>
    unfold proceed
    dsimp only
    split
    next => exact files_depart p t url
    next => exact hself
  | flushing q =>
    unfold proceed
    dsimp only
    split
    next => exact files_land p t q
    next => exact hself

/-! ### Rounds and workers -/

theorem archive_notePush (p : Pipeline) (kind : Kind) (r : CallResult) (failures : Nat) :
    (p.notePush kind r failures).1.archive = p.archive := by
  unfold notePush
  split
  · rfl
  · exact archive_note rfl p
  · rfl

theorem archive_countRound (p : Pipeline) (failures : Nat) :
    (p.countRound failures).archive = p.archive := by
  unfold countRound
  dsimp only
  split <;> simp

theorem archive_pushRecords (t : Task) (c : AgentConfig) (records : List Report) (p : Pipeline)
    (failures : Nat) : (p.pushRecords t c records failures).1.archive = p.archive := by
  induction records generalizing p failures with
  | nil => exact archive_countRound p failures
  | cons r rest ih =>
    have hbegin : (p.begin t (.push (c.endpoint r.kind.path) (.ok r) c.pushTimeout)).1.archive
        = p.archive := (spares_submit _ t _ _).archive.trans (archive_note rfl p)
    unfold pushRecords
    dsimp only
    generalize p.begin t (.push (c.endpoint r.kind.path) (.ok r) c.pushTimeout) = b at hbegin ⊢
    split
    next result _ =>
      have hnote := archive_notePush b.1 r.kind result failures
      split
      next p' failures' hp =>
        rw [hp] at hnote
        exact (ih p' failures').trans (hnote.trans hbegin)
      next p' hp =>
        rw [hp] at hnote
        exact hnote.trans hbegin
    next => exact hbegin

theorem archive_beginRound (p : Pipeline) (t : Task) (g : Generator) :
    (p.beginRound t g).1.archive = p.archive :=
  archive_pushRecords t g.config (Demo.records (g.rounds + 1)) p 0

theorem archive_proceedRound (p : Pipeline) (t : Task) (c : AgentConfig) {r : Round}
    (hr : r.Small) : (p.proceedRound t c r).1.archive = p.archive := by
  obtain ⟨q, hq⟩ := hr.delivering
  have hproceed : (p.proceed t r.stage).1.archive = p.archive := by
    rw [hq]
    exact (spares_proceed p t).archive
  unfold proceedRound
  dsimp only
  generalize p.proceed t r.stage = b at hproceed ⊢
  split
  next result _ =>
    have hnote := archive_notePush b.1 r.kind result r.failures
    split
    next p' failures' hp =>
      rw [hp] at hnote
      exact (archive_pushRecords t c r.rest p' failures').trans (hnote.trans hproceed)
    next p' hp =>
      rw [hp] at hnote
      exact hnote.trans hproceed
  next => exact hproceed

theorem archive_finishJob (p : Pipeline) (w : Nat) (q : Posting) :
    (p.finishJob w q).archive = p.archive := by
  refine (archive_noteAll (fun e he => ?_) _).trans rfl
  rcases mem_finish he with rfl | ⟨l, rfl⟩ | ⟨k, crashed, rfl⟩ | rfl <;> rfl

theorem archive_seekJob (p : Pipeline) (w : Nat) : (p.seekJob w).archive = p.archive := by
  unfold seekJob
  split
  · split
    next => rfl
    next d job _ =>
      have hpost : (((({ p with dispatcher := d }.note (.taken w job)).wakeFirst
          (d.line.map .worker)).post (.worker w) .delivery job.url job.body
            d.workerTimeout).1).archive = p.archive :=
        (archive_post _ _ _ _ _ _).trans (archive_note (e := .taken w job) rfl _)
      dsimp only
      split
      next => exact (archive_finishJob _ w _).trans hpost
      next => exact hpost
  · rfl

theorem archive_workerTurn (p : Pipeline) (w : Nat) : (p.workerTurn w).archive = p.archive := by
  unfold workerTurn
  split
  · split
    next => exact (archive_seekJob _ w).trans (archive_finishJob p w _)
    next => rfl
  · exact archive_seekJob p w

end Pipeline

namespace Session

open Pipeline

variable {s s' : Session} {t : Task} {id : Nat} {f : Flusher} {stage : Stage}

/-- A task adds to the archive what it adds to its results. -/
def Files (t : Task) (s s' : Session) : Prop :=
  s'.archive = s.archive.fileAll t (Journal.fresh (s'.results t) (s.results t).length)

theorem files_of_eq (harchive : s'.archive = s.archive) (hresults : s'.results t = s.results t) :
    Files t s s' := by
  unfold Files
  rw [hresults, Journal.fresh_self]
  exact harchive

/-- The call of a task goes on or begins, and was not over before. -/
theorem files_of_stage (h : Pipeline.Files t s.toPipeline s'.toPipeline stage)
    (hbefore : s.results t = []) (hafter : s'.results t = stage.result?.toList) : Files t s s' := by
  have hreverse : stage.result?.toList.reverse = stage.result?.toList := by
    cases stage.result? <;> rfl
  unfold Files
  rw [hbefore, hafter, List.length_nil, Journal.fresh_zero, hreverse]
  exact h

theorem result?_eq_none_or (stage : Stage) : stage.result? = none ∨ ∃ r, stage = .ended r := by
  cases stage with
  | ended r => exact .inr ⟨r, rfl⟩
  | _ => exact .inl rfl

/-! ### Turns -/

theorem callerTurn_files (s : Session) (id : Nat) : Files (.caller id) s (s.callerTurn id) := by
  unfold callerTurn
  dsimp only
  split
  next c hc =>
    obtain ⟨hid, -⟩ := List.getElem?_eq_some_iff.mp hc
    exact files_of_stage (files_begin _ _ c) (by simp [results, hc, Caller.results])
      (by simp [results, hid, Caller.results])
  next stage hc =>
    obtain ⟨hid, -⟩ := List.getElem?_eq_some_iff.mp hc
    rcases result?_eq_none_or stage with waits | ⟨r, rfl⟩
    · exact files_of_stage (files_proceed _ _ waits) (by simp [results, hc, Caller.results, waits])
        (by simp [results, hid, Caller.results])
    · refine files_of_eq rfl ?_
      simp only [results, proceed, List.getElem?_set_self hid, hc, Option.map_some,
        Option.getD_some]
  next => exact files_of_eq rfl rfl

theorem archive_afterOwnRound (s : Session) (left failures : Nat) (r : RoundStage) :
    (s.afterOwnRound left failures r).archive = s.archive
      ∧ (s.afterOwnRound left failures r).operator.results = [] := by
  induction left generalizing s failures r with
  | zero => cases r <;> exact ⟨rfl, rfl⟩
  | succ left ih =>
    cases r with
    | ended more =>
      obtain ⟨harchive, hresults⟩ := ih
        { s with
          toPipeline := (s.beginRound .operator s.generator).1
          generator := (s.beginRound .operator s.generator).2.1 }
        (failures + more) (s.beginRound .operator s.generator).2.2
      exact ⟨harchive.trans (archive_beginRound _ _ _), hresults⟩
    | _ => exact ⟨rfl, rfl⟩

theorem operatorTurn_files (hs : s.Steady) : Files .operator s s.operatorTurn := by
  unfold operatorTurn
  split
  next stage ho =>
    rcases result?_eq_none_or stage with waits | ⟨r, rfl⟩
    · have hbefore : s.results .operator = [] := by simp [results, ho, Operator.results, waits]
      exact files_of_stage (files_proceed _ _ waits) hbefore rfl
    · exact files_of_eq rfl (by simp [results, ho, Operator.results, proceed])
  next r left failures ho =>
    have hsmall : r.Small := by
      have hoperator := hs.operator
      rwa [ho] at hoperator
    obtain ⟨harchive, hresults⟩ := archive_afterOwnRound
      { s with toPipeline := (s.proceedRound .operator s.generator.config r).1 } left failures
      (s.proceedRound .operator s.generator.config r).2
    refine files_of_eq (harchive.trans (archive_proceedRound _ _ _ hsmall)) ?_
    exact hresults.trans (by simp [results, ho, Operator.results])
  next => exact files_of_eq rfl rfl

theorem archive_afterRound (s : Session) (g : Generator) (next : Nat) (r : RoundStage) :
    (s.afterRound g next r).archive = s.archive := by
  cases r with
  | ended failures =>
    show (s.awaitRound g next).archive = s.archive
    obtain ⟨_, _, _, heq, -⟩ := s.awaitRound_eq g next
    rw [heq]
    rfl
  | _ => rfl

theorem archive_runRound (s : Session) (g : Generator) (due : Nat) :
    (s.runRound g due).archive = s.archive :=
  (archive_afterRound _ _ _ _).trans (archive_beginRound _ _ _)

theorem archive_generatorTurn (hs : s.Steady) : s.generatorTurn.archive = s.archive := by
  unfold generatorTurn
  dsimp only
  split
  · split
    · rfl
    · exact archive_runRound s _ _
  · split
    · exact archive_runRound s _ _
    · split <;> rfl
  next r next hstage =>
    have hsmall : r.Small := by
      have hgenerator := hs.generator
      unfold Generator.Paced at hgenerator
      rw [hstage] at hgenerator
      exact hgenerator.2
    exact (archive_afterRound _ _ _ _).trans (archive_proceedRound _ _ _ hsmall)
  · rfl
  · rfl

theorem results_setFlusher (hid : id < s.flushers.length) (f : Flusher) :
    (s.setFlusher id f).results (.flusher id) = f.results := by
  simp [results, setFlusher, hid]

theorem sleep_files (hid : id < s.flushers.length) (f : Flusher) :
    (s.sleep id f).archive = s.archive ∧ (s.sleep id f).results (.flusher id) = f.results := by
  unfold sleep
  split
  · exact ⟨rfl, results_setFlusher hid _⟩
  · exact ⟨rfl, results_setFlusher (by exact hid) _⟩

/-- A flusher adds to its results the outcome of its flush. -/
theorem afterFlush_files (hid : id < s.flushers.length)
    (hbefore : s.results (.flusher id) = f.results) {r : Pipeline × Stage}
    (hr : Pipeline.Files (.flusher id) s.toPipeline r.1 r.2) :
    Files (.flusher id) s (s.afterFlush id f r) := by
  obtain ⟨p, stage⟩ := r
  have hkeep (stage' : FlusherStage) (hr : p.archive = s.archive) :
      Files (.flusher id) s
        ({ s with toPipeline := p }.setFlusher id { f with stage := stage' }) :=
    files_of_eq hr ((results_setFlusher (by exact hid) _).trans hbefore.symm)
  cases stage with
  | ended result =>
    cases result with
    | flushed o =>
      have hlog : Flusher.results
          { f.note p.now (.ends o) with failures := if o = .failed then f.failures + 1 else 0 }
          = [.flushed o] ++ f.results := rfl
      obtain ⟨harchive, hresults⟩ := sleep_files (s := { s with toPipeline := p }) (by exact hid)
        { f.note p.now (.ends o) with failures := if o = .failed then f.failures + 1 else 0 }
      have hafter := hresults.trans hlog
      unfold Files
      rw [hbefore]
      show (sleep _ id _).archive = _
      rw [harchive]
      refine hr.trans ?_
      show _ = s.archive.fileAll _ (Journal.fresh ((sleep _ id _).results _) _)
      rw [hafter, Journal.fresh_append]
      rfl
    | _ => exact hkeep .ended hr
  | queueing url => exact hkeep (.queueing url) hr
  | flushing q => exact hkeep (.flushing q) hr
  | _ => exact hkeep .ended hr

theorem pursue_files (hf : s.flushers[id]? = some f) :
    Files (.flusher id) s (s.pursue id f) := by
  obtain ⟨hid, -⟩ := List.getElem?_eq_some_iff.mp hf
  have hbefore : s.results (.flusher id) = f.results := by simp [results, hf]
  unfold pursue
  dsimp only
  split
  next =>
    obtain ⟨harchive, hresults⟩ := sleep_files hid (f.note s.now .begins)
    exact files_of_eq harchive (hresults.trans hbefore.symm)
  next =>
    split
    next => exact afterFlush_files hid (by exact hbefore) (files_flush _ _ _)
    next => exact files_of_eq rfl rfl
  next => exact afterFlush_files hid hbefore (files_proceed _ _ rfl)
  next => exact afterFlush_files hid hbefore (files_proceed _ _ rfl)
  next => exact files_of_eq rfl rfl

theorem results_quitFlusher (s : Session) (id : Nat) :
    (s.quitFlusher id).results (.flusher id) = s.results (.flusher id) := by
  cases hf : s.flushers[id]? <;> simp [results, quitFlusher, hf, Flusher.results]

/-- A flusher that quits says no more than it did. -/
theorem Files.quitFlusher {s' : Session} (hs : Files (.flusher id) s s') :
    Files (.flusher id) s (s'.quitFlusher id) := by
  unfold Files
  rw [results_quitFlusher]
  exact (archive_withdraw _ _).trans hs

theorem flusherTurn_files (s : Session) (id : Nat) : Files (.flusher id) s (s.flusherTurn id) := by
  unfold flusherTurn
  split
  next => exact files_of_eq rfl rfl
  next f hf =>
    split
    next =>
      split
      next => exact (pursue_files hf).quitFlusher
      next => exact Files.quitFlusher (files_of_eq rfl rfl)
    next => exact pursue_files hf

theorem turn_files (hs : s.Steady) (t : Task) : Files t s (s.turn t) := by
  cases t with
  | operator => exact operatorTurn_files hs
  | caller id => exact callerTurn_files s id
  | worker w => exact files_of_eq (archive_workerTurn _ w) rfl
  | flusher id => exact flusherTurn_files s id
  | generator => exact files_of_eq (archive_generatorTurn hs) rfl

/-! ### Moves -/

theorem result?_of_flushes (flushes : stage.flushes) : stage.result? = none := by
  cases stage <;> first | rfl | cases flushes

/-- Nobody is told anything of a flush that is dropped. -/
theorem drop_files (s : Session) (t : Task) : Files t s (s.drop t) := by
  have hself : Files t s s := files_of_eq rfl rfl
  unfold drop
  split
  next =>
    split
    next stage ho =>
      split
      next flushes =>
        refine files_of_eq (archive_withdraw _ _) ?_
        simp [results, ho, Operator.results, result?_of_flushes flushes]
      next => exact hself
    next => exact hself
  next id =>
    split
    next stage hc =>
      split
      next flushes =>
        have hbefore : s.results (.caller id) = [] := by
          simp [results, hc, Caller.results, result?_of_flushes flushes]
        obtain ⟨hid, -⟩ := List.getElem?_eq_some_iff.mp hc
        refine files_of_eq (archive_withdraw _ _) (Eq.trans ?_ hbefore.symm)
        simp [results, hid, Caller.results]
      next => exact hself
    next => exact hself
  next => exact hself

theorem archive_cancelFlusher (s : Session) : s.cancelFlusher.archive = s.archive := by
  unfold cancelFlusher
  split <;> rfl

theorem start_files (free : s.operator.isFree) (op : Operation) :
    (s.start op).1.archive = (s.archive.ask op).fileAll .operator
      (Journal.fresh ((s.start op).1.results .operator) (s.results .operator).length) := by
  have hbefore : s.results .operator = [] := by
    cases ho : s.operator <;> simp_all [results, Operator.results, Operator.isFree]
  have hkeep {s' : Session} (harchive : s'.archive = s.archive)
      (hresults : s'.operator.results = []) : Files .operator s s' :=
    files_of_eq harchive (hresults.trans hbefore.symm)
  cases op with
  | call c => exact files_of_stage (files_begin _ _ c) hbefore rfl
  | join id =>
    refine hkeep ?_ ?_
    · show (s.join id).1.archive = _
      unfold join
      split <;> rfl
    · show (s.join id).1.operator.results = _
      unfold join
      split <;> exact hbefore
  | startWorkers workers capacity => exact hkeep (archive_startWorkers _ _ _) hbefore
  | adjustHistory k n => exact hkeep (archive_note (e := .adjusted k n) rfl _) hbefore
  | setCounter key x => exact hkeep (archive_count _ _) hbefore
  | addCounter key x => exact hkeep (archive_count _ _) hbefore
  | increment key => exact hkeep (archive_count _ _) hbefore
  | decrement key => exact hkeep (archive_count _ _) hbefore
  | deleteCounter key => exact hkeep (archive_count _ _) hbefore
  | adjustKpiHistory n =>
    rw [show (s.start (.adjustKpiHistory n)).1.results .operator = s.results .operator from rfl,
      Journal.fresh_self]
    rfl
  | startFlushing url =>
    refine hkeep (archive_cancelFlusher s) ?_
    rw [← hbefore]
    exact congrArg Operator.results (aside_cancelFlusher s).operator
  | stopFlushing =>
    refine hkeep (archive_cancelFlusher s) ?_
    rw [← hbefore]
    exact congrArg Operator.results (aside_cancelFlusher s).operator
  | identify i => exact hkeep (archive_note (e := .identified (i.getD s.identity)) rfl _) hbefore
  | setClock now => exact hkeep (archive_note (e := .clockMoved _) rfl _) hbefore
  | advanceClock millis => exact hkeep (archive_note (e := .clockMoved _) rfl _) hbefore
  | generate rounds =>
    show Files .operator s (s.enterRounds rounds)
    unfold enterRounds
    split
    next =>
      obtain ⟨harchive, hresults⟩ := archive_afterOwnRound s rounds 0 (.ended 0)
      exact hkeep harchive hresults
    next => exact hkeep rfl hbefore
  | startGenerator period =>
    show Files .operator s (s.startGenerator period)
    unfold startGenerator
    split <;> exact hkeep rfl hbefore
  | stopGenerator =>
    show Files .operator s s.stopGenerator
    unfold stopGenerator
    dsimp only
    split <;> exact hkeep rfl hbefore
  | _ => exact hkeep rfl hbefore

/-- A move adds to the archive the reports that it tells were sent. -/
theorem move_files (hs : s.Steady) (m : Move) :
    (s.move m).archive
      = (s.told m).foldl (fun a (t, r) => a.file t r)
          ((s.asked m).foldl Archive.ask s.archive) := by
  cases m with
  | start op =>
    simp only [told, asked, Move.task?, move, List.foldl_map]
    split
    next free => exact start_files free op
    next => rw [Journal.fresh_self]; rfl
  | collect =>
    show s.collect.1.archive = s.archive
    rw [toPipeline_collect]
  | turn t =>
    simp only [told, asked, Move.task?, move, List.foldl_map]
    split
    next => exact turn_files (s := { s with ready := s.ready.erase t }) (hs.congr rfl rfl) t
    next => rw [Journal.fresh_self]; rfl
  | elapse now =>
    exact moveTo_timeless (fun _ _ _ _ => rfl) s.toPipeline now
  | drop t =>
    simp only [told, asked, Move.task?, move, List.foldl_map]
    exact drop_files s t
  | discard =>
    have hresults : s.stopFlushing.operator.results = s.operator.results :=
      congrArg Operator.results (aside_cancelFlusher s).operator
    have hfresh : Journal.fresh (s.stopFlushing.results .operator) (s.results .operator).length
        = [] := by
      rw [results, results, hresults, Journal.fresh_self]
    simp only [told, asked, Move.task?, move, List.foldl_map, hfresh]
    exact archive_cancelFlusher s

end Session

end Uplink
