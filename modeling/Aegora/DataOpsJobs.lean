import Aegora.Interleaving
import Aegora.PyJson

/-!
# The jobs of the data operations

`run_reported_job` runs a task under one advisory lock of PostgreSQL and leaves a report of it.
The lock belongs to a session of the server: it goes with the connection, whatever the process
that had it still does. `DataOpsScheduler` runs such jobs one after the other, each at its
interval.
-/

namespace Aegora

open Py

/-! ## Reports -/

/-- A row of `data_ops_reports`. Its `started_at` is drawn with the report, so when the task is
over. -/
structure DataOpsReport where
  jobType : String
  status : String
  summary : String
  metrics : Json := .obj []
  items : Json := .arr []
  createdSkillDraftIds : Json := .arr []
  error : Option String := none
  jobId : String
  periodStart : Json := .null
  periodEnd : Json := .null
  startedAt : Int
  finishedAt : Option Int := none
deriving DecidableEq

/-- An exception, by its type and its text. -/
structure JobError where
  typeName : String
  text : String
deriving DecidableEq

/-- A call of `run_reported_job`, with the identifier that its report will draw. -/
structure ReportedJob where
  jobType : String
  summaryPrefix : String
  jobId : String
deriving DecidableEq

namespace ReportedJob

variable (job : ReportedJob)

def skipped (now : Int) : DataOpsReport where
  jobType := job.jobType
  status := "skipped"
  summary := job.summaryPrefix ++ " skipped: lock not acquired"
  metrics := .obj [("lock_acquired", .bool false)]
  jobId := job.jobId
  startedAt := now

def completed (payload : Dict) (now : Int) : DataOpsReport where
  jobType := job.jobType
  status := "completed"
  summary := job.summaryPrefix ++ " completed"
  metrics := (Dict.get? payload "metrics").getD (.obj payload)
  items := (Dict.get? payload "items").getD (.arr [])
  createdSkillDraftIds := (Dict.get? payload "created_skill_draft_ids").getD (.arr [])
  jobId := job.jobId
  periodStart := Dict.get payload "period_start"
  periodEnd := Dict.get payload "period_end"
  startedAt := now

def failed (error : JobError) (now : Int) : DataOpsReport where
  jobType := job.jobType
  status := "failed"
  summary := job.summaryPrefix ++ " failed"
  metrics := .obj [("lock_acquired", .bool true)]
  error := some (String.ofList ((error.typeName ++ ": " ++ error.text).toList.take 4000))
  jobId := job.jobId
  startedAt := now

/-- The report on what the task did, or on its not having run. -/
def report : Option (Except JobError Dict) → Int → DataOpsReport
  | none, now => job.skipped now
  | some (.ok payload), now => job.completed payload now
  | some (.error error), now => job.failed error now

end ReportedJob

/-- `INSERT … ON CONFLICT (job_id) DO UPDATE` keeps the type, the period and the start. -/
def upsertReport (reports : List DataOpsReport) (report : DataOpsReport) : List DataOpsReport :=
  if reports.any fun row => row.jobId = report.jobId then
    reports.map fun row =>
      if row.jobId = report.jobId then
        { report with
          jobType := row.jobType
          periodStart := row.periodStart
          periodEnd := row.periodEnd
          startedAt := row.startedAt }
      else row
  else reports ++ [report]

/-- `save_report`. -/
def saveReport (reports : List DataOpsReport) (report : DataOpsReport) (now : Int) :
    DataOpsReport × List DataOpsReport :=
  let report := { report with finishedAt := some (report.finishedAt.getD now) }
  (report, upsertReport reports report)

/-! ## Calls of `run_reported_job` -/

/-- How far a call is. From `working` to `leaving` it is inside `advisory_job_lock`. -/
inductive JobPhase where
  | waiting
  | working
  | reporting (report : DataOpsReport) (raises : Option JobError)
  | leaving (saved : Option DataOpsReport) (raises : Option JobError)
  | ended (saved : Option DataOpsReport) (raises : Option JobError)
  | killed (saved : Option DataOpsReport)

/-- A call, with what its task did, and whether the lock was acquired and the session that asked
for it stands. -/
structure JobCall where
  job : ReportedJob
  phase : JobPhase := .waiting
  outcome : Option (Except JobError Dict) := none
  acquired : Bool := false
  connected : Bool := true

/-- The process is inside the `with` block. -/
def JobPhase.inside : JobPhase → Bool
  | .working | .reporting .. | .leaving .. => true
  | _ => false

/-- The report that the call has saved. -/
def JobPhase.saved : JobPhase → Option DataOpsReport
  | .leaving saved _ | .ended saved _ | .killed saved => saved
  | _ => none

/-- The server holds the lock for the session of the call. -/
def JobCall.holds (c : JobCall) : Bool := c.acquired && c.connected && c.phase.inside

/-- The sessions of the server, by the call that has the lock, and the reports. -/
structure JobSystem where
  holder : Option Nat := none
  reports : List DataOpsReport := []
  calls : List JobCall := []

inductive JobMove where
  | connectFails (error : JobError)
  | tryLock (now : Int)
  | finish (now : Int) (outcome : Except JobError Dict)
  | save (now : Int)
  | saveFails (error : JobError)
  | unlock (error : JobError)
  | loseConnection
  | kill

/-- What a move leaves: the holder of the lock, the reports, the call. -/
structure JobMoved where
  holder : Option Nat
  reports : List DataOpsReport
  call : JobCall

/-- The call after its report, when it had the lock and when it had not. -/
def JobCall.reported (c : JobCall) (saved : Option DataOpsReport) (raises : Option JobError) :
    JobCall :=
  { c with phase := if c.acquired then .leaving saved raises else .ended saved raises }

/-- One thing that happens to call `i`. Without its session the unlock raises, and there is
nothing to unlock. -/
def JobCall.move (s : JobSystem) (i : Nat) (c : JobCall) : JobMove → Option JobMoved
  | .connectFails error =>
      match c.phase with
      | .waiting => some ⟨s.holder, s.reports, { c with phase := .ended none (some error) }⟩
      | _ => none
  | .tryLock now =>
      match c.phase, s.holder with
      | .waiting, none =>
          some ⟨some i, s.reports, { c with phase := .working, acquired := true }⟩
      | .waiting, some holder =>
          some ⟨some holder, s.reports, { c with phase := .reporting (c.job.skipped now) none }⟩
      | _, _ => none
  | .finish now outcome =>
      match c.phase with
      | .working =>
          let raises := match outcome with
            | .ok _ => none
            | .error error => some error
          some ⟨s.holder, s.reports, { c with
            phase := .reporting (c.job.report (some outcome) now) raises
            outcome := some outcome }⟩
      | _ => none
  | .save now =>
      match c.phase with
      | .reporting report raises =>
          let (saved, reports) := saveReport s.reports report now
          some ⟨s.holder, reports, c.reported (some saved) raises⟩
      | _ => none
  | .saveFails error =>
      match c.phase with
      | .reporting _ _ => some ⟨s.holder, s.reports, c.reported none (some error)⟩
      | _ => none
  | .unlock error =>
      match c.phase with
      | .leaving saved raises =>
          if c.connected then some ⟨none, s.reports, { c with phase := .ended saved raises }⟩
          else some ⟨s.holder, s.reports, { c with phase := .ended saved (some error) }⟩
      | _ => none
  | .loseConnection =>
      if c.holds then some ⟨none, s.reports, { c with connected := false }⟩ else none
  | .kill =>
      match c.phase with
      | .ended _ _ | .killed _ => none
      | phase => some ⟨if c.holds then none else s.holder, s.reports,
          { c with phase := .killed phase.saved }⟩

inductive JobAction where
  | arrive (job : ReportedJob)
  | move (i : Nat) (move : JobMove)

/-- A process calls `run_reported_job`, with an identifier of its own, or something happens to a
call. -/
def jobStep (s : JobSystem) : JobAction → Option JobSystem
  | .arrive job =>
      if s.calls.any fun c => c.job.jobId = job.jobId then none
      else some { s with calls := s.calls ++ [{ job := job }] }
  | .move i move => do
      let c ← s.calls[i]?
      let moved ← c.move s i move
      return { holder := moved.holder
               reports := moved.reports
               calls := s.calls.set i moved.call }

/-! ## What a call leaves -/

/-- The exception of the task, if it raised. -/
def raisedBy : Option (Except JobError Dict) → Option JobError
  | some (.error error) => some error
  | _ => none

/-- The report is the one on what the task did, and it is finished. -/
def JobCall.Reports (c : JobCall) (report : DataOpsReport) : Prop :=
  ∃ started finished,
    report = { c.job.report c.outcome started with finishedAt := some finished }

/-- What holds of a call, by its phase. -/
def JobCall.Accounted (c : JobCall) : Prop :=
  match c.phase with
  | .waiting => c.acquired = false ∧ c.connected = true ∧ c.outcome = none
  | .working => c.acquired = true ∧ c.outcome = none
  | .reporting report raises =>
      (c.acquired = true ↔ c.outcome ≠ none) ∧ raises = raisedBy c.outcome
        ∧ ∃ now, report = c.job.report c.outcome now
  | .leaving saved raises =>
      c.acquired = true ∧ (∀ report ∈ saved, c.Reports report)
        ∧ (raises = none → saved.isSome ∧ raisedBy c.outcome = none)
  | .ended saved raises =>
      (∀ report ∈ saved, c.Reports report)
        ∧ (raises = none → saved.isSome ∧ raisedBy c.outcome = none)
  | .killed saved => ∀ report ∈ saved, c.Reports report

section Move

variable {s : JobSystem} {i : Nat} {c : JobCall} {move : JobMove} {moved : JobMoved}

@[simp] theorem job_report_jobId (job : ReportedJob) (outcome : Option (Except JobError Dict))
    (now : Int) : (job.report outcome now).jobId = job.jobId := by
  rcases outcome with _ | error | payload <;> rfl

theorem JobCall.Reports.jobId {report : DataOpsReport} (h : c.Reports report) :
    report.jobId = c.job.jobId := by
  obtain ⟨started, finished, rfl⟩ := h
  exact job_report_jobId c.job c.outcome started

/-- What a move does to the lock. -/
inductive JobMoved.Locks (s : JobSystem) (i : Nat) (c : JobCall) (moved : JobMoved) : Prop where
  | same (holder : moved.holder = s.holder) (holds : moved.call.holds = c.holds)
  | acquired (free : s.holder = none) (holder : moved.holder = some i)
      (holds : moved.call.holds = true)
  | freed (held : c.holds = true) (holder : moved.holder = none)
      (holds : moved.call.holds = false)

/-- What a move does to the reports. -/
inductive JobMoved.Files (s : JobSystem) (c : JobCall) (moved : JobMoved) : Prop where
  | same (reports : moved.reports = s.reports) (saved : moved.call.phase.saved = c.phase.saved)
  | filed (report : DataOpsReport) (fresh : c.phase.saved = none)
      (saved : moved.call.phase.saved = some report) (jobId : report.jobId = c.job.jobId)
      (reports : moved.reports = upsertReport s.reports report)

@[simp] theorem saved_reported (saved : Option DataOpsReport) (raises : Option JobError) :
    (c.reported saved raises).phase.saved = saved := by
  unfold JobCall.reported
  cases c.acquired <;> rfl

theorem accounted_reported {saved : Option DataOpsReport} {raises : Option JobError}
    (hsaved : ∀ report ∈ saved, c.Reports report)
    (hraises : raises = none → saved.isSome ∧ raisedBy c.outcome = none) :
    (c.reported saved raises).Accounted := by
  unfold JobCall.reported
  cases c.acquired with
  | true => exact ⟨rfl, hsaved, hraises⟩
  | false => exact ⟨hsaved, hraises⟩

/-- Whoever has the lock after its report keeps it until it leaves. -/
theorem holds_reported {report : DataOpsReport} {raised : Option JobError}
    (hphase : c.phase = .reporting report raised) (saved : Option DataOpsReport)
    (raises : Option JobError) : (c.reported saved raises).holds = c.holds := by
  unfold JobCall.reported JobCall.holds
  rw [hphase]
  cases c.acquired <;> rfl

theorem JobCall.Accounted.reports (h : c.Accounted) {report : DataOpsReport}
    (hsaved : c.phase.saved = some report) : c.Reports report := by
  unfold JobCall.Accounted at h
  cases hphase : c.phase <;> rw [hphase] at h hsaved
  case waiting | working | reporting => cases hsaved
  case leaving => exact h.2.1 report hsaved
  case ended => exact h.1 report hsaved
  case killed => exact h report hsaved

/-- A move keeps what the call is for, and says what becomes of the lock and of the report. -/
structure JobMoved.Spec (s : JobSystem) (i : Nat) (c : JobCall) (moved : JobMoved) : Prop where
  job : moved.call.job = c.job
  accounted : moved.call.Accounted
  locks : moved.Locks s i c
  files : moved.Files s c

/-- Without a session there is no lock and no report. -/
theorem move_connect_fails {error : JobError} (hacc : c.Accounted)
    (h : c.move s i (.connectFails error) = some moved) : moved.Spec s i c := by
  simp only [JobCall.move] at h
  split at h
  · rename_i hphase
    cases h
    simp only [JobCall.Accounted, hphase] at hacc
    obtain ⟨hacquired, hconnected, houtcome⟩ := hacc
    refine ⟨rfl, ⟨nofun, nofun⟩, .same rfl ?_, .same rfl ?_⟩
    · simp [JobCall.holds, hacquired]
    · rw [hphase]
      rfl
  · cases h

/-- `pg_try_advisory_lock`: only a free lock is given, and who does not get it reports that it
skipped. -/
theorem move_try_lock {now : Int} (hacc : c.Accounted)
    (h : c.move s i (.tryLock now) = some moved) : moved.Spec s i c := by
  simp only [JobCall.move] at h
  split at h
  · rename_i hphase hholder
    cases h
    simp only [JobCall.Accounted, hphase] at hacc
    obtain ⟨hacquired, hconnected, houtcome⟩ := hacc
    refine ⟨rfl, ⟨rfl, houtcome⟩, .acquired hholder rfl ?_, .same rfl ?_⟩
    · simp [JobCall.holds, JobPhase.inside, hconnected]
    · rw [hphase]
      rfl
  · rename_i hphase hholder
    cases h
    simp only [JobCall.Accounted, hphase] at hacc
    obtain ⟨hacquired, hconnected, houtcome⟩ := hacc
    refine ⟨rfl, ⟨by simp [hacquired, houtcome], by simp [houtcome, raisedBy], now, ?_⟩,
      .same hholder.symm ?_, .same rfl ?_⟩
    · simp [houtcome, ReportedJob.report]
    · simp [JobCall.holds, hacquired]
    · rw [hphase]
      rfl
  · cases h

/-- The task is over, and the lock is kept for the report. -/
theorem move_finish {now : Int} {outcome : Except JobError Dict} (hacc : c.Accounted)
    (h : c.move s i (.finish now outcome) = some moved) : moved.Spec s i c := by
  simp only [JobCall.move] at h
  split at h
  · rename_i hphase
    cases h
    have hwork : c.acquired = true ∧ c.outcome = none := by
      simpa only [JobCall.Accounted, hphase] using hacc
    refine ⟨rfl, ⟨by simp [hwork.1], ?_, now, rfl⟩, .same rfl ?_, .same rfl ?_⟩
    · cases outcome <;> rfl
    · simp [JobCall.holds, JobPhase.inside, hphase]
    · rw [hphase]
      rfl
  · cases h

/-- The report that is saved tells what the task did. -/
theorem move_save {now : Int} (hacc : c.Accounted)
    (h : c.move s i (.save now) = some moved) : moved.Spec s i c := by
  simp only [JobCall.move] at h
  split at h
  · rename_i report raises hphase
    cases h
    simp only [JobCall.Accounted, hphase] at hacc
    obtain ⟨hacquired, hraises, started, hreport⟩ := hacc
    have hreports : c.Reports (saveReport s.reports report now).1 := by
      refine ⟨started, report.finishedAt.getD now, ?_⟩
      rw [← hreport]
      rfl
    refine ⟨rfl, accounted_reported ?_ ?_, .same rfl (holds_reported hphase _ _), ?_⟩
    · rintro _ ⟨⟩
      exact hreports
    · exact fun hnone => ⟨rfl, hraises ▸ hnone⟩
    · refine .filed _ ?_ (saved_reported _ _) hreports.jobId rfl
      rw [hphase]
      rfl
  · cases h

theorem move_save_fails {error : JobError}
    (h : c.move s i (.saveFails error) = some moved) : moved.Spec s i c := by
  simp only [JobCall.move] at h
  split at h
  · rename_i report raises hphase
    cases h
    refine ⟨rfl, accounted_reported nofun nofun, .same rfl (holds_reported hphase _ _),
      .same rfl ?_⟩
    rw [saved_reported, hphase]
    rfl
  · cases h

/-- `pg_advisory_unlock`, which finds the lock gone when the session was lost. -/
theorem move_unlock {error : JobError} (hacc : c.Accounted)
    (h : c.move s i (.unlock error) = some moved) : moved.Spec s i c := by
  simp only [JobCall.move] at h
  split at h
  · rename_i saved raises hphase
    simp only [JobCall.Accounted, hphase] at hacc
    split at h
    · rename_i hconnected
      cases h
      refine ⟨rfl, ⟨hacc.2.1, hacc.2.2⟩, .freed ?_ rfl ?_, .same rfl ?_⟩
      · simp [JobCall.holds, JobPhase.inside, hphase, hacc.1, hconnected]
      · simp [JobCall.holds, JobPhase.inside]
      · rw [hphase]
        rfl
    · rename_i hconnected
      cases h
      refine ⟨rfl, ⟨hacc.2.1, nofun⟩, .same rfl ?_, .same rfl ?_⟩
      · simp [JobCall.holds, hconnected]
      · rw [hphase]
        rfl
  · cases h

/-- A lost session loses the lock; the call goes on. -/
theorem move_lose_connection (hacc : c.Accounted)
    (h : c.move s i .loseConnection = some moved) : moved.Spec s i c := by
  simp only [JobCall.move] at h
  split at h
  · rename_i hholds
    cases h
    refine ⟨rfl, ?_, .freed hholds rfl ?_, .same rfl rfl⟩
    · obtain ⟨job, phase, outcome, acquired, connected⟩ := c
      cases phase with
      | waiting => simp [JobCall.holds, JobPhase.inside] at hholds
      | _ => exact hacc
    · simp [JobCall.holds]
  · cases h

/-- A killed call loses its session and saves nothing more. -/
theorem move_kill (hacc : c.Accounted)
    (h : c.move s i .kill = some moved) : moved.Spec s i c := by
  simp only [JobCall.move] at h
  split at h
  · cases h
  · cases h
  · cases h
    refine ⟨rfl, fun _ hsaved => hacc.reports hsaved, ?_, .same rfl rfl⟩
    by_cases hholds : c.holds = true
    · refine .freed hholds (if_pos hholds) ?_
      simp [JobCall.holds, JobPhase.inside]
    · refine .same (if_neg hholds) ?_
      rw [Bool.not_eq_true] at hholds
      rw [hholds]
      simp [JobCall.holds, JobPhase.inside]

theorem job_move_spec (hacc : c.Accounted) (h : c.move s i move = some moved) :
    moved.Spec s i c := by
  cases move with
  | connectFails _ => exact move_connect_fails hacc h
  | tryLock _ => exact move_try_lock hacc h
  | finish _ _ => exact move_finish hacc h
  | save _ => exact move_save hacc h
  | saveFails _ => exact move_save_fails h
  | unlock _ => exact move_unlock hacc h
  | loseConnection => exact move_lose_connection hacc h
  | kill => exact move_kill hacc h

end Move

/-! ## All calls -/

/-- What holds of the lock, the reports and the calls at any time. -/
structure JobsAccounted (s : JobSystem) : Prop where
  ids : (s.calls.map fun c => c.job.jobId).Nodup
  holder : ∀ i, s.holder = some i ↔ ∃ c, s.calls[i]? = some c ∧ c.holds = true
  reports : s.reports.Perm (s.calls.filterMap fun c => c.phase.saved)
  calls : ∀ c ∈ s.calls, c.Accounted

section System

variable {s s' : JobSystem}

theorem jobsAccounted_arrive {job : ReportedJob} (h : JobsAccounted s)
    (hnew : ∀ c ∈ s.calls, c.job.jobId ≠ job.jobId) :
    JobsAccounted { s with calls := s.calls ++ [{ job := job }] } where
  ids := by
    rw [List.map_append, List.nodup_append]
    refine ⟨h.ids, List.nodup_singleton _, fun a ha b hb hab => ?_⟩
    obtain ⟨c, hc, rfl⟩ := List.mem_map.mp ha
    exact hnew c hc (hab.trans (List.mem_singleton.mp hb))
  holder := by
    intro i
    rw [h.holder i]
    constructor
    · rintro ⟨c, hc, hholds⟩
      exact ⟨c, (List.getElem?_append_left (List.getElem?_eq_some_iff.mp hc).1).trans hc, hholds⟩
    · rintro ⟨c, hc, hholds⟩
      rw [List.getElem?_append] at hc
      split at hc
      · exact ⟨c, hc, hholds⟩
      · have hlast := List.mem_singleton.mp (List.mem_of_getElem? hc)
        rw [hlast] at hholds
        cases hholds
  reports := by
    rw [List.filterMap_append]
    exact (List.append_nil (s.calls.filterMap fun c => c.phase.saved)).symm ▸ h.reports
  calls := by
    intro c hc
    rcases List.mem_append.mp hc with hold | hnew
    · exact h.calls c hold
    · rw [List.mem_singleton.mp hnew]
      exact ⟨rfl, rfl, rfl⟩

/-- Who holds the lock after a move. -/
theorem holder_move {i : Nat} {c : JobCall} {moved : JobMoved} (hc : s.calls[i]? = some c)
    (hholder : ∀ j, s.holder = some j ↔ ∃ d, s.calls[j]? = some d ∧ d.holds = true)
    (hlocks : moved.Locks s i c) (j : Nat) : moved.holder = some j
      ↔ ∃ d, (s.calls.set i moved.call)[j]? = some d ∧ d.holds = true := by
  have hlength := (List.getElem?_eq_some_iff.mp hc).1
  by_cases hij : i = j
  · subst hij
    rw [List.getElem?_set_self hlength]
    simp only [Option.some.injEq, exists_eq_left']
    have hself : s.holder = some i ↔ c.holds = true := by simp [hholder i, hc]
    cases hlocks with
    | same holder holds => rw [holder, holds, hself]
    | acquired free holder holds => simp [holder, holds]
    | freed held holder holds => simp [holder, holds]
  · rw [List.getElem?_set_ne hij, ← hholder j]
    cases hlocks with
    | same holder holds => rw [holder]
    | acquired free holder holds => simp [holder, free, hij]
    | freed held holder holds =>
        have hself : s.holder = some i := (hholder i).mpr ⟨c, hc, held⟩
        simp [holder, hself, hij]

/-- A report that a call files is not there yet. -/
theorem upsertReport_fresh {i : Nat} {c : JobCall} {report : DataOpsReport} (h : JobsAccounted s)
    (hc : s.calls[i]? = some c) (hfresh : c.phase.saved = none)
    (hid : report.jobId = c.job.jobId) :
    upsertReport s.reports report = s.reports ++ [report] := by
  unfold upsertReport
  rw [if_neg]
  intro hany
  obtain ⟨row, hrow, hsame⟩ := List.any_eq_true.mp hany
  rw [decide_eq_true_eq, hid] at hsame
  obtain ⟨d, hd, hsaved⟩ := List.mem_filterMap.mp (h.reports.mem_iff.mp hrow)
  have hcd : d = c := by
    refine List.inj_on_of_nodup_map h.ids hd (List.mem_of_getElem? hc) ?_
    rw [← hsame]
    exact ((h.calls d hd).reports hsaved).jobId.symm
  rw [hcd, hfresh] at hsaved
  cases hsaved

theorem jobsAccounted_move {i : Nat} {c : JobCall} {move : JobMove} {moved : JobMoved}
    (h : JobsAccounted s) (hc : s.calls[i]? = some c) (hmove : c.move s i move = some moved) :
    JobsAccounted
      { holder := moved.holder, reports := moved.reports, calls := s.calls.set i moved.call } := by
  have hmem := List.mem_of_getElem? hc
  obtain ⟨hjob, hacc, hlocks, hfiles⟩ := job_move_spec (h.calls c hmem) hmove
  refine ⟨?_, holder_move hc h.holder hlocks, ?_, fun d hd => ?_⟩
  · have hids := Interleaved.map_set_of_eq (f := fun c : JobCall => c.job.jobId) hc
      (congrArg ReportedJob.jobId hjob)
    exact hids.symm ▸ h.ids
  · dsimp only
    rw [List.filterMap_eq_flatMap_toList]
    have hbefore := h.reports
    rw [List.filterMap_eq_flatMap_toList] at hbefore
    cases hfiles with
    | same reports saved =>
        have hsame : moved.call.phase.saved.toList = c.phase.saved.toList ++ [] := by
          rw [saved, List.append_nil]
        have hset := Interleaved.perm_flatMap_set
          (f := fun c : JobCall => c.phase.saved.toList) hc hsame
        rw [List.append_nil] at hset
        rw [reports]
        exact hbefore.trans hset.symm
    | filed report fresh saved jobId reports =>
        rw [reports, upsertReport_fresh h hc fresh jobId]
        refine (hbefore.append_right [report]).trans ?_
        refine (Interleaved.perm_flatMap_set hc ?_).symm
        rw [saved, fresh]
        rfl
  · rcases List.mem_or_eq_of_mem_set hd with hold | rfl
    · exact h.calls d hold
    · exact hacc

theorem jobsAccounted_step {action : JobAction} (h : JobsAccounted s)
    (hstep : jobStep s action = some s') : JobsAccounted s' := by
  cases action with
  | arrive job =>
      simp only [jobStep] at hstep
      split at hstep
      · cases hstep
      · rename_i hnew
        cases hstep
        refine jobsAccounted_arrive h fun c hc hid => hnew ?_
        exact List.any_eq_true.mpr ⟨c, hc, decide_eq_true hid⟩
  | move i move =>
      obtain ⟨c, hc, hstep⟩ := Option.bind_eq_some_iff.mp hstep
      obtain ⟨moved, hmove, hstep⟩ := Option.bind_eq_some_iff.mp hstep
      cases hstep
      exact jobsAccounted_move h hc hmove

theorem jobsAccounted_run {actions : List JobAction} (h : Runs.run jobStep {} actions = some s) :
    JobsAccounted s := by
  refine Runs.run_invariant' (fun _ _ _ hs hstep => jobsAccounted_step hs hstep) ?_ h
  refine ⟨List.nodup_nil, fun i => ?_, List.Perm.refl _, fun c hc => (nomatch hc)⟩
  constructor
  · exact fun h => (nomatch h)
  · rintro ⟨c, hc, -⟩
    cases hc

/-- In every order of what happens to any number of calls: no two tasks run whose sessions stand,
the lock is free once nobody is inside, the reports are those that the calls saved, one for each,
on what its task did, and a call that returned has saved one and its task did not raise. -/
theorem data_ops_jobs {actions : List JobAction} (h : Runs.run jobStep {} actions = some s) :
    (∀ (i j : Nat) (c d : JobCall), s.calls[i]? = some c → s.calls[j]? = some d →
        c.phase = .working → c.connected = true → d.phase = .working → d.connected = true → i = j)
      ∧ ((∀ c ∈ s.calls, c.phase.inside = false) → s.holder = none)
      ∧ s.reports.Perm (s.calls.filterMap fun c => c.phase.saved)
      ∧ ∀ c ∈ s.calls, (∀ report, c.phase.saved = some report → ∃ (started finished : Int),
          report = { c.job.report c.outcome started with finishedAt := some finished })
        ∧ ∀ saved, c.phase = .ended saved none → saved.isSome ∧ raisedBy c.outcome = none := by
  have hjobs := jobsAccounted_run h
  have hlock : ∀ i c, s.calls[i]? = some c → c.phase = .working → c.connected = true →
      s.holder = some i := by
    intro i c hc hphase hconnected
    have hacc := hjobs.calls c (List.mem_of_getElem? hc)
    simp only [JobCall.Accounted, hphase] at hacc
    refine (hjobs.holder i).mpr ⟨c, hc, ?_⟩
    simp [JobCall.holds, JobPhase.inside, hphase, hacc.1, hconnected]
  refine ⟨fun i j c d hc hd hcwork hcalive hdwork hdalive => ?_, fun hall => ?_, hjobs.reports,
    fun c hc => ⟨fun report hsaved => (hjobs.calls c hc).reports hsaved, fun saved hphase => ?_⟩⟩
  · exact Option.some.inj ((hlock i c hc hcwork hcalive).symm.trans (hlock j d hd hdwork hdalive))
  · refine Option.eq_none_iff_forall_ne_some.mpr fun i hholder => ?_
    obtain ⟨c, hc, hholds⟩ := (hjobs.holder i).mp hholder
    unfold JobCall.holds at hholds
    rw [hall c (List.mem_of_getElem? hc), Bool.and_false] at hholds
    cases hholds
  · have hacc := hjobs.calls c hc
    simp only [JobCall.Accounted, hphase] at hacc
    exact hacc.2 trivial

end System

section Example

def syncJob : ReportedJob := ⟨"sync_content", "sync-content content=all", "4f1c"⟩

def embedJob : ReportedJob :=
  ⟨"embed_pending", "embed-pending content=all retry_failed=False", "a07e"⟩

/-- The second call finds the lock taken, and the task of the first raises. -/
def twoJobs : List JobAction :=
  [.arrive syncJob, .move 0 (.tryLock 1), .arrive embedJob, .move 1 (.tryLock 2),
    .move 1 (.save 3), .move 0 (.finish 4 (.error ⟨"RuntimeError", "Strapi 503"⟩)),
    .move 0 (.save 5), .move 0 (.unlock ⟨"OperationalError", "the connection is closed"⟩)]

theorem data_ops_jobs_two : ∃ s, Runs.run jobStep {} twoJobs = some s ∧ s.holder = none
    ∧ s.reports.map DataOpsReport.status = ["skipped", "failed"] := by
  refine ⟨_, rfl, ?_, rfl⟩
  exact (@data_ops_jobs _ twoJobs rfl).2.1 (by decide)

end Example

end Aegora
