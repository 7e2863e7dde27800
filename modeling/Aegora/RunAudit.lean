import Mathlib.Data.List.Perm.Basic
import Aegora.ControlPlaneDb
import Aegora.GatewayReplies
import Aegora.Interleaving

/-!
# The audit trail of the runs

Requests that run an agent, with decisions on approvals between their
statements. Each request creates its row, lets the runner work, writes the
tool calls one by one and closes the row; every statement may fail, and a
process may stop at any point. Whatever the order, a row is what its audit
trail says (`Replayed`), the tool calls that were written are those of the
requests, none twice and none of another (`Audited.toolCalls`), and a row
stays open only for a request that still works, stopped, or met a failing
database (`run_audited`).
-/

namespace Aegora

open Py Runs

/-! ## Requests -/

/-- A row of `tool_call_logs`. -/
structure ToolCallLog where
  agentId : Option String
  toolId : String
  result : String
deriving DecidableEq

/-- What `run_agent`, `run_agent_release` and `run` create a row from; `run` has no agent. -/
structure RunJob where
  runId : String
  message : String
  agentId : Option String := none
  actorId : Option String := none

/-- Where a request stands. -/
inductive RunPhase where
  /-- before `create_run` -/
  | accepting
  /-- raised before there was a row -/
  | refused (failure : HttpFailure)
  /-- the runner works -/
  | executing
  /-- the runner raised; before `update_run(run_id, "failed", …)` -/
  | failing (error : String)
  /-- in `persist_agent_run_result`, with the tool calls that are left -/
  | logging (reply : GatewayReply) (logged rest : List ToolCallTrace)
  | answered (reply : GatewayReply)
  /-- answered with status 502; `recorded` when the row was closed before -/
  | failed (error : String) (recorded : Bool)
  /-- answered with status 503, "审计日志写入失败" -/
  | unrecorded (logged : List ToolCallTrace)
  | crashed (started : Bool) (logged : List ToolCallTrace)

structure RunHandler where
  job : RunJob
  phase : RunPhase := .accepting

/-- The tool calls that the request has written. -/
def RunPhase.logged : RunPhase → List ToolCallTrace
  | .logging _ logged _ | .unrecorded logged | .crashed _ logged => logged
  | .answered reply => reply.toolCalls
  | _ => []

/-- There is a row, and the request has not closed it. -/
def RunPhase.owes : RunPhase → Bool
  | .executing | .failing _ | .logging .. | .failed _ false | .unrecorded _
  | .crashed true _ => true
  | _ => false

/-- The request has created its row. -/
def RunPhase.started : RunPhase → Bool
  | .accepting | .refused _ | .crashed false _ => false
  | _ => true

/-- The row that `record_tool_call` writes. -/
def RunJob.toolCallLog (job : RunJob) (trace : ToolCallTrace) : ToolCallLog :=
  ⟨job.agentId, trace.toolId, trace.status ++ ": " ++ trace.result⟩

def RunHandler.logged (h : RunHandler) : List ToolCallLog := h.phase.logged.map h.job.toolCallLog

/-! ## Steps -/

/-- What a request does next. -/
inductive RunMove where
  | refuse (failure : HttpFailure)
  | create
  | execute (outcome : Except String GatewayReply)
  | log
  | close (now : Nat)
  | databaseFails
  | crash

/-- What a move leaves: the tables, the tool calls that it wrote, the phase. -/
structure RunMoved where
  tables : RunTables
  wrote : List ToolCallLog := []
  phase : RunPhase

/-- One statement of a request, or one call of the runner. -/
def RunHandler.move (tables : RunTables) (h : RunHandler) : RunMove → Option RunMoved
  | .refuse failure =>
      match h.phase with
      | .accepting => some { tables := tables, phase := .refused failure }
      | _ => none
  | .create =>
      match h.phase with
      | .accepting =>
          match createRun tables h.job.runId h.job.message h.job.agentId h.job.actorId with
          | some tables' => some { tables := tables', phase := .executing }
          | none => some { tables := tables, phase := .refused databaseFailure }
      | _ => none
  | .execute outcome =>
      match h.phase, outcome with
      | .executing, .ok reply =>
          some { tables := tables, phase := .logging reply [] reply.toolCalls }
      | .executing, .error error => some { tables := tables, phase := .failing error }
      | _, _ => none
  | .log =>
      match h.phase with
      | .logging reply logged (trace :: rest) => some
          { tables := tables
            wrote := [h.job.toolCallLog trace]
            phase := .logging reply (logged ++ [trace]) rest }
      | _ => none
  | .close now =>
      match h.phase with
      | .logging reply logged [] =>
          match updateRun tables now h.job.runId reply.status (some reply.answer) none with
          | some tables' => some { tables := tables', phase := .answered reply }
          | none => some { tables := tables, phase := .unrecorded logged }
      | .failing error =>
          match updateRun tables now h.job.runId "failed" none (some error) with
          | some tables' => some { tables := tables', phase := .failed error true }
          | none => some { tables := tables, phase := .failed error false }
      | _ => none
  | .databaseFails =>
      match h.phase with
      | .accepting => some { tables := tables, phase := .refused databaseFailure }
      | .logging _ logged _ => some { tables := tables, phase := .unrecorded logged }
      | .failing error => some { tables := tables, phase := .failed error false }
      | _ => none
  | .crash =>
      match h.phase with
      | .accepting | .executing | .failing _ | .logging .. =>
          some { tables := tables, phase := .crashed h.phase.started h.phase.logged }
      | _ => none

structure RunSystem where
  tables : RunTables := {}
  toolCallLogs : List ToolCallLog := []
  handlers : List RunHandler := []

inductive RunAction where
  | arrive (job : RunJob)
  | move (i : Nat) (move : RunMove)
  /-- the Runtime answered a decision on an approval -/
  | decide (now : Nat) (response : Dict)

/-- One step of one request, or a decision. -/
def runStep (dumps : Json → String) (s : RunSystem) : RunAction → Option RunSystem
  | .arrive job => some { s with handlers := s.handlers ++ [{ job := job }] }
  | .move i move => do
      let h ← s.handlers[i]?
      let moved ← h.move s.tables move
      return { tables := moved.tables
               toolCallLogs := s.toolCallLogs ++ moved.wrote
               handlers := s.handlers.set i { h with phase := moved.phase } }
  | .decide now response =>
      match decideGatewayApproval dumps s.tables now response with
      | some (_, tables) => some { s with tables := tables }
      | none => some s

/-! ## The trail of a row -/

/-- The audit rows of a run. -/
def RunTables.trail (t : RunTables) (runId : String) : List AuditLogRow :=
  t.auditLogs.filter fun log => log.runId = runId

/-- The row is what its trail says: accepted and running, or as the last event left it. -/
def Replayed (row : AgentRunRow) (trail : List AuditLogRow) : Prop :=
  ∃ events, trail = ⟨row.runId, "run_started", "run accepted"⟩ :: events ∧
    match events.getLast? with
    | none => row.status = "running" ∧ row.answer = none ∧ row.error = none
        ∧ row.completedAt = none
    | some event => event.eventType = "run_" ++ row.status
        ∧ event.detail = (if row.error.getD "" = "" then "run completed" else row.error.getD "")
        ∧ row.completedAt.isSome

/-- Each row has its trail, and no audit row is without one. -/
structure RunTables.Consistent (t : RunTables) : Prop where
  ids : (t.agentRuns.map AgentRunRow.runId).Nodup
  rows : ∀ row ∈ t.agentRuns, Replayed row (t.trail row.runId)
  logs : ∀ log ∈ t.auditLogs, t.has log.runId

section Tables

variable {t t' : RunTables} {runId message status : String}
  {agentId actorId answer error : Option String} {now : Nat}

theorem trail_append (rows : List AgentRunRow) (logs : List AuditLogRow) (log : AuditLogRow)
    (runId : String) :
    RunTables.trail ⟨rows, logs ++ [log]⟩ runId
      = if log.runId = runId then RunTables.trail ⟨rows, logs⟩ runId ++ [log]
        else RunTables.trail ⟨rows, logs⟩ runId := by
  unfold RunTables.trail
  rw [List.filter_append]
  by_cases h : log.runId = runId <;> simp [h]

theorem consistent_createRun (h : t.Consistent)
    (hcreate : createRun t runId message agentId actorId = some t') : t'.Consistent := by
  unfold createRun at hcreate
  split at hcreate
  · cases hcreate
  rename_i hnew
  obtain ⟨-, rfl⟩ := audit_eq_some.mp hcreate
  have hfresh : ∀ row ∈ t.agentRuns, row.runId ≠ runId := fun row hrow hid => hnew ⟨row, hrow, hid⟩
  refine ⟨?_, fun row hrow => ?_, fun log hlog => ?_⟩
  · rw [List.map_append, List.map_singleton]
    refine List.nodup_append.mpr ⟨h.ids, List.nodup_singleton _, fun a ha b hb hab => ?_⟩
    obtain ⟨row, hrow, rfl⟩ := List.mem_map.mp ha
    exact hfresh row hrow (hab.trans (List.mem_singleton.mp hb))
  · rcases List.mem_append.mp hrow with hold | hadded
    · rw [trail_append, if_neg (hfresh row hold).symm]
      exact h.rows row hold
    · obtain rfl := List.mem_singleton.mp hadded
      refine ⟨[], ?_, rfl, rfl, rfl, rfl⟩
      have hnone : t.auditLogs.filter (fun log => log.runId = runId) = [] := by
        refine List.filter_eq_nil_iff.mpr fun log hlog => ?_
        obtain ⟨row, hrow, hid⟩ := h.logs log hlog
        simpa [← hid] using hfresh row hrow
      rw [trail_append, if_pos (by rfl)]
      exact congrArg (· ++ [_]) hnone
  · rcases List.mem_append.mp hlog with hold | hadded
    · obtain ⟨row, hrow, hid⟩ := h.logs log hold
      exact ⟨row, List.mem_append_left _ hrow, hid⟩
    · obtain rfl := List.mem_singleton.mp hadded
      exact ⟨_, List.mem_append_right _ (List.mem_singleton.mpr rfl), rfl⟩

/-- The row that an update leaves. -/
def AgentRunRow.closed (row : AgentRunRow) (now : Nat) (status : String)
    (answer error : Option String) : AgentRunRow :=
  { row with status := status, answer := answer, error := error, completedAt := some now }

/-- `update_run` on a row that is there. -/
theorem updateRun_eq (hupdate : updateRun t now runId status answer error = some t') :
    t.has runId ∧ t' =
      { agentRuns := t.agentRuns.map fun row =>
          if row.runId = runId then row.closed now status answer error else row
        auditLogs := t.auditLogs ++ [⟨runId, "run_" ++ status,
          if error.getD "" = "" then "run completed" else error.getD ""⟩] } := by
  refine ⟨(updateRun_isSome_iff t now runId status answer error).mp ⟨t', hupdate⟩, ?_⟩
  exact (audit_eq_some.mp hupdate).2

/-- The row is closed, and the trail has one event more. -/
theorem consistent_updateRun (h : t.Consistent)
    (hupdate : updateRun t now runId status answer error = some t') : t'.Consistent := by
  obtain ⟨hhas, rfl⟩ := updateRun_eq hupdate
  have hid : ∀ row : AgentRunRow, (if row.runId = runId then row.closed now status answer error
      else row).runId = row.runId := by
    intro row
    split <;> rfl
  refine ⟨?_, fun row hrow => ?_, fun log hlog => ?_⟩
  · have hids : ((t.agentRuns.map fun row =>
        if row.runId = runId then row.closed now status answer error else row).map
          AgentRunRow.runId) = t.agentRuns.map AgentRunRow.runId := by
      rw [List.map_map]
      exact List.map_congr_left fun row _ => hid row
    rw [hids]
    exact h.ids
  · obtain ⟨old, hold, rfl⟩ := List.mem_map.mp hrow
    obtain ⟨events, htrail, hlast⟩ := h.rows old hold
    have htrail' : RunTables.trail ⟨t.agentRuns, t.auditLogs⟩ old.runId = _ := htrail
    rw [hid old, trail_append]
    by_cases hsame : old.runId = runId
    · rw [if_pos hsame, if_pos hsame.symm]
      refine ⟨events ++ [_], (congrArg (· ++ [_]) htrail').trans (List.cons_append ..), ?_⟩
      rw [List.getLast?_append]
      exact ⟨rfl, rfl, rfl⟩
    · rw [if_neg hsame, if_neg fun heq => hsame heq.symm]
      exact ⟨events, htrail', hlast⟩
  · have hthere : ∀ other, t.has other → RunTables.has
        { agentRuns := t.agentRuns.map fun row =>
            if row.runId = runId then row.closed now status answer error else row
          auditLogs := t.auditLogs ++ [⟨runId, "run_" ++ status,
            if error.getD "" = "" then "run completed" else error.getD ""⟩] } other :=
      fun other hother => (has_map_iff hid other).mpr hother
    rcases List.mem_append.mp hlog with hold | hadded
    · exact hthere _ (h.logs log hold)
    · obtain rfl := List.mem_singleton.mp hadded
      exact hthere _ hhas

end Tables

/-! ## One request -/

/-- What a request has left in the tables. -/
structure RunHandler.Accounted (t : RunTables) (h : RunHandler) : Prop where
  row : h.phase.started = true → t.has h.job.runId
  answered : ∀ reply, h.phase = .answered reply →
    ⟨h.job.runId, "run_" ++ reply.status, "run completed"⟩ ∈ t.auditLogs
  failed : ∀ error, h.phase = .failed error true →
    ⟨h.job.runId, "run_failed", if error = "" then "run completed" else error⟩ ∈ t.auditLogs
  left : ∀ reply logged rest, h.phase = .logging reply logged rest →
    logged ++ rest = reply.toolCalls

section Request

variable {t t' : RunTables} {h : RunHandler} {move : RunMove} {moved : RunMoved}

theorem RunHandler.Accounted.later (hacc : h.Accounted t)
    (hhas : ∀ runId, t.has runId → t'.has runId)
    (hlogs : ∀ log ∈ t.auditLogs, log ∈ t'.auditLogs) : h.Accounted t' where
  row hstarted := hhas _ (hacc.row hstarted)
  answered reply hphase := hlogs _ (hacc.answered reply hphase)
  failed error hphase := hlogs _ (hacc.failed error hphase)
  left := hacc.left

/-- Rows and audit rows are never taken back. -/
theorem updateRun_later {now : Nat} {runId status : String} {answer error : Option String}
    (hupdate : updateRun t now runId status answer error = some t') :
    (∀ other, t.has other → t'.has other) ∧ (∀ log ∈ t.auditLogs, log ∈ t'.auditLogs)
      ∧ ⟨runId, "run_" ++ status, if error.getD "" = "" then "run completed" else error.getD ""⟩
        ∈ t'.auditLogs := by
  refine ⟨fun other hother =>
    @has_step t t' (.update now runId status answer error) other hother hupdate, ?_⟩
  obtain ⟨-, rfl⟩ := updateRun_eq hupdate
  exact ⟨fun log hlog => List.mem_append_left _ hlog,
    List.mem_append_right _ (List.mem_singleton.mpr rfl)⟩

theorem createRun_later {runId message : String} {agentId actorId : Option String}
    (hcreate : createRun t runId message agentId actorId = some t') :
    (∀ other, t.has other → t'.has other) ∧ ∀ log ∈ t.auditLogs, log ∈ t'.auditLogs := by
  refine ⟨fun other hother =>
    @has_step t t' (.create runId message agentId actorId) other hother hcreate, ?_⟩
  unfold createRun at hcreate
  split at hcreate
  · cases hcreate
  · obtain ⟨-, rfl⟩ := audit_eq_some.mp hcreate
    exact fun log hlog => List.mem_append_left _ hlog

/-- How a move changes the tables. -/
inductive RunMoved.Writes (t : RunTables) (h : RunHandler) (moved : RunMoved) : Prop where
  | nothing (htables : moved.tables = t) (howes : h.phase.owes = true → moved.phase.owes = true)
  | row (hcreate : createRun t h.job.runId h.job.message h.job.agentId h.job.actorId
      = some moved.tables) (hphase : moved.phase = .executing)
  | closed (now : Nat) (status : String) (answer error : Option String)
      (hupdate : updateRun t now h.job.runId status answer error = some moved.tables)

/-- A move writes one thing at most, and adds the tool calls that it wrote to those of its
request. -/
structure RunMoved.Spec (t : RunTables) (h : RunHandler) (moved : RunMoved) : Prop where
  writes : moved.Writes t h
  accounted : ({ h with phase := moved.phase } : RunHandler).Accounted moved.tables
  logged : ({ h with phase := moved.phase } : RunHandler).logged = h.logged ++ moved.wrote

theorem move_refuse {failure : HttpFailure} (hacc : h.Accounted t)
    (hmove : h.move t (.refuse failure) = some moved) : moved.Spec t h := by
  obtain ⟨job, phase⟩ := h
  cases phase with
  | accepting =>
      cases hmove
      exact ⟨.nothing rfl fun howes => (nomatch howes), ⟨nofun, nofun, nofun, nofun⟩, rfl⟩
  | _ => cases hmove

/-- The row is there before the runner is called. -/
theorem move_create (hacc : h.Accounted t)
    (hmove : h.move t .create = some moved) : moved.Spec t h := by
  obtain ⟨job, phase⟩ := h
  cases phase with
  | accepting =>
      simp only [RunHandler.move] at hmove
      split at hmove
      · rename_i tables hcreate
        cases hmove
        exact ⟨.row hcreate rfl, ⟨fun _ => createRun_has hcreate, nofun, nofun, nofun⟩, rfl⟩
      · cases hmove
        exact ⟨.nothing rfl fun howes => (nomatch howes), ⟨nofun, nofun, nofun, nofun⟩, rfl⟩
  | _ => cases hmove

theorem move_execute {outcome : Except String GatewayReply} (hacc : h.Accounted t)
    (hmove : h.move t (.execute outcome) = some moved) : moved.Spec t h := by
  obtain ⟨job, phase⟩ := h
  cases phase with
  | executing =>
      cases outcome with
      | ok reply =>
          cases hmove
          refine ⟨.nothing rfl fun _ => rfl, ⟨fun _ => hacc.row rfl, nofun, nofun, ?_⟩, rfl⟩
          intro reply' logged rest hphase
          cases hphase
          rfl
      | error error =>
          cases hmove
          exact ⟨.nothing rfl fun _ => rfl, ⟨fun _ => hacc.row rfl, nofun, nofun, nofun⟩, rfl⟩
  | _ => cases outcome <;> cases hmove

/-- One more tool call of the reply is in the table, and one fewer is left. -/
theorem move_log (hacc : h.Accounted t)
    (hmove : h.move t .log = some moved) : moved.Spec t h := by
  obtain ⟨job, phase⟩ := h
  cases phase with
  | logging reply logged rest =>
      cases rest with
      | nil => cases hmove
      | cons trace rest =>
          cases hmove
          refine ⟨.nothing rfl fun _ => rfl, ⟨fun _ => hacc.row rfl, nofun, nofun, ?_⟩, ?_⟩
          · intro reply' logged' rest' hphase
            cases hphase
            rw [List.append_assoc]
            exact hacc.left reply logged (trace :: rest) rfl
          · exact List.map_append
  | _ => cases hmove

/-- The run is closed when no tool call is left, or when the runner failed. -/
theorem move_close {now : Nat} (hacc : h.Accounted t)
    (hmove : h.move t (.close now) = some moved) : moved.Spec t h := by
  obtain ⟨job, phase⟩ := h
  cases phase with
  | logging reply logged rest =>
      cases rest with
      | cons trace rest => cases hmove
      | nil =>
          have hall : logged = reply.toolCalls := by
            rw [← hacc.left reply logged [] rfl, List.append_nil]
          simp only [RunHandler.move] at hmove
          split at hmove
          · rename_i tables hupdate
            cases hmove
            obtain ⟨hhas, -, hlog⟩ := updateRun_later hupdate
            refine ⟨.closed now _ _ _ hupdate,
              ⟨fun _ => hhas _ (hacc.row rfl), ?_, nofun, nofun⟩, ?_⟩
            · intro reply' hphase
              cases hphase
              exact hlog
            · rw [List.append_nil]
              exact congrArg (List.map job.toolCallLog) hall.symm
          · cases hmove
            exact ⟨.nothing rfl fun _ => rfl, ⟨fun _ => hacc.row rfl, nofun, nofun, nofun⟩,
              (List.append_nil _).symm⟩
  | failing error =>
      simp only [RunHandler.move] at hmove
      split at hmove
      · rename_i tables hupdate
        cases hmove
        obtain ⟨hhas, -, hlog⟩ := updateRun_later hupdate
        refine ⟨.closed now _ _ _ hupdate,
          ⟨fun _ => hhas _ (hacc.row rfl), nofun, ?_, nofun⟩, rfl⟩
        intro error' hphase
        cases hphase
        exact hlog
      · cases hmove
        refine ⟨.nothing rfl fun _ => rfl, ⟨fun _ => hacc.row rfl, nofun, ?_, nofun⟩, rfl⟩
        exact fun error' hphase => nomatch hphase
  | _ => cases hmove

/-- A failed statement ends the request, or sends it to the failure's own update. -/
theorem move_database_fails (hacc : h.Accounted t)
    (hmove : h.move t .databaseFails = some moved) : moved.Spec t h := by
  obtain ⟨job, phase⟩ := h
  cases phase with
  | accepting =>
      cases hmove
      exact ⟨.nothing rfl fun howes => (nomatch howes), ⟨nofun, nofun, nofun, nofun⟩, rfl⟩
  | logging reply logged rest =>
      cases hmove
      exact ⟨.nothing rfl fun _ => rfl, ⟨fun _ => hacc.row rfl, nofun, nofun, nofun⟩,
        (List.append_nil _).symm⟩
  | failing error =>
      cases hmove
      refine ⟨.nothing rfl fun _ => rfl, ⟨fun _ => hacc.row rfl, nofun, ?_, nofun⟩, rfl⟩
      exact fun error' hphase => nomatch hphase
  | _ => cases hmove

theorem move_crash (hacc : h.Accounted t)
    (hmove : h.move t .crash = some moved) : moved.Spec t h := by
  obtain ⟨job, phase⟩ := h
  cases phase with
  | accepting =>
      cases hmove
      exact ⟨.nothing rfl fun howes => (nomatch howes),
        ⟨fun hstarted => (nomatch hstarted), nofun, nofun, nofun⟩, rfl⟩
  | executing | failing error | logging reply logged rest =>
      cases hmove
      exact ⟨.nothing rfl fun _ => rfl, ⟨fun _ => hacc.row rfl, nofun, nofun, nofun⟩,
        (List.append_nil _).symm⟩
  | _ => cases hmove

theorem move_spec (hacc : h.Accounted t) (hmove : h.move t move = some moved) :
    moved.Spec t h := by
  cases move with
  | refuse _ => exact move_refuse hacc hmove
  | create => exact move_create hacc hmove
  | execute _ => exact move_execute hacc hmove
  | log => exact move_log hacc hmove
  | close _ => exact move_close hacc hmove
  | databaseFails => exact move_database_fails hacc hmove
  | crash => exact move_crash hacc hmove

end Request

/-! ## All requests -/

/-- What holds of the tables and the requests at any time. -/
structure Audited (s : RunSystem) : Prop where
  /-- every row is what its audit trail says -/
  tables : s.tables.Consistent
  /-- the tool calls are those that the requests wrote -/
  toolCalls : s.toolCallLogs.Perm (s.handlers.flatMap RunHandler.logged)
  /-- a request that answered has closed its row and written all its tool calls -/
  handlers : ∀ h ∈ s.handlers, h.Accounted s.tables
  /-- a row that is open belongs to a request that did not get to close it -/
  openRows : ∀ row ∈ s.tables.agentRuns, row.completedAt = none →
    ∃ h ∈ s.handlers, h.job.runId = row.runId ∧ h.phase.owes = true

section System

variable {dumps : Json → String} {s s' : RunSystem}

theorem audited_arrive (h : Audited s) (job : RunJob) :
    Audited { s with handlers := s.handlers ++ [{ job := job }] } where
  tables := h.tables
  toolCalls := by
    rw [List.flatMap_append]
    exact (List.append_nil (s.handlers.flatMap RunHandler.logged)).symm ▸ h.toolCalls
  handlers := by
    intro handler hhandler
    rcases List.mem_append.mp hhandler with hold | hnew
    · exact h.handlers handler hold
    · obtain rfl := List.mem_singleton.mp hnew
      exact ⟨fun hstarted => (nomatch hstarted), nofun, nofun, nofun⟩
  openRows := by
    intro row hrow hopen
    obtain ⟨handler, hhandler, howner⟩ := h.openRows row hrow hopen
    exact ⟨handler, List.mem_append_left _ hhandler, howner⟩

/-- A decision closes the row that it names, whoever works on it. -/
theorem audited_decide (h : Audited s) {now : Nat} {runId status : String}
    {answer error : Option String} {tables : RunTables}
    (hupdate : updateRun s.tables now runId status answer error = some tables) :
    Audited { s with tables := tables } where
  tables := consistent_updateRun h.tables hupdate
  toolCalls := h.toolCalls
  handlers := by
    obtain ⟨hhas, hlogs, -⟩ := updateRun_later hupdate
    exact fun handler hhandler => (h.handlers handler hhandler).later hhas hlogs
  openRows := by
    obtain ⟨-, rfl⟩ := updateRun_eq hupdate
    intro row hrow hopen
    obtain ⟨old, hold, rfl⟩ := List.mem_map.mp hrow
    by_cases hclosed : old.runId = runId
    · rw [if_pos hclosed] at hopen
      cases hopen
    · rw [if_neg hclosed] at hopen ⊢
      exact h.openRows old hold hopen

theorem mem_set_of_getElem? {α : Type*} {xs : List α} {i : Nat} {x y z : α} (hx : xs[i]? = some x)
    (hz : z ∈ xs) : z ∈ xs.set i y ∨ z = x := by
  obtain ⟨j, hj, rfl⟩ := List.mem_iff_getElem.mp hz
  by_cases hij : i = j
  · subst hij
    rw [List.getElem?_eq_getElem hj] at hx
    exact .inr (Option.some_inj.mp hx)
  · exact .inl (List.mem_iff_getElem.mpr ⟨j, by simpa using hj, by simp [hij]⟩)

/-- Whoever owned an open row before still does, or is the request that moved. -/
theorem audited_move (h : Audited s) {i : Nat} {handler : RunHandler} {move : RunMove}
    {moved : RunMoved} (hi : s.handlers[i]? = some handler)
    (hmove : handler.move s.tables move = some moved) :
    Audited
      { tables := moved.tables
        toolCallLogs := s.toolCallLogs ++ moved.wrote
        handlers := s.handlers.set i { handler with phase := moved.phase } } := by
  have hmem : handler ∈ s.handlers := List.mem_of_getElem? hi
  obtain ⟨hwrites, hacc, hlogged⟩ := move_spec (h.handlers handler hmem) hmove
  have hnew : ({ handler with phase := moved.phase } : RunHandler)
      ∈ s.handlers.set i { handler with phase := moved.phase } :=
    List.mem_set (List.getElem?_eq_some_iff.mp hi).1 _
  have howner : ∀ runId, (∃ other ∈ s.handlers, other.job.runId = runId ∧ other.phase.owes = true) →
      (handler.job.runId = runId → handler.phase.owes = true → moved.phase.owes = true) →
      ∃ other ∈ s.handlers.set i { handler with phase := moved.phase },
        other.job.runId = runId ∧ other.phase.owes = true := by
    rintro runId ⟨other, hother, hid, howes⟩ hstill
    rcases mem_set_of_getElem? hi hother with hkept | rfl
    · exact ⟨other, hkept, hid, howes⟩
    · exact ⟨_, hnew, hid, hstill hid howes⟩
  have hhandlers : (∀ runId, s.tables.has runId → moved.tables.has runId) →
      (∀ log ∈ s.tables.auditLogs, log ∈ moved.tables.auditLogs) →
      ∀ other ∈ s.handlers.set i { handler with phase := moved.phase },
        other.Accounted moved.tables := by
    intro hhas hlogs other hother
    rcases List.mem_or_eq_of_mem_set hother with hold | rfl
    · exact (h.handlers other hold).later hhas hlogs
    · exact hacc
  have hcalls : (s.toolCallLogs ++ moved.wrote).Perm
      ((s.handlers.set i { handler with phase := moved.phase }).flatMap RunHandler.logged) :=
    (h.toolCalls.append_right moved.wrote).trans
      (Interleaved.perm_flatMap_set (f := RunHandler.logged) hi hlogged).symm
  cases hwrites with
  | nothing htables howes =>
      refine ⟨htables ▸ h.tables, hcalls, ?_, fun row hrow hopen => ?_⟩
      · rw [htables] at hhandlers ⊢
        exact hhandlers (fun _ h => h) fun _ h => h
      · rw [htables] at hrow
        exact howner _ (h.openRows row hrow hopen) fun _ => howes
  | row hcreate hphase =>
      obtain ⟨hhas, hlogs⟩ := createRun_later hcreate
      refine ⟨consistent_createRun h.tables hcreate, hcalls, hhandlers hhas hlogs,
        fun row hrow hopen => ?_⟩
      have howes : moved.phase.owes = true := by rw [hphase]; rfl
      unfold createRun at hcreate
      split at hcreate
      · cases hcreate
      · obtain ⟨-, htables⟩ := audit_eq_some.mp hcreate
        rw [htables] at hrow
        rcases List.mem_append.mp hrow with hold | hadded
        · exact howner _ (h.openRows row hold hopen) fun _ _ => howes
        · obtain rfl := List.mem_singleton.mp hadded
          exact ⟨_, hnew, rfl, howes⟩
  | closed now status answer error hupdate =>
      obtain ⟨hhas, hlogs, -⟩ := updateRun_later hupdate
      refine ⟨consistent_updateRun h.tables hupdate, hcalls, hhandlers hhas hlogs,
        fun row hrow hopen => ?_⟩
      obtain ⟨-, htables⟩ := updateRun_eq hupdate
      rw [htables] at hrow
      obtain ⟨old, hold, rfl⟩ := List.mem_map.mp hrow
      by_cases hclosed : old.runId = handler.job.runId
      · rw [if_pos hclosed] at hopen
        cases hopen
      · rw [if_neg hclosed] at hopen ⊢
        exact howner _ (h.openRows old hold hopen) fun hid => absurd hid.symm hclosed

theorem audited_step {action : RunAction} (h : Audited s)
    (hstep : runStep dumps s action = some s') : Audited s' := by
  cases action with
  | arrive job =>
      cases hstep
      exact audited_arrive h job
  | move i move =>
      obtain ⟨handler, hi, hrest⟩ := Option.bind_eq_some_iff.mp hstep
      obtain ⟨moved, hmove, hrest⟩ := Option.bind_eq_some_iff.mp hrest
      cases hrest
      exact audited_move h hi hmove
  | decide now response =>
      simp only [runStep] at hstep
      split at hstep
      · rename_i result tables hdecide
        cases hstep
        unfold decideGatewayApproval at hdecide
        dsimp only at hdecide
        split at hdecide
        · cases hdecide
          exact h
        · obtain ⟨tables', hupdate, heq⟩ := Option.map_eq_some_iff.mp hdecide
          cases heq
          exact audited_decide h hupdate
      · cases hstep
        exact h

/-- In every order of the statements of the requests and of the decisions, the rows are what
their audit trails say, the tool calls are complete, and no row is left open by a request that
got through. -/
theorem run_audited {actions : List RunAction} (h : run (runStep dumps) {} actions = some s) :
    Audited s := by
  refine run_invariant' (I := Audited) (fun _ _ _ hs hstep => audited_step hs hstep) ?_ h
  refine ⟨⟨List.nodup_nil, fun row hrow => (nomatch hrow), fun log hlog => (nomatch hlog)⟩,
    List.Perm.refl _, fun handler hhandler => (nomatch hhandler),
    fun row hrow => (nomatch hrow)⟩

end System

section Example

/-- One tool call, and an answer. -/
def calculatorReply : GatewayReply where
  runId := "run_1"
  answer := "2"
  status := "succeeded"
  toolCalls := [⟨"calculator", "succeeded", "2"⟩]
  approvalRequests := []

/-- A request that answers, and one whose runner raises, between each other's statements. -/
def twoRequests : List RunAction :=
  [.arrive { runId := "run_1", message := "1+1" }, .arrive { runId := "run_2", message := "?" },
    .move 0 .create, .move 1 .create, .move 0 (.execute (.ok calculatorReply)),
    .move 1 (.execute (.error "timeout")), .move 0 .log, .move 1 (.close 1), .move 0 (.close 2)]

theorem run_audited_two :
    ∃ s, run (runStep fun _ => "") {} twoRequests = some s ∧ Audited s
      ∧ s.tables.agentRuns.map AgentRunRow.status = ["succeeded", "failed"] := by
  obtain ⟨s, hs⟩ : ∃ s, run (runStep fun _ => "") {} twoRequests = some s := ⟨_, rfl⟩
  refine ⟨s, hs, run_audited hs, ?_⟩
  cases hs
  rfl

end Example

end Aegora
