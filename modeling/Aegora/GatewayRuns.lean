import Aegora.AgentLoop
import Aegora.Runs

/-!
# A gateway run across the two services

The Control Plane creates a row of `agent_runs` under its own identifier
and calls the Runtime. The Runtime draws an identifier of its own, and that
is the one an approval record and the rejection response carry. An approval
that is carried out answers with the engine's result, which has no `run_id`
at all.

`decideGatewayApproval` therefore updates the row it should only for a
rejection that `rejected_approval_response` answers, and only if the two
services had drawn the same identifier (`decision_recorded_iff`).
-/

namespace Aegora

open Py

/-! ## `agent_runs` and `audit_logs` -/

structure AgentRunRow where
  runId : String
  message : String
  status : String
  answer : Option String := none
  error : Option String := none
  agentId : Option String := none
  actorId : Option String := none
  completedAt : Option Nat := none
deriving DecidableEq

structure AuditLogRow where
  runId : String
  eventType : String
  detail : String
deriving DecidableEq

structure RunTables where
  agentRuns : List AgentRunRow := []
  auditLogs : List AuditLogRow := []
deriving DecidableEq

def RunTables.has (t : RunTables) (runId : String) : Prop :=
  ∃ row ∈ t.agentRuns, row.runId = runId

instance (t : RunTables) (runId : String) : Decidable (t.has runId) :=
  inferInstanceAs (Decidable (∃ row ∈ t.agentRuns, row.runId = runId))

/-- `INSERT INTO audit_logs`: the run has to exist. -/
def RunTables.audit (t : RunTables) (log : AuditLogRow) : Option RunTables :=
  if t.has log.runId then some { t with auditLogs := t.auditLogs ++ [log] } else none

/-- `create_run`; `none` when the database raises, and nothing is written. -/
def createRun (t : RunTables) (runId message : String) (agentId actorId : Option String) :
    Option RunTables :=
  if t.has runId then none
  else
    RunTables.audit
      { t with
        agentRuns := t.agentRuns ++
          [{ runId := runId, message := message, status := "running"
             agentId := agentId, actorId := actorId }] }
      { runId := runId, eventType := "run_started", detail := "run accepted" }

/-- `update_run`. The update may match no row, the audit insert then raises and the
transaction is undone. -/
def updateRun (t : RunTables) (now : Nat) (runId status : String)
    (answer error : Option String) : Option RunTables :=
  RunTables.audit
    { t with
      agentRuns := t.agentRuns.map fun row =>
        if row.runId = runId then
          { row with status := status, answer := answer, error := error
                     completedAt := some now }
        else row }
    { runId := runId, eventType := "run_" ++ status
      detail := if error.getD "" = "" then "run completed" else error.getD "" }

/-- What the Control Plane does to the two tables. -/
inductive RunOp where
  | create (runId message : String) (agentId actorId : Option String)
  | update (now : Nat) (runId status : String) (answer error : Option String)

def runOp (t : RunTables) : RunOp → Option RunTables
  | .create runId message agentId actorId => createRun t runId message agentId actorId
  | .update now runId status answer error => updateRun t now runId status answer error

/-! ## The Runtime's identifiers -/

/-- The metadata `run_configured_turn` hands the approval gate: what the caller sent,
then the entries of `gateway_run`, `run_configured_request` and the engine. -/
def gatewayRunMetadata (sent : Dict) (channel actorId : String)
    (senderUid replyUrl : Option String) (runId engineName schemaVersion threadId : String) :
    Dict :=
  Dict.merge sent
    [("channel", .str channel), ("actor_id", .str actorId), ("sender_uid", optStr senderUid),
      ("gateway_run_id", .str runId), ("reply_url", optStr replyUrl),
      ("execution_engine", .str engineName), ("engine_schema_version", .str schemaVersion),
      ("engine_thread_id", .str threadId)]

/-- `run_id` of `build_approval_snapshot` and `build_approval_record`. -/
def approvalRunId (metadata : Dict) (traceId : String) : String :=
  let runId := (((Dict.get metadata "gateway_run_id").orElse (Dict.get metadata "run_id")).orElse
    (.str "")).pyStr
  if runId = "" then traceId else runId

/-- A gateway run the Control Plane started that waits for an approval: the identifiers
both services drew, what was sent, and the approval record. -/
structure SuspendedRun where
  platformRunId : String
  gatewayRunId : String
  drawn : gatewayRunId ≠ ""
  requestedToolIds : List Json
  allowedToolIds : List Json
  runtimeContext : Dict
  channel : String
  actorId : String
  senderUid : Option String
  replyUrl : Option String
  engineName : String
  schemaVersion : String
  threadId : String
  record : ApprovalRecord
  recorded : record.runId = approvalRunId
    (gatewayRunMetadata
      [("platform_run_id", .str platformRunId), ("requested_tool_ids", .arr requestedToolIds),
        ("allowed_tool_ids", .arr allowedToolIds), ("runtime_context", .obj runtimeContext)]
      channel actorId senderUid replyUrl gatewayRunId engineName schemaVersion threadId)
    (record.traceId.getD "")

/-! ## The result of an engine -/

def TraceEntry.asDict (entry : TraceEntry) : Dict :=
  [("node", .str entry.node), ("action", .str entry.action), ("payload", .obj entry.payload)]

def optEntry (key : String) (value : Option Json) : Dict :=
  (value.map fun v => (key, v)).toList

/-- The state an engine ends with, as the dictionary it returns. -/
def PlannerState.asDict (s : PlannerState) : Dict :=
  [("tool_catalog", .arr s.toolCatalog), ("loop_mode", .str s.loopMode),
    ("trace_id", optStr s.traceId), ("run_context", .obj s.runContext),
    ("trace", .arr (s.trace.map fun entry => .obj entry.asDict)),
    ("observability", .arr (s.observability.map .obj)),
    ("context", .obj (s.context.entries ++ optEntry "runtime_context" s.context.runtimeContext)),
    ("skills", .arr s.skills), ("auto_skills", s.autoSkills),
    ("session_skills", s.sessionSkills), ("skill_retrieval", .obj s.skillRetrieval),
    ("intent", .obj s.intent),
    ("retrieved_faqs", .arr (s.retrievedFaqs.map fun faq => .obj faq.jsonEntries)),
    ("tool_observations", .arr s.toolObservations), ("loop_count", .int s.loopCount),
    ("route", optStr s.route), ("answer", s.answer), ("status", .str s.status),
    ("errors", .arr (s.errors.map .str))]
    ++ optEntry "decision" (s.decision.map .obj) ++ optEntry "self_check" (s.selfCheck.map .obj)
    ++ optEntry "approval_requests" s.approvalRequests

/-- What `run_agent`, `_invoke` and `attach_engine_metadata` set on the result. -/
structure EngineExtras where
  traceId : String
  thinking : Bool
  answerAssets : Json
  modelUsage : Option Json
  schemaVersion : String
  threadId : String
  checkpointId : Option String

def engineResult (engineName : String) (s : PlannerState) (extras : EngineExtras) : Dict :=
  Dict.merge s.asDict
    ([("trace_id", .str extras.traceId), ("model_thinking_enabled", .bool extras.thinking),
      ("answer_assets", extras.answerAssets), ("execution_engine", .str engineName),
      ("engine_schema_version", .str extras.schemaVersion),
      ("engine_thread_id", .str extras.threadId)]
      ++ optEntry "model_usage" extras.modelUsage
      ++ optEntry "checkpoint_id" (extras.checkpointId.map .str))

/-- The outside of a decision, with engines that end in a planner state. -/
def engineEnv (outside : Env)
    (engine : EnginePayload → Except String (PlannerState × EngineExtras)) : Env :=
  { outside with
    engine := fun payload =>
      (engine payload).map fun result => engineResult payload.engine result.1 result.2 }

/-! ## The Runtime carries a decision out -/

/-- How the Runtime answers a decision it carried out: `decide_approval` rejects, approves,
or finds the result of an approval that was executed before. -/
inductive CarriedOut (env : Env) (record : ApprovalRecord) : Decision → Dict → Prop where
  | rejected {answer : Dict} (h : rejectApproval env record = .ok answer) :
      CarriedOut env record .rejected answer
  | approved {context resumed : Dict} {results : List Observation}
      (h : continueTurn env record context .approved results = .ok resumed) :
      CarriedOut env record .approved (approvedResponse env record resumed)
  | cached {earlier : Env} {engine : EnginePayload → Except String (PlannerState × EngineExtras)}
      {waiting : ApprovalRecord} {context resumed : Dict} {results : List Observation}
      (h : continueTurn (engineEnv earlier engine) waiting context .approved results
        = .ok resumed) :
      CarriedOut env record .approved (cachedResponse env record resumed)

/-- `rejected_approval_response` answers the decision. -/
def AnsweredByRejection (env : Env) (record : ApprovalRecord) (decision : Decision) : Prop :=
  decision = .rejected ∧ (approvalExecutionEngine record ≠ "langgraph"
    ∨ ∃ e, env.resolveRuntimeContext = .error e)

/-- The body of `POST /v1/gateway/approvals/{id}/decide`. -/
def gatewayDecisionBody (result : Dict) : Dict :=
  [("run_id", Dict.get result "run_id"), ("session_id", Dict.get result "session_id"),
    ("agent_id", Dict.get result "agent_id"), ("release_id", Dict.get result "release_id"),
    ("actor_id", Dict.get result "actor_id"), ("channel", Dict.get result "channel"),
    ("answer", (Dict.get result "answer").orElse (.str "未生成回答")),
    ("route", Dict.get result "route"), ("status", Dict.get result "status"),
    ("trace_id", Dict.get result "trace_id"), ("approval", Dict.get result "approval"),
    ("tool_observations", (Dict.get result "tool_observations").orElse (.arr [])),
    ("model_usage", (Dict.get result "model_usage").orElse (.obj [])),
    ("flow", ((Dict.get result "observability").orElse (Dict.get result "flow")).orElse (.arr []))]

/-! ## The Control Plane reads the answer -/

def approvalPendingStatuses : List String :=
  ["pending_approval", "approval_pending", "waiting_approval", "requires_approval"]

/-- `gateway_response_containers`. -/
def gatewayResponseContainers (payload : Dict) : List Dict :=
  payload :: ["data", "result", "output", "trace"].filterMap fun key =>
    (Dict.get payload key).asDict?

/-- `dict_items`. -/
def dictItems : Json → List Dict
  | .obj entries => [entries]
  | .arr items => items.filterMap Json.asDict?
  | _ => []

/-- `parse_gateway_approval_requests` before duplicates are dropped; the status only asks
whether there are any. -/
def gatewayApprovalRequests (payload : Dict) : List Dict :=
  (gatewayResponseContainers payload).flatMap fun container =>
    ["approval_requests", "approvals", "pending_approvals"].flatMap fun key =>
      dictItems (Dict.get container key)

/-- A text that is not blank. -/
def nonBlank : Json → Option String
  | .str text => if strip text = "" then none else some (strip text)
  | _ => none

/-- `parse_gateway_status`. -/
def parseGatewayStatus (payload : Dict) : String :=
  (nonBlank (Dict.get payload "status")).getD "succeeded"

/-- `parse_gateway_answer` of a dictionary; `dumps` is `json.dumps`. -/
def parseGatewayAnswer (dumps : Json → String) (payload : Dict) : String :=
  let texts (entries : Dict) := ["answer", "content", "message"].map (Dict.get entries)
  let nested := ["output", "result", "data"].flatMap fun key =>
    match Dict.get payload key with
    | .obj entries => texts entries
    | v => [v]
  (((texts payload ++ nested).filterMap nonBlank).head?).getD (dumps (.obj payload))

/-- What `decide_gateway_approval` reads of an `AgentRunResponse`. -/
structure AgentRunResponse where
  runId : String
  answer : String
  status : String
deriving DecidableEq

/-- `parse_gateway_response`. -/
def parseGatewayResponse (dumps : Json → String) (response : Dict) (fallbackRunId : String) :
    AgentRunResponse :=
  let raw := parseGatewayStatus response
  let waits := raw ∈ approvalPendingStatuses
    ∨ raw = "succeeded" ∧ gatewayApprovalRequests response ≠ []
  let status := if waits then "pending_approval" else raw
  let textual := ["answer", "content", "message"].any fun key =>
    (nonBlank (Dict.get response key)).isSome
  { runId := ((Dict.get response "run_id").orElse (.str fallbackRunId)).pyStr
    answer := if status = "pending_approval" ∧ textual = false then "等待人工审批"
      else parseGatewayAnswer dumps response
    status := status }

/-- `decide_gateway_approval` from the Runtime's answer on; `none` when the database
raises, which the caller sees as status 502. -/
def decideGatewayApproval (dumps : Json → String) (t : RunTables) (now : Nat)
    (response : Dict) : Option (AgentRunResponse × RunTables) :=
  let result := parseGatewayResponse dumps response ""
  if result.runId = "" then some (result, t)
  else (updateRun t now result.runId result.status (some result.answer) none).map (result, ·)

/-- The decision ends well and has updated the row of the run, with the status and the
answer it returns, and nothing else. -/
def DecisionRecorded (dumps : Json → String) (t : RunTables) (now : Nat) (runId : String)
    (response : Dict) : Prop :=
  ∃ result t', decideGatewayApproval dumps t now response = some (result, t')
    ∧ updateRun t now runId result.status (some result.answer) none = some t'

/-! ## Rows and audit rows -/

theorem audit_eq_some {t t' : RunTables} {log : AuditLogRow} :
    t.audit log = some t'
      ↔ t.has log.runId ∧ t' = { t with auditLogs := t.auditLogs ++ [log] } := by
  unfold RunTables.audit
  split
  · rename_i h
    simp [h, eq_comm]
  · rename_i h
    simp [h]

/-- An update keeps the identifiers of the rows. -/
theorem has_map_iff {rows : List AgentRunRow} {logs logs' : List AuditLogRow}
    {f : AgentRunRow → AgentRunRow} (hf : ∀ row, (f row).runId = row.runId) (runId : String) :
    RunTables.has { agentRuns := rows.map f, auditLogs := logs } runId
      ↔ RunTables.has { agentRuns := rows, auditLogs := logs' } runId := by
  unfold RunTables.has
  constructor
  · rintro ⟨row, hrow, hid⟩
    obtain ⟨row', hrow', rfl⟩ := List.mem_map.mp hrow
    exact ⟨row', hrow', (hf row').symm.trans hid⟩
  · rintro ⟨row, hrow, hid⟩
    exact ⟨f row, List.mem_map_of_mem hrow, (hf row).trans hid⟩

theorem updateRun_isSome_iff (t : RunTables) (now : Nat) (runId status : String)
    (answer error : Option String) :
    (∃ t', updateRun t now runId status answer error = some t') ↔ t.has runId := by
  unfold updateRun
  have hkeep : ∀ row : AgentRunRow,
      (if row.runId = runId then
          { row with status := status, answer := answer, error := error
                     completedAt := some now }
        else row).runId = row.runId := by
    intro row
    split <;> rfl
  constructor
  · rintro ⟨t', h⟩
    exact (has_map_iff hkeep runId).mp (audit_eq_some.mp h).1
  · intro h
    exact ⟨_, audit_eq_some.mpr ⟨(has_map_iff hkeep runId).mpr h, rfl⟩⟩

/-- An update writes one audit row, about the run it names. -/
theorem updateRun_auditLogs {t t' : RunTables} {now : Nat} {runId status : String}
    {answer error : Option String} (h : updateRun t now runId status answer error = some t') :
    ∃ log, t'.auditLogs = t.auditLogs ++ [log] ∧ log.runId = runId := by
  obtain ⟨-, rfl⟩ := audit_eq_some.mp h
  exact ⟨_, rfl, rfl⟩

/-- Rows are never deleted. -/
theorem has_step {t t' : RunTables} {op : RunOp} {runId : String} (h : t.has runId)
    (hstep : runOp t op = some t') : t'.has runId := by
  cases op with
  | create newId message agentId actorId =>
      change createRun t newId message agentId actorId = some t' at hstep
      unfold createRun at hstep
      split at hstep
      · cases hstep
      · obtain ⟨-, rfl⟩ := audit_eq_some.mp hstep
        obtain ⟨row, hrow, hid⟩ := h
        exact ⟨row, List.mem_append_left _ hrow, hid⟩
  | update now other status answer error =>
      change updateRun t now other status answer error = some t' at hstep
      obtain ⟨-, rfl⟩ := audit_eq_some.mp hstep
      have hbefore : RunTables.has { agentRuns := t.agentRuns, auditLogs := t.auditLogs } runId := h
      refine (has_map_iff (fun row => ?_) runId).mpr hbefore
      split <;> rfl

theorem createRun_has {t t' : RunTables} {runId message : String}
    {agentId actorId : Option String} (h : createRun t runId message agentId actorId = some t') :
    t'.has runId := by
  unfold createRun at h
  split at h
  · cases h
  · obtain ⟨hhas, rfl⟩ := audit_eq_some.mp h
    exact hhas

/-- The row of a run is there at every later time. -/
theorem created_has {t t₁ t₂ : RunTables} {runId message : String}
    {agentId actorId : Option String} {ops : List RunOp}
    (hcreate : createRun t runId message agentId actorId = some t₁)
    (hlater : Runs.run runOp t₁ ops = some t₂) : t₂.has runId :=
  Runs.run_invariant' (I := fun t => t.has runId) (fun _ _ _ h hs => has_step h hs)
    (createRun_has hcreate) hlater

/-! ## The identifier in an answer -/

/-- The approval carries the Runtime's identifier. -/
theorem SuspendedRun.record_runId (run : SuspendedRun) :
    run.record.runId = run.gatewayRunId := by
  have hid : ∀ sent : Dict, Dict.get (gatewayRunMetadata sent run.channel run.actorId
      run.senderUid run.replyUrl run.gatewayRunId run.engineName run.schemaVersion run.threadId)
      "gateway_run_id" = .str run.gatewayRunId := by
    intro sent
    simp [gatewayRunMetadata, Dict.merge, Dict.get_set]
  have hdrawn : (Json.str run.gatewayRunId).truthy = true := by
    simpa using run.drawn
  rw [run.recorded]
  unfold approvalRunId
  rw [hid]
  simp [Json.orElse, hdrawn, run.drawn]

theorem get?_optEntry (key other : String) (value : Option Json) (hne : other ≠ key) :
    Dict.get? (optEntry key value) other = none := by
  cases value with
  | none => rfl
  | some v => simp [optEntry, Dict.get?_cons, hne]

/-- A planner state has no `run_id`, and nothing sets one on the result. -/
theorem get_engineResult (engineName : String) (s : PlannerState) (extras : EngineExtras) :
    Dict.get (engineResult engineName s extras) "run_id" = .null := by
  have hstate : Dict.get s.asDict "run_id" = .null := by
    unfold PlannerState.asDict Dict.get
    rw [Dict.get?_append, Dict.get?_append, Dict.get?_append,
      get?_optEntry _ _ _ (by decide), get?_optEntry _ _ _ (by decide),
      get?_optEntry _ _ _ (by decide)]
    simp [Dict.get?_cons]
  unfold engineResult
  rw [Dict.get_merge_of_not_mem, hstate]
  cases extras.modelUsage <;> cases extras.checkpointId <;> simp [optEntry]

section

variable {outside : Env} {engine : EnginePayload → Except String (PlannerState × EngineExtras)}
  {record : ApprovalRecord}

theorem get_continueTurn {context resumed : Dict} {decision : Decision}
    {results : List Observation}
    (h : continueTurn (engineEnv outside engine) record context decision results = .ok resumed) :
    Dict.get resumed "run_id" = .null := by
  obtain ⟨observation, -, h⟩ := bind_eq_ok.mp h
  obtain ⟨result, hresult, h⟩ := bind_eq_ok.mp h
  have hnone : Dict.get result "run_id" = .null := by
    change (engine _).map _ = _ at hresult
    cases hend : engine ⟨approvalExecutionEngine record, record, context, decision, observation,
        results⟩ with
    | error e => rw [hend] at hresult; cases hresult
    | ok ended =>
        rw [hend] at hresult
        cases hresult
        exact get_engineResult _ _ _
  cases h
  rw [Dict.get_set, if_neg (by decide), Dict.get_set, if_neg (by decide), hnone]

theorem get_rejectedApprovalResponse {isoformat : Nat → String} {answer : Dict}
    (h : rejectedApprovalResponse isoformat record = .ok answer) :
    Dict.get answer "run_id" = .str record.runId := by
  obtain ⟨observation, -, h⟩ := bind_eq_ok.mp h
  cases h
  rfl

/-- Only a rejection that `rejected_approval_response` answers carries an identifier, and
it is the one of the approval. -/
theorem carriedOut_runId {decision : Decision} {answer : Dict}
    (h : CarriedOut (engineEnv outside engine) record decision answer) :
    AnsweredByRejection (engineEnv outside engine) record decision
        ∧ Dict.get answer "run_id" = .str record.runId
      ∨ ¬ AnsweredByRejection (engineEnv outside engine) record decision
        ∧ Dict.get answer "run_id" = .null := by
  cases h with
  | rejected h =>
      unfold rejectApproval at h
      split at h
      · rename_i hengine
        cases hcontext : (engineEnv outside engine).resolveRuntimeContext with
        | error e =>
            rw [hcontext] at h
            exact Or.inl ⟨⟨rfl, Or.inr ⟨e, hcontext⟩⟩, get_rejectedApprovalResponse h⟩
        | ok context =>
            rw [hcontext] at h
            obtain ⟨resumed, hresumed, h⟩ := bind_eq_ok.mp h
            cases h
            refine Or.inr ⟨?_, ?_⟩
            · rintro ⟨-, hother | ⟨e, he⟩⟩
              · exact hother hengine
              · rw [hcontext] at he
                cases he
            · rw [Dict.get_set, if_neg (by decide)]
              exact get_continueTurn hresumed
      · rename_i hengine
        exact Or.inl ⟨⟨rfl, Or.inl hengine⟩, get_rejectedApprovalResponse h⟩
  | approved h =>
      refine Or.inr ⟨fun hrejection => Decision.noConfusion hrejection.1, ?_⟩
      unfold approvedResponse
      rw [Dict.get_set, if_neg (by decide)]
      exact get_continueTurn h
  | cached h =>
      refine Or.inr ⟨fun hrejection => Decision.noConfusion hrejection.1, ?_⟩
      unfold cachedResponse
      rw [Dict.get_set, if_neg (by decide)]
      exact get_continueTurn h

theorem parseGatewayResponse_runId (dumps : Json → String) (answer : Dict) :
    (parseGatewayResponse dumps (gatewayDecisionBody answer) "").runId
      = ((Dict.get answer "run_id").orElse (.str "")).pyStr := rfl

end

/-! ## When a decision reaches the row of the run -/

/-- A decision that the Runtime carried out is recorded on the row created for the run if
and only if both services drew the same identifier and the decision is a rejection that
is answered without an engine. -/
theorem decision_recorded_iff (dumps : Json → String) (run : SuspendedRun)
    (outside : Env) (engine : EnginePayload → Except String (PlannerState × EngineExtras))
    (message : String) (agentId actorId : Option String) (t t₁ t₂ : RunTables)
    (ops : List RunOp) (now : Nat) (decision : Decision) (answer : Dict)
    (hcreate : createRun t run.platformRunId message agentId actorId = some t₁)
    (hlater : Runs.run runOp t₁ ops = some t₂)
    (hcarried : CarriedOut (engineEnv outside engine) run.record decision answer) :
    DecisionRecorded dumps t₂ now run.platformRunId (gatewayDecisionBody answer)
      ↔ run.gatewayRunId = run.platformRunId
        ∧ AnsweredByRejection (engineEnv outside engine) run.record decision := by
  have hhas := created_has hcreate hlater
  have hid := parseGatewayResponse_runId dumps answer
  unfold DecisionRecorded decideGatewayApproval
  dsimp only
  generalize parseGatewayResponse dumps (gatewayDecisionBody answer) "" = result at hid ⊢
  rcases carriedOut_runId hcarried with ⟨hrejection, hanswer⟩ | ⟨hother, hanswer⟩
  · have hresult : result.runId = run.gatewayRunId := by
      have hdrawn : (Json.str run.gatewayRunId).truthy = true := by simpa using run.drawn
      rw [hid, hanswer, run.record_runId]
      simp [Json.orElse, hdrawn]
    rw [hresult, if_neg run.drawn]
    constructor
    · rintro ⟨result', t', hdecide, hrecorded⟩
      refine ⟨?_, hrejection⟩
      obtain ⟨t₃, hupdate, hpair⟩ := Option.map_eq_some_iff.mp hdecide
      cases hpair
      obtain ⟨log, hlogs, hlog⟩ := updateRun_auditLogs hupdate
      obtain ⟨log', hlogs', hlog'⟩ := updateRun_auditLogs hrecorded
      have hsame : log = log' := by
        have h := hlogs.symm.trans hlogs'
        simpa using h
      rw [← hlog, ← hlog', hsame]
    · rintro ⟨hsame, -⟩
      rw [hsame]
      obtain ⟨t', ht'⟩ := (updateRun_isSome_iff t₂ now run.platformRunId result.status
        (some result.answer) none).mpr hhas
      exact ⟨result, t', by rw [ht']; rfl, ht'⟩
  · have hresult : result.runId = "" := by
      rw [hid, hanswer]
      rfl
    rw [if_pos hresult]
    constructor
    · rintro ⟨result', t', hdecide, hrecorded⟩
      cases hdecide
      obtain ⟨log, hlogs, -⟩ := updateRun_auditLogs hrecorded
      have hlength := congrArg List.length hlogs
      simp at hlength
    · rintro ⟨-, hrejection⟩
      exact absurd hrejection hother

/-! ## A rejected payment -/

def paymentApproval : ApprovalRecord where
  approvalId := "appr_1"
  runId := "runtime-run"
  sessionId := "s1"
  traceId := some "turn-1"
  agentId := "agent"
  releaseId := "release"
  actorId := "alice"
  channel := "web_console"
  toolId := "bank.transfer"
  runnerToolId := none
  runnerName := none
  toolArgs := []
  policy := []
  snapshot := [("metadata", .obj [("execution_engine", .str "pocoflow")])]
  status := .rejected
  requestedAt := 0
  expiresAt := none

/-- The Control Plane and the Runtime drew different identifiers. -/
def paymentRun : SuspendedRun where
  platformRunId := "platform-run"
  gatewayRunId := "runtime-run"
  drawn := by decide
  requestedToolIds := []
  allowedToolIds := [.str "bank.transfer"]
  runtimeContext := []
  channel := "web_console"
  actorId := "alice"
  senderUid := none
  replyUrl := none
  engineName := "pocoflow"
  schemaVersion := "planner-v1"
  threadId := "turn-1"
  record := paymentApproval
  recorded := by decide

def quietOutside : Env where
  now := 0
  isoformat := fun _ => ""
  resolveRuntimeContext := .ok []
  dispatch := fun _ _ _ => .ok .null
  toolLogDbEnabled := false
  engine := fun _ => .error "not started"
  engineMetadata := []

def noEngine : EnginePayload → Except String (PlannerState × EngineExtras) :=
  fun _ => .error "not started"

def paymentTables : RunTables where
  agentRuns := [{ runId := "platform-run", message := "pay", status := "running" }]
  auditLogs :=
    [{ runId := "platform-run", eventType := "run_started", detail := "run accepted" }]

def paymentRejection : Dict :=
  ((rejectApproval (engineEnv quietOutside noEngine) paymentApproval).toOption).getD []

theorem payment_rejected :
    CarriedOut (engineEnv quietOutside noEngine) paymentRun.record .rejected paymentRejection :=
  .rejected rfl

theorem decision_recorded_iff_payment :
    DecisionRecorded (fun _ => "") paymentTables 5 "platform-run"
        (gatewayDecisionBody paymentRejection)
      ↔ "runtime-run" = "platform-run"
        ∧ AnsweredByRejection (engineEnv quietOutside noEngine) paymentApproval .rejected :=
  decision_recorded_iff (fun _ => "") paymentRun quietOutside noEngine "pay" none none {}
    paymentTables paymentTables [] 5 .rejected paymentRejection (by decide) rfl payment_rejected

/-- The Runtime rejects, and the Control Plane fails on the audit row of a run it does not
know. -/
theorem rejected_payment_not_recorded :
    createRun {} paymentRun.platformRunId "pay" none none = some paymentTables
      ∧ CarriedOut (engineEnv quietOutside noEngine) paymentRun.record .rejected paymentRejection
      ∧ ¬ DecisionRecorded (fun _ => "") paymentTables 5 paymentRun.platformRunId
          (gatewayDecisionBody paymentRejection) := by
  refine ⟨by decide, payment_rejected, ?_⟩
  rintro ⟨result, t', hdecide, -⟩
  have hfails : decideGatewayApproval (fun _ => "") paymentTables 5
      (gatewayDecisionBody paymentRejection) = none := by decide
  rw [hfails] at hdecide
  cases hdecide

end Aegora
