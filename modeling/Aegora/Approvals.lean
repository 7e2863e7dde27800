import Aegora.ToolGate

/-!
# Approval records and what happens to a decided one

The row of `runner_approval_requests` that one approval request lives in,
the responses built from it, and the resumption of an approved call:
resolve the context anew, check that the tool is still allowed, run the
saved call past the gate, continue the turn on the engine the snapshot
names. What lies outside the repository at one step (the clock, the
resolver's answer, the tool implementations, the engine) is an `Env`.

Timestamps are numbers; `isoformat` renders one and is a parameter.
-/

namespace Aegora

open Py

/-! ## Records -/

inductive ApprovalStatus where
  | pending
  | approved
  | rejected
  | executed
  | expired
deriving DecidableEq, Repr

def ApprovalStatus.text : ApprovalStatus → String
  | .pending => "pending"
  | .approved => "approved"
  | .rejected => "rejected"
  | .executed => "executed"
  | .expired => "expired"

/-- The decisions `decide_approval` lets through to the store. -/
inductive Decision where
  | approved
  | rejected
deriving DecidableEq, Repr

def Decision.status : Decision → ApprovalStatus
  | .approved => .approved
  | .rejected => .rejected

/-- `decision.decision in {APPROVAL_APPROVED, APPROVAL_REJECTED}`. -/
def parseDecision (text : String) : Option Decision :=
  if text = "approved" then some .approved
  else if text = "rejected" then some .rejected
  else none

structure ApprovalDecision where
  decision : Decision
  decidedBy : String
  comment : Option String := none
deriving DecidableEq, Repr

/-- A row as `row_to_record` reads it. -/
structure ApprovalRecord where
  approvalId : String
  runId : String
  sessionId : String
  traceId : Option String
  agentId : String
  releaseId : String
  actorId : String
  channel : String
  toolId : String
  runnerToolId : Option String
  runnerName : Option String
  toolArgs : Dict
  policy : Dict
  snapshot : Dict
  status : ApprovalStatus
  requestedAt : Nat
  expiresAt : Option Nat
  decidedAt : Option Nat := none
  decidedBy : Option String := none
  decisionComment : Option String := none
  result : Option Json := none
deriving DecidableEq

/-- The errors the path raises by its own checks. -/
inductive ApprovalError where
  | unsupportedDecision
  | notFound
  | alreadyDecided
  | expired
  | toolUnavailable
deriving DecidableEq, Repr

def ApprovalError.message : ApprovalError → String
  | .unsupportedDecision => "审批决定只支持 approved 或 rejected"
  | .notFound => "审批请求不存在"
  | .alreadyDecided => "审批请求已处理"
  | .expired => "审批请求已过期"
  | .toolUnavailable => "审批通过后工具已不可用或无权限"

/-- `decide_approval` tells the errors apart by their text. -/
theorem ApprovalError.message_injective : Function.Injective ApprovalError.message := by
  intro a b h
  cases a <;> cases b <;> first | rfl | exact absurd h (by decide)

/-- `is_expired` at the time `now`. -/
def ApprovalRecord.isExpired (record : ApprovalRecord) (now : Nat) : Bool :=
  match record.expiresAt with
  | none => false
  | some expiresAt => decide (expiresAt ≤ now)

/-- `create_pending`: `base` holds the columns taken from the approval. -/
def createPending (base : ApprovalRecord) (now ttlSeconds : Nat) : ApprovalRecord :=
  { base with
    status := .pending
    requestedAt := now
    expiresAt := some (now + ttlSeconds)
    decidedAt := none
    decidedBy := none
    decisionComment := none
    result := none }

/-- The columns the decision's `UPDATE` sets. -/
def ApprovalRecord.decided (record : ApprovalRecord) (decision : ApprovalDecision)
    (now : Nat) : ApprovalRecord :=
  { record with
    status := decision.decision.status
    decidedAt := some now
    decidedBy := some decision.decidedBy
    decisionComment := decision.comment }

/-- The columns `mark_executed` sets. -/
def ApprovalRecord.markExecuted (record : ApprovalRecord) (result : Dict) :
    ApprovalRecord :=
  { record with status := .executed, result := some (.obj result) }

/-- `_set_status`. -/
def ApprovalRecord.setStatus (record : ApprovalRecord) (status : ApprovalStatus) :
    ApprovalRecord :=
  { record with status := status }

/-! ## Responses -/

def optStr (value : Option String) : Json := (value.map Json.str).getD .null

/-- `redact_sensitive`. -/
def redactSensitive (value : Dict) : Dict := safeArgs value

/-- `approval_response`. -/
def approvalResponse (isoformat : Nat → String) (record : ApprovalRecord) : Dict :=
  [("approval_id", .str record.approvalId),
   ("run_id", .str record.runId),
   ("session_id", .str record.sessionId),
   ("trace_id", optStr record.traceId),
   ("agent_id", .str record.agentId),
   ("release_id", .str record.releaseId),
   ("actor_id", .str record.actorId),
   ("channel", .str record.channel),
   ("tool_id", .str record.toolId),
   ("runner_tool_id", optStr record.runnerToolId),
   ("runner_name", optStr record.runnerName),
   ("tool_args_preview", .obj (redactSensitive record.toolArgs)),
   ("policy", .obj record.policy),
   ("status", .str record.status.text),
   ("requested_at", .str (isoformat record.requestedAt)),
   ("expires_at", optStr (record.expiresAt.map isoformat))]

/-- `approval_observation`; a `tool_call` that is no dictionary raises. -/
def approvalObservation (record : ApprovalRecord) (decision : Decision) :
    Except String Dict :=
  match (Dict.get? record.snapshot "tool_call").getD (.obj []) with
  | .obj call =>
      .ok [("call_id", Dict.get call "call_id"),
           ("tool_name", .str record.toolId),
           ("args", .obj record.toolArgs),
           ("status", .str ("approval_" ++ decision.status.text)),
           ("approval_id", .str record.approvalId),
           ("decided_by", optStr record.decidedBy),
           ("comment", optStr record.decisionComment),
           ("tool_metadata", .obj record.policy)]
  | _ => .error "AttributeError"

/-- `rejected_approval_response`. -/
def rejectedApprovalResponse (isoformat : Nat → String) (record : ApprovalRecord) :
    Except String Dict := do
  let observation ← approvalObservation record .rejected
  return [("run_id", .str record.runId),
    ("session_id", .str record.sessionId),
    ("agent_id", .str record.agentId),
    ("release_id", .str record.releaseId),
    ("actor_id", .str record.actorId),
    ("channel", .str record.channel),
    ("answer", .str "审批已拒绝，本次工具调用不会执行。"),
    ("route", .str "answer"),
    ("status", .str "completed"),
    ("trace_id", optStr record.traceId),
    ("approval", .obj (approvalResponse isoformat record)),
    ("tool_observations", .arr [.obj observation]),
    ("model_usage", .obj []),
    ("flow", .arr [.obj [("event", .str "approval_rejected"),
      ("approval_id", .str record.approvalId)]])]

/-! ## Resuming -/

/-- `snapshot["metadata"]`. -/
def snapshotMetadata (record : ApprovalRecord) : Dict :=
  (Dict.get record.snapshot "metadata").dictOrEmpty

/-- `approval_execution_engine`. -/
def approvalExecutionEngine (record : ApprovalRecord) : String :=
  ((Dict.get (snapshotMetadata record) "execution_engine").orElse
    (.str "pocoflow")).pyStr

/-- The call that was saved for approval. -/
def savedCall (record : ApprovalRecord) : Dict :=
  (Dict.get record.snapshot "tool_call").dictOrEmpty

/-- The tool id `resume_approved_approval` asks the fresh context for. -/
def savedToolId (record : ApprovalRecord) : String :=
  (((Dict.get (savedCall record) "tool_name").orElse (.str record.toolId)).orElse
    (.str "")).pyStr

/-- `ensure_tool_still_allowed`. -/
def ensureToolStillAllowed (context : Dict) (toolId : String) :
    Except ApprovalError Unit :=
  let allowed := ((Dict.get context "tool_ids").asList?.getD []).map Json.pyStr
  if toolId ∈ allowed then .ok () else .error .toolUnavailable

/-- `runtime_tools` of a context dictionary. -/
def contextTools (context : Dict) : Except String (List (String × Dict)) :=
  match (Dict.get context "tools").orElse (.arr []) with
  | .arr tools => .ok (runtimeTools tools)
  | _ => .error "runtime context tools 不合法"

/-- `summarize_runtime_context`. -/
def summarizeRuntimeContext (context : Dict) : Dict :=
  let agent := (Dict.get context "agent").dictOrEmpty
  [("release", .obj (Dict.get context "release").dictOrEmpty),
   ("agent", .obj [("id", Dict.get agent "id"), ("name", Dict.get agent "name"),
     ("model", Dict.get agent "model")]),
   ("channel", Dict.get context "channel"),
   ("actor", (Dict.get context "actor").orElse (.obj [])),
   ("tool_ids", (Dict.get context "tool_ids").orElse (.arr [])),
   ("policy", (Dict.get context "policy").orElse (.obj []))]

/-- What a resumed engine is handed. -/
structure EnginePayload where
  engine : String
  record : ApprovalRecord
  context : Dict
  decision : Decision
  observation : Dict
  results : List Observation

/-- The outside as one step meets it. -/
structure Env where
  now : Nat
  isoformat : Nat → String
  resolveRuntimeContext : Except String Dict
  dispatch : Dict → ToolHandler
  toolLogDbEnabled : Bool
  /-- The state an engine ends the turn with. -/
  engine : EnginePayload → Except String Dict
  /-- What the turn adds to its request metadata. -/
  engineMetadata : Dict

/-- Why a call of `decide_approval` raised. -/
inductive DecideError where
  | approval (error : ApprovalError)
  | other (text : String)
deriving DecidableEq, Repr

/-- `run_tools([call], state)` on dependencies built without an approval
store: the saved call goes straight to the executor. -/
def runSavedCall (env : Env) (record : ApprovalRecord) (context : Dict) :
    Except String BatchResult := do
  let tools ← contextTools context
  let specs ← buildRuntimeToolExecutor env.dispatch tools
  return runMany specs (configuredHooks env.toolLogDbEnabled) [savedCall record]

/-- `resume_approved_approval` up to the tool batch. -/
def executeSavedCall (env : Env) (record : ApprovalRecord) :
    Except DecideError (Dict × BatchResult) := do
  let context ← env.resolveRuntimeContext.mapError .other
  (ensureToolStillAllowed context (savedToolId record)).mapError .approval
  let batch ← (runSavedCall env record context).mapError .other
  return (context, batch)

/-- `request_metadata` of the continued turn. -/
def resumeMetadata (env : Env) (record : ApprovalRecord) (decision : Decision) : Dict :=
  Dict.merge (Dict.set (Dict.set (snapshotMetadata record)
    "approval_id" (.str record.approvalId))
    "approval_decision" (.str decision.status.text)) env.engineMetadata

/-- The turn continued on the engine of the snapshot, with the two keys that
`run_configured_turn` and `resume_langgraph_approval` set on its result. -/
def continueTurn (env : Env) (record : ApprovalRecord) (context : Dict)
    (decision : Decision) (results : List Observation) : Except String Dict := do
  let observation ← approvalObservation record decision
  let resumed ← env.engine
    { engine := approvalExecutionEngine record, record := record, context := context
      decision := decision, observation := observation, results := results }
  return Dict.set (Dict.set resumed "runtime_context"
    (.obj (summarizeRuntimeContext context)))
    "request_metadata" (.obj (resumeMetadata env record decision))

/-- What `decide_approval` returns for a rejection. -/
def rejectApproval (env : Env) (record : ApprovalRecord) : Except String Dict :=
  if approvalExecutionEngine record = "langgraph" then
    match env.resolveRuntimeContext with
    | .error _ => rejectedApprovalResponse env.isoformat record
    | .ok context => do
        let resumed ← continueTurn env record context .rejected []
        return Dict.set resumed "approval" (.obj (approvalResponse env.isoformat record))
  else rejectedApprovalResponse env.isoformat record

/-- The response of an approval, `mark_executed` done. -/
def approvedResponse (env : Env) (record : ApprovalRecord) (resumed : Dict) : Dict :=
  Dict.set resumed "approval"
    (.obj (approvalResponse env.isoformat (record.setStatus .executed)))

/-- The response of a retry that finds the saved result. -/
def cachedResponse (env : Env) (record : ApprovalRecord) (result : Dict) : Dict :=
  Dict.set result "approval" (.obj (approvalResponse env.isoformat record))

/-! ### One execution of the saved call -/

/-- The saved call reaches at most one handler, once. -/
theorem runSavedCall_length {env : Env} {record : ApprovalRecord} {context : Dict}
    {batch : BatchResult} (h : runSavedCall env record context = .ok batch) :
    batch.invoked.length ≤ 1 := by
  obtain ⟨tools, -, h⟩ := bind_eq_ok.mp h
  obtain ⟨specs, hspecs, h⟩ := bind_eq_ok.mp h
  cases h
  have hretries : ∀ spec ∈ specs, spec.maxRetries ≤ 1 := fun spec hspec =>
    Nat.le_of_eq (buildRuntimeToolExecutor_maxRetries hspecs spec hspec)
  simpa [runMany, runCallSafely_fst] using runTool_length hretries

theorem executeSavedCall_length {env : Env} {record : ApprovalRecord} {context : Dict}
    {batch : BatchResult} (h : executeSavedCall env record = .ok (context, batch)) :
    batch.invoked.length ≤ 1 := by
  obtain ⟨context, -, h⟩ := bind_eq_ok.mp h
  obtain ⟨-, -, h⟩ := bind_eq_ok.mp h
  obtain ⟨batch, hbatch, h⟩ := bind_eq_ok.mp h
  cases h
  exact runSavedCall_length (mapError_eq_ok.mp hbatch)

end Aegora
