import Aegora.AgentLoop

/-!
# How an approval request comes about

The path of one tool batch through `ApprovalGate.run_many` with an approval
store: the first call whose tool needs approval stops the batch, its
snapshot and its record are built and stored, and the batch answers with
one pending observation. A batch without such a call goes to the executor.

`build_approval_record` copies texts out of the runtime context; the table
refuses a row whose required columns are not texts. `jsonb` columns are
read back as they were written.
-/

namespace Aegora

open Py

/-! ## The row -/

/-- `build_approval_snapshot`. -/
def buildApprovalSnapshot (s : Store) (runtimeContext toolCall runMetadata : Dict) : Dict :=
  [("run_id", .str (((Dict.get runMetadata "gateway_run_id").orElse
      (Dict.get runMetadata "run_id")).orElse (.str "")).pyStr),
    ("session_id", .str (s.request.sessionId.getD "")),
    ("user_id", .str (s.request.userId.getD "")),
    ("trace_id", .str (((optStr s.request.traceId).orElse (optStr s.state.traceId)).orElse
      (.str "")).pyStr),
    ("message", .str s.request.query),
    ("history", .arr s.request.history),
    ("runtime_context", .obj runtimeContext),
    ("decision", .obj (s.state.decision.getD [])),
    ("tool_call", .obj toolCall),
    ("tool_observations", .arr s.state.toolObservations),
    ("observability", .arr (s.state.observability.map .obj)),
    ("loop_count", .int s.state.loopCount),
    ("metadata", .obj runMetadata)]

/-- `policy` of `build_approval_record`. -/
def approvalPolicy (tool : Dict) : Dict :=
  [("requires_approval", .bool (Dict.get tool "requires_approval").truthy),
    ("side_effect_level", (Dict.get tool "side_effect_level").orElse (.str "none")),
    ("data_sensitivity", (Dict.get tool "data_sensitivity").orElse (.str "internal")),
    ("network_access", (Dict.get tool "network_access").orElse (.str "none")),
    ("read_only", .bool ((Dict.get? tool "read_only").getD (.bool true)).truthy)]

/-- A value bound to a `TEXT NOT NULL` column. -/
def textColumn : Json → Except String String
  | .str text => .ok text
  | .null => .error "NotNullViolation"
  | _ => .error "DatatypeMismatch"

/-- A value bound to a `TEXT` column. -/
def optTextColumn : Json → Except String (Option String)
  | .str text => .ok (some text)
  | .null => .ok none
  | _ => .error "DatatypeMismatch"

/-- `context.get(key) or {}`, whose `get` is called next. -/
def contextEntry (context : Dict) (key : String) : Except String Dict :=
  match (Dict.get context key).orElse (.obj []) with
  | .obj entries => .ok entries
  | _ => .error "AttributeError"

/-- The columns that the context and the tool decide. -/
structure ApprovalColumns where
  agentId : String
  releaseId : String
  actorId : String
  channel : String
  toolId : String
  runnerToolId : Option String
  runnerName : Option String

def approvalColumns (runtimeContext tool : Dict) : Except String ApprovalColumns := do
  let release ← contextEntry runtimeContext "release"
  let actor ← contextEntry runtimeContext "actor"
  let agentId ← textColumn (Dict.get release "agent_id")
  let releaseId ← textColumn (Dict.get release "release_id")
  let actorId ← textColumn (Dict.get actor "actor_id")
  let channel ← textColumn (Dict.get runtimeContext "channel")
  let toolId ← textColumn (Dict.get tool "tool_id")
  let runnerToolId ← optTextColumn (Dict.get tool "runner_tool_id")
  let runnerName ← optTextColumn (Dict.get tool "runner_name")
  return ⟨agentId, releaseId, actorId, channel, toolId, runnerToolId, runnerName⟩

/-- A configured turn: what `build_configured_dependencies` is given. -/
structure ConfiguredTurn where
  runtimeContext : Dict
  runMetadata : Dict := []
  dispatch : Dict → ToolHandler
  toolLogDbEnabled : Bool := false
  isoformat : Nat → String

/-- The id and the time `create_pending` takes. -/
structure Stamp where
  approvalId : String
  now : Nat
  ttlSeconds : Nat := 1800

/-- `create_approval`: the snapshot, the record of `build_approval_record`, the
row of `create_pending`. -/
def ConfiguredTurn.createApproval (turn : ConfiguredTurn) (stamp : Stamp) (s : Store)
    (call : ToolCall) (tool : Dict) : Except String ApprovalRecord :=
  (approvalColumns turn.runtimeContext tool).map fun columns =>
    let snapshot :=
      buildApprovalSnapshot s turn.runtimeContext (toolCallAsDict call) turn.runMetadata
    createPending
      { approvalId := stamp.approvalId
        runId := ((Dict.get snapshot "run_id").orElse (Dict.get snapshot "trace_id")).pyStr
        sessionId := (Dict.get snapshot "session_id").pyStr
        traceId := (Dict.get snapshot "trace_id").asStr?
        agentId := columns.agentId
        releaseId := columns.releaseId
        actorId := columns.actorId
        channel := columns.channel
        toolId := columns.toolId
        runnerToolId := columns.runnerToolId
        runnerName := columns.runnerName
        toolArgs := call.toolArgs
        policy := approvalPolicy tool
        snapshot := snapshot
        status := .pending
        requestedAt := stamp.now
        expiresAt := none }
      stamp.now stamp.ttlSeconds

/-! ## The batch -/

/-- The first call whose tool needs approval, with the tool. -/
def heldCall (tools : List (String × Dict)) (calls : List ToolCall) :
    Option (ToolCall × Dict) :=
  calls.findSome? fun call =>
    (gateTool tools (toolCallAsDict call)).bind fun tool =>
      if toolRequiresApproval tool then some (call, tool) else none

/-- The only result of a batch that waits for an approval. -/
def pendingObservation (isoformat : Nat → String) (record : ApprovalRecord) (call : Dict) : Dict :=
  let approval := approvalResponse isoformat record
  [("call_id", Dict.get call "call_id"),
    ("tool_name", Dict.get call "tool_name"),
    ("args", (Dict.get call "tool_args").orElse (.obj [])),
    ("status", .str "pending_approval"),
    ("approval_id", Dict.get approval "approval_id"),
    ("approval", .obj approval),
    ("tool_metadata", (Dict.get approval "policy").orElse (.obj []))]

/-- `pending_result`, once the approval is stored. -/
def pendingResult (isoformat : Nat → String) (record : ApprovalRecord) (call : Dict) : Dict :=
  [("status", .str "pending_approval"), ("execution_mode", .str "approval_required"),
    ("answer", .str "该操作需要审批后继续执行。"),
    ("approval_requests", .arr [.obj (approvalResponse isoformat record)]),
    ("results", .arr [.obj (pendingObservation isoformat record call)])]

inductive BatchOutcome where
  | pendingApproval (record : ApprovalRecord) (result : Dict)
  | executed (batch : BatchResult)

/-- `run_tools` of `build_configured_dependencies`, with an approval store. -/
def ConfiguredTurn.runTools (turn : ConfiguredTurn) (stamp : Stamp) (s : Store)
    (calls : List ToolCall) : Except String BatchOutcome := do
  let tools ← contextTools turn.runtimeContext
  let specs ← buildRuntimeToolExecutor turn.dispatch tools
  match heldCall tools calls with
  | some (call, tool) =>
      let record ← turn.createApproval stamp s call tool
      return .pendingApproval record
        (pendingResult turn.isoformat record (toolCallAsDict call))
  | none =>
      return .executed
        (runMany specs (configuredHooks turn.toolLogDbEnabled) (calls.map toolCallAsDict))

/-- The gate holds the call that `pendingCall` finds. -/
theorem heldCall_pendingCall (tools : List (String × Dict)) (calls : List ToolCall) :
    (heldCall tools calls).map (fun held => toolCallAsDict held.1)
      = pendingCall tools (calls.map toolCallAsDict) := by
  unfold heldCall pendingCall
  induction calls with
  | nil => rfl
  | cons call calls ih =>
      rw [List.findSome?_cons, List.map_cons, List.find?_cons]
      unfold callNeedsApproval at ih ⊢
      cases gateTool tools (toolCallAsDict call) with
      | none => exact ih
      | some tool =>
          cases htool : toolRequiresApproval tool with
          | true => simp [htool]
          | false => simpa [htool] using ih

/-- A held call is one of the batch, and its tool needs approval. -/
theorem mem_of_heldCall {tools : List (String × Dict)} {calls : List ToolCall}
    {call : ToolCall} {tool : Dict} (h : heldCall tools calls = some (call, tool)) :
    call ∈ calls ∧ gateTool tools (toolCallAsDict call) = some tool
      ∧ toolRequiresApproval tool = true := by
  obtain ⟨held, hmem, hheld⟩ := List.exists_of_findSome?_eq_some h
  obtain ⟨found, hfound, hcond⟩ := Option.bind_eq_some_iff.mp hheld
  split at hcond
  · rename_i hneeds
    obtain ⟨rfl, rfl⟩ := Prod.mk.inj (Option.some.inj hcond)
    exact ⟨hmem, hfound, hneeds⟩
  · cases hcond

end Aegora
