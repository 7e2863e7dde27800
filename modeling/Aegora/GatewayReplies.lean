import Aegora.GatewayRuns
import Aegora.TurnItems

/-!
# What the Control Plane reads of a gateway reply

The Runtime answers a gateway run with the result of its engine, and
`parse_gateway_response` reads the answer, the status, the tool calls and the
approval requests out of it. It looks for approval requests in eleven places,
under three names, and takes a status it does not know as it is; of all that,
what a configured turn left is found, each piece once (`gateway_reply_read`).
-/

namespace Aegora

open Py Flows

/-! ## The reply -/

/-- What the response repeats of a `GatewayRunRequest`. -/
structure GatewayRunRequest where
  agentId : String
  releaseId : String
  actorId : String
  channel : String

/-- `build_gateway_run_response`, through the fields of `GatewayRunResponse`. -/
def buildGatewayRunResponse (runId sessionId : String) (payload : GatewayRunRequest)
    (result : Dict) : Dict :=
  [("run_id", .str runId), ("session_id", .str sessionId), ("agent_id", .str payload.agentId),
    ("release_id", .str payload.releaseId), ("actor_id", .str payload.actorId),
    ("channel", .str payload.channel),
    ("answer", (Dict.get result "answer").orElse (.str "未生成回答")),
    ("route", Dict.get result "route"), ("status", Dict.get result "status"),
    ("trace_id", Dict.get result "trace_id"),
    ("tool_observations", (Dict.get result "tool_observations").orElse (.arr [])),
    ("approval_requests", (Dict.get result "approval_requests").orElse (.arr [])),
    ("model_usage", (Dict.get result "model_usage").orElse (.obj [])),
    ("flow", (Dict.get result "observability").orElse (.arr []))]

/-! ## Reading it -/

/-- `json.dumps` with `ensure_ascii=False`, and `json.loads`. -/
structure ReplyReader where
  dumps : Json → String
  loads : String → Option Json

/-- A row of the tool calls that are shown. -/
structure ToolCallTrace where
  toolId : String
  status : String
  result : String
deriving DecidableEq

/-- `tool_{index}`. -/
def unnamedTool (index : Nat) : String := "tool_" ++ toString index

/-- One item of `parse_gateway_tool_calls`. -/
def toolCallTrace (dumps : Json → String) (index : Nat) (item : Json) : ToolCallTrace :=
  match item with
  | .obj entries =>
      let result := if Dict.get entries "result" = .null then Dict.get entries "output"
        else Dict.get entries "result"
      { toolId := (((Dict.get entries "tool_id").orElse (Dict.get entries "tool_name")).orElse
          ((Dict.get entries "name").orElse (.str (unnamedTool index)))).pyStr
        status := ((Dict.get entries "status").orElse (.str "unknown")).pyStr
        result := match result with
          | .str text => text
          | .null => ""
          | value => dumps value }
  | value => ⟨unnamedTool index, "unknown", value.pyStr⟩

/-- `parse_gateway_tool_calls`. -/
def parseGatewayToolCalls (dumps : Json → String) : Json → List ToolCallTrace
  | .arr items => items.mapIdx (toolCallTrace dumps)
  | _ => []

/-- The key under which a request is seen; one without an identifier is its own. -/
def requestKey (request : Dict) : Option String :=
  let key := (Dict.get request "approval_id").orElse (Dict.get request "id")
  if key.truthy then some key.pyStr else none

/-- The loop of `dedupe_approval_requests`. -/
def dedupeFrom (seen : List String) : List Dict → List Dict
  | [] => []
  | request :: rest =>
      match requestKey request with
      | none => request :: dedupeFrom seen rest
      | some key => if key ∈ seen then dedupeFrom seen rest
          else request :: dedupeFrom (key :: seen) rest

/-- `dedupe_approval_requests`. -/
def dedupeApprovalRequests (requests : List Dict) : List Dict := dedupeFrom [] requests

/-- `parse_gateway_approval_requests`. -/
def parseGatewayApprovalRequests (payload : Dict) : List Dict :=
  dedupeApprovalRequests (gatewayApprovalRequests payload)

/-- `decode_json_mapping`. -/
def decodeJsonMapping (loads : String → Option Json) : Json → Option Dict
  | .obj entries => some entries
  | .str text => if strip text = "" then none else (loads text).bind Json.asDict?
  | _ => none

/-- The keys that a request takes over from its tool call. -/
def requestColumns : List String :=
  ["approval_id", "id", "tool_id", "tool_name", "name", "reason", "summary", "arguments", "input",
    "payload"]

/-- `approval_request_from_tool_call`; without a nested mapping, `nested` is empty. -/
def approvalRequestFromToolCall (item nested : Dict) : Option Dict :=
  let status := strip ((Dict.get item "status").orElse (.str "")).pyStr
  if status ∉ approvalPendingStatuses ∧ (Dict.get item "approval_id").truthy = false then none
  else
    let own := nested.filter fun kv => kv.1 ∉ ["approval_request", "approval_requests"]
    let copied := requestColumns.foldl
      (fun request key =>
        if Dict.get item key ≠ .null ∧ Dict.get request key = .null then
          Dict.set request key (Dict.get item key)
        else request) own
    let named :=
      if Dict.get copied "tool_id" = .null ∧ Dict.get item "name" ≠ .null then
        Dict.set copied "tool_id" (Dict.get item "name")
      else copied
    let nestedId := (Dict.get nested "approval_id").orElse (Dict.get nested "id")
    let request :=
      if Dict.get named "approval_id" = .null ∧ nestedId ≠ .null then
        Dict.set named "approval_id" nestedId
      else named
    if request = [] then none else some request

/-- One item of `approval_requests_from_tool_calls`. -/
def toolCallRequests (loads : String → Option Json) (item : Dict) : List Dict :=
  let nested := match decodeJsonMapping loads (Dict.get item "result") with
    | some (entry :: entries) => entry :: entries
    | _ => (decodeJsonMapping loads (Dict.get item "output")).getD []
  dictItems (Dict.get item "approval_request") ++ dictItems (Dict.get item "approval_requests")
    ++ dictItems (Dict.get nested "approval_request")
    ++ dictItems (Dict.get nested "approval_requests")
    ++ (approvalRequestFromToolCall item nested).toList

/-- `approval_requests_from_tool_calls`. -/
def approvalRequestsFromToolCalls (loads : String → Option Json) : Json → List Dict
  | .arr items => (items.filterMap Json.asDict?).flatMap (toolCallRequests loads)
  | _ => []

/-- `parse_gateway_tool_approval_requests`: the last candidate. -/
def parseGatewayToolApprovalRequests (loads : String → Option Json) (payload : Dict) :
    List Dict :=
  let requests := (gatewayResponseContainers payload).flatMap fun container =>
    approvalRequestsFromToolCalls loads (Dict.get container "tool_calls")
      ++ approvalRequestsFromToolCalls loads (Dict.get container "tool_observations")
  ((dedupeApprovalRequests requests).getLast?).toList

/-- The tool calls of a response, wherever they are. -/
def rawToolCalls (response : Dict) : Json :=
  if Dict.get response "tool_calls" ≠ .null then Dict.get response "tool_calls"
  else if Dict.get response "tool_observations" ≠ .null then Dict.get response "tool_observations"
  else Dict.get (Dict.get response "trace").dictOrEmpty "tool_calls"

/-- An `AgentRunResponse` with its lists. -/
structure GatewayReply extends AgentRunResponse where
  toolCalls : List ToolCallTrace
  approvalRequests : List Dict

/-- `parse_gateway_response`. -/
def readGatewayResponse (reader : ReplyReader) (response : Dict) (fallbackRunId : String) :
    GatewayReply :=
  let raw := parseGatewayStatus response
  let requests := parseGatewayApprovalRequests response
  { parseGatewayResponse reader.dumps response fallbackRunId with
    toolCalls := parseGatewayToolCalls reader.dumps (rawToolCalls response)
    approvalRequests :=
      if requests = [] ∧ raw ∈ approvalPendingStatuses then
        parseGatewayToolApprovalRequests reader.loads response
      else requests }

/-! ## The trace of an item -/

/-- How an entry of `tool_observations` is shown: an error shows its status only. -/
def TurnItem.trace (dumps : Json → String) (index : Nat) : TurnItem → ToolCallTrace
  | .ran o _ =>
      { toolId := if o.toolName = "" then unnamedTool index else o.toolName
        status := if o.status = "" then "unknown" else o.status
        result := match o.output with
          | some (.str text) => text
          | some .null | none => ""
          | some value => dumps value }
  | .held _ call =>
      { toolId := ((Dict.get call "tool_name").orElse (.str (unnamedTool index))).pyStr
        status := "pending_approval"
        result := "" }

/-- The text that the response carries as its answer. -/
def replyText (answer : Option String) : String :=
  if answer.getD "" = "" then "未生成回答" else answer.getD ""

/-- The reply says what the turn left: every observation as one tool call, in order, and the
stored approval exactly while the turn waits for it. -/
structure ReplyOf (turn : ConfiguredTurn) (reader : ReplyReader) (body : Dict) (s : PlannerState)
    (reply : GatewayReply) : Prop where
  status : reply.status = s.status
  answer : ∃ text, s.answer = optStr text
    ∧ reply.answer = if strip (replyText text) = "" then reader.dumps (.obj body)
      else strip (replyText text)
  waits : s.status = "pending_approval" → ∃ record, turn.Stored record
    ∧ reply.approvalRequests = [approvalResponse turn.isoformat record]
    ∧ reply.answer = "该操作需要审批后继续执行。"
  ends : s.status ≠ "pending_approval" →
    (s.status = "completed" ∨ s.status = "failed") ∧ reply.approvalRequests = []
  toolCalls : ∃ items : List TurnItem,
    s.toolObservations = items.map (fun item => .obj (item.asDict turn.isoformat))
      ∧ reply.toolCalls = items.mapIdx (TurnItem.trace reader.dumps)

section

variable {engineName runId sessionId : String} {s : PlannerState} {extras : EngineExtras}
  {payload : GatewayRunRequest} {turn : ConfiguredTurn}

/-- What the engine sets on its result besides the state. -/
theorem get_engineResult_state {key : String}
    (hkey : key ∉ ["trace_id", "model_thinking_enabled", "answer_assets", "execution_engine",
      "engine_schema_version", "engine_thread_id", "model_usage", "checkpoint_id"]) :
    Dict.get (engineResult engineName s extras) key = Dict.get s.asDict key := by
  unfold engineResult
  refine Dict.get_merge_of_not_mem _ fun hmem => hkey ?_
  cases extras.modelUsage <;> cases extras.checkpointId <;>
    simp [optEntry] at hmem ⊢ <;> tauto

theorem get_asDict_answer : Dict.get s.asDict "answer" = s.answer := by
  simp [PlannerState.asDict, Dict.get, Dict.get?_cons]

theorem get_asDict_status : Dict.get s.asDict "status" = .str s.status := by
  simp [PlannerState.asDict, Dict.get, Dict.get?_cons]

theorem get_asDict_toolObservations :
    Dict.get s.asDict "tool_observations" = .arr s.toolObservations := by
  simp [PlannerState.asDict, Dict.get, Dict.get?_cons]

theorem get_asDict_approvalRequests :
    Dict.get s.asDict "approval_requests" = s.approvalRequests.getD .null := by
  unfold PlannerState.asDict Dict.get
  rw [Dict.get?_append, Dict.get?_append, Dict.get?_append,
    get?_optEntry _ _ _ (by decide), get?_optEntry _ _ _ (by decide)]
  cases s.approvalRequests <;> simp [Dict.get?_cons, optEntry]

/-- One observation, as the Control Plane shows it. -/
theorem toolCallTrace_asDict (dumps : Json → String) (isoformat : Nat → String) (index : Nat)
    (item : TurnItem) :
    toolCallTrace dumps index (.obj (item.asDict isoformat)) = item.trace dumps index := by
  have hname : ∀ v : Json, ((Json.null.orElse v).orElse (Json.null.orElse
      (.str (unnamedTool index)))).pyStr = (v.orElse (.str (unnamedTool index))).pyStr :=
    fun v => rfl
  cases item with
  | ran o details =>
      cases houtput : o.output with
      | none =>
          unfold toolCallTrace TurnItem.trace TurnItem.asDict Observation.asDict
          simp only [houtput]
          refine congrArg₂ (fun toolId status => (⟨toolId, status, ""⟩ : ToolCallTrace)) ?_ ?_
          · exact (hname _).trans (Json.pyStr_orElse_str _ _)
          · exact Json.pyStr_orElse_str _ _
      | some output =>
          unfold toolCallTrace TurnItem.trace TurnItem.asDict Observation.asDict
          simp only [houtput]
          have hresult : (match output with
              | .str text => text
              | .null => ""
              | value => dumps value) = (match some output with
              | some (.str text) => text
              | some .null | none => ""
              | some value => dumps value) := by
            cases output <;> rfl
          refine congrArg₂ (fun name (rest : String × String) =>
            (⟨name, rest.1, rest.2⟩ : ToolCallTrace)) ?_ (congrArg₂ Prod.mk ?_ hresult)
          · exact (hname _).trans (Json.pyStr_orElse_str _ _)
          · exact Json.pyStr_orElse_str _ _
  | held record call => rfl

/-- A request that is alone is no duplicate. -/
theorem dedupeApprovalRequests_singleton (request : Dict) :
    dedupeApprovalRequests [request] = [request] := by
  unfold dedupeApprovalRequests dedupeFrom
  split
  · rfl
  · rw [if_neg List.not_mem_nil]
    rfl

/-- The only place of the response that can hold requests. -/
theorem gatewayApprovalRequests_response (result : Dict) :
    gatewayApprovalRequests (buildGatewayRunResponse runId sessionId payload result)
      = dictItems ((Dict.get result "approval_requests").orElse (.arr [])) := by
  show dictItems _ ++ ([] ++ ([] ++ [])) ++ [] = _
  simp only [List.append_nil]
  rfl

/-- What the readers find in the response. -/
structure BodyCarries (body : Dict) (s : PlannerState) (text : Option String) : Prop where
  status : parseGatewayStatus body = s.status
  answer : Dict.get body "answer" = .str (replyText text)
  onlyText : ∀ key ∈ ["content", "message", "output", "result", "data"], Dict.get body key = .null
  requests : gatewayApprovalRequests body
    = dictItems ((s.approvalRequests.getD .null).orElse (.arr []))
  toolCalls : rawToolCalls body = .arr s.toolObservations

theorem bodyCarries_response {text : Option String} (htext : s.answer = optStr text)
    (hstatus : s.status = "completed" ∨ s.status = "failed" ∨ s.status = "pending_approval") :
    BodyCarries (buildGatewayRunResponse runId sessionId payload (engineResult engineName s extras))
      s text where
  status := by
    have hbody : Dict.get (buildGatewayRunResponse runId sessionId payload
        (engineResult engineName s extras)) "status" = .str s.status :=
      (get_engineResult_state (by decide)).trans get_asDict_status
    unfold parseGatewayStatus
    rw [hbody]
    rcases hstatus with hs | hs | hs <;> rw [hs] <;> decide
  answer := by
    show (Dict.get (engineResult engineName s extras) "answer").orElse (.str "未生成回答") = _
    rw [get_engineResult_state (by decide), get_asDict_answer, htext]
    unfold Json.orElse replyText
    cases text with
    | none => rfl
    | some text => by_cases hempty : text = "" <;> simp [optStr, hempty]
  onlyText := by
    intro key hkey
    simp only [List.mem_cons, List.not_mem_nil, or_false] at hkey
    rcases hkey with rfl | rfl | rfl | rfl | rfl <;> rfl
  requests := by
    rw [gatewayApprovalRequests_response, get_engineResult_state (by decide),
      get_asDict_approvalRequests]
  toolCalls := by
    have hget : Dict.get (buildGatewayRunResponse runId sessionId payload
        (engineResult engineName s extras)) "tool_observations" = .arr s.toolObservations := by
      show (Dict.get (engineResult engineName s extras) "tool_observations").orElse (.arr []) = _
      rw [get_engineResult_state (by decide), get_asDict_toolObservations]
      unfold Json.orElse
      cases s.toolObservations <;> rfl
    have hnone : Dict.get (buildGatewayRunResponse runId sessionId payload
        (engineResult engineName s extras)) "tool_calls" = .null := rfl
    unfold rawToolCalls
    rw [if_neg fun hsome => hsome hnone, if_pos, hget]
    rw [hget]
    exact fun hnull => nomatch hnull

end

/-! ## The reply of a turn -/

section

variable {body : Dict} {s : PlannerState} {text : Option String} {turn : ConfiguredTurn}

/-- The response has one text, its answer. -/
theorem BodyCarries.parseGatewayAnswer_eq (h : BodyCarries body s text) (dumps : Json → String) :
    parseGatewayAnswer dumps body
      = if strip (replyText text) = "" then dumps (.obj body) else strip (replyText text) := by
  have hnone := h.onlyText
  unfold parseGatewayAnswer
  by_cases hblank : strip (replyText text) = ""
  · simp [hnone, h.answer, nonBlank, hblank]
    rfl
  · simp [hnone, h.answer, nonBlank, hblank]

/-- One tool call for each observation. -/
theorem BodyCarries.toolCalls_eq (h : BodyCarries body s text) (hstate : TurnState turn s)
    (reader : ReplyReader) (fallback : String) : ∃ items : List TurnItem,
      s.toolObservations = items.map (fun item => .obj (item.asDict turn.isoformat))
        ∧ (readGatewayResponse reader body fallback).toolCalls
          = items.mapIdx (TurnItem.trace reader.dumps) := by
  obtain ⟨items, hitems⟩ := hstate.items
  refine ⟨items, hitems, ?_⟩
  show parseGatewayToolCalls reader.dumps (rawToolCalls body) = _
  rw [h.toolCalls, hitems]
  show (items.map _).mapIdx (toolCallTrace reader.dumps) = _
  refine List.ext_getElem (by simp) fun index _ _ => ?_
  simp only [List.getElem_mapIdx, List.getElem_map]
  exact toolCallTrace_asDict reader.dumps turn.isoformat index _

/-- A held turn: the list of requests has the stored approval, and the gate's text answers. -/
theorem BodyCarries.replyOf_waits (h : BodyCarries body s text) (hstate : TurnState turn s)
    (htext : s.answer = optStr text) (hwaits : s.status = "pending_approval")
    (reader : ReplyReader) (fallback : String) :
    ReplyOf turn reader body s (readGatewayResponse reader body fallback) := by
  obtain ⟨-, record, hstored, happrovals, hgate⟩ :=
    hstate.requests.resolve_right fun hno => hno.1 hwaits
  obtain rfl : text = some "该操作需要审批后继续执行。" := by
    have heq : optStr text = .str "该操作需要审批后继续执行。" := htext.symm.trans hgate
    cases text with
    | none => cases heq
    | some text => exact congrArg some (Json.str.inj heq)
  have hlist : parseGatewayApprovalRequests body = [approvalResponse turn.isoformat record] := by
    unfold parseGatewayApprovalRequests
    rw [h.requests, happrovals]
    exact dedupeApprovalRequests_singleton _
  have hstatus : (readGatewayResponse reader body fallback).status = s.status := by
    have hin : parseGatewayStatus body ∈ approvalPendingStatuses := by
      rw [h.status, hwaits]
      decide
    exact (if_pos (.inl hin)).trans hwaits.symm
  have hread : (readGatewayResponse reader body fallback).answer
      = parseGatewayAnswer reader.dumps body := by
    refine if_neg fun hboth => ?_
    have htextual : (nonBlank (Dict.get body "answer")).isSome = true := by
      rw [h.answer]
      decide
    have hnone := hboth.2
    rw [List.any_cons, htextual] at hnone
    cases hnone
  refine ⟨hstatus, ⟨_, htext, hread.trans (h.parseGatewayAnswer_eq _)⟩,
    fun _ => ⟨record, hstored, ?_, ?_⟩, fun hno => absurd hwaits hno,
    h.toolCalls_eq hstate reader fallback⟩
  · refine (if_neg fun hboth => ?_).trans hlist
    rw [hlist] at hboth
    exact List.cons_ne_nil _ _ hboth.1
  · rw [hread, h.parseGatewayAnswer_eq, if_neg (by decide)]
    decide

/-- A turn that has ended: there is nothing to approve. -/
theorem BodyCarries.replyOf_ends (h : BodyCarries body s text) (hstate : TurnState turn s)
    (htext : s.answer = optStr text) (hends : s.status = "completed" ∨ s.status = "failed")
    (reader : ReplyReader) (fallback : String) :
    ReplyOf turn reader body s (readGatewayResponse reader body fallback) := by
  have hruns : s.status ≠ "pending_approval" := by
    rcases hends with hs | hs <;> rw [hs] <;> decide
  have hquiet : parseGatewayStatus body ∉ approvalPendingStatuses := by
    rw [h.status]
    rcases hends with hs | hs <;> rw [hs] <;> decide
  have hlist : gatewayApprovalRequests body = [] := by
    rw [h.requests, (hstate.requests.resolve_left fun hyes => hruns hyes.1).2]
    rfl
  have hstatus : (readGatewayResponse reader body fallback).status = s.status := by
    refine (if_neg ?_).trans h.status
    rintro (hin | ⟨-, hsome⟩)
    · exact hquiet hin
    · exact hsome hlist
  have hread : (readGatewayResponse reader body fallback).answer
      = parseGatewayAnswer reader.dumps body :=
    if_neg fun hboth => hruns (hstatus.symm.trans hboth.1)
  refine ⟨hstatus, ⟨_, htext, hread.trans (h.parseGatewayAnswer_eq _)⟩,
    fun hyes => absurd hyes hruns, fun _ => ⟨hends, ?_⟩,
    h.toolCalls_eq hstate reader fallback⟩
  refine (if_neg fun hboth => hquiet hboth.2).trans ?_
  unfold parseGatewayApprovalRequests
  rw [hlist]
  rfl

end

/-- The reply to a gateway run, read by the Control Plane: the run's identifier, and what the
turn left. Approval requests are looked for in eleven places, under three names, and what the
turn left is found there, each piece once. -/
theorem gateway_reply_read {turn : ConfiguredTurn} {deps : AgentDependencies}
    (hdeps : GatedBy turn deps) {engine : EngineName} {fuel : Nat} {maxIterations : Int}
    {request : AgentRequest} {live : Dict} {s : PlannerState}
    (h : engine.newRun fuel maxIterations request deps live = some (.finished s)
      ∨ engine.newRun fuel maxIterations request deps live = some (.suspended s))
    (engineName : String) (extras : EngineExtras) (payload : GatewayRunRequest)
    {runId : String} (hrun : runId ≠ "") (sessionId fallback : String) (reader : ReplyReader) :
    let body := buildGatewayRunResponse runId sessionId payload (engineResult engineName s extras)
    (readGatewayResponse reader body fallback).runId = runId
      ∧ ReplyOf turn reader body s (readGatewayResponse reader body fallback) := by
  intro body
  obtain ⟨hstate, hstatus⟩ : TurnState turn s
      ∧ (s.status = "completed" ∨ s.status = "failed" ∨ s.status = "pending_approval") := by
    rcases h with h | h <;> exact turnState_newRun hdeps h
  obtain ⟨text, htext⟩ := hstate.answer
  have hcarries : BodyCarries body s text := bodyCarries_response htext hstatus
  refine ⟨(Json.pyStr_orElse_str _ _).trans (if_neg hrun), ?_⟩
  by_cases hwaits : s.status = "pending_approval"
  · exact hcarries.replyOf_waits hstate htext hwaits reader fallback
  · exact hcarries.replyOf_ends hstate htext
      (hstatus.imp_right fun hlast => hlast.resolve_right hwaits) reader fallback

section Example

/-- A turn whose only tool needs approval. -/
def heldTurn : ConfiguredTurn where
  runtimeContext :=
    [("release", .obj [("agent_id", .str "agent_1"), ("release_id", .str "rel_1")]),
      ("actor", .obj [("actor_id", .str "u1")]), ("channel", .str "web_console"),
      ("tools", .arr [.obj [("tool_id", .str "refund"), ("requires_approval", .bool true)]])]
  dispatch := fun _ _ _ => .ok .null
  isoformat := fun _ => "1970-01-01T00:00:00+00:00"

/-- The model calls the tool. -/
def heldDeps : AgentDependencies where
  loadContext := fun _ => .ok []
  think := fun _ => .ok ⟨{ route := "tool_call", toolName := some "refund" }, by decide⟩
  runTool := fun _ _ _ => .ok []
  selfCheck := fun _ => .ok { passed := true }
  runTools := some (heldTurn.answerBatch { approvalId := "appr_1", now := 0 } .null fun _ => {})

def heldReader : ReplyReader := ⟨fun _ => "", fun _ => none⟩

/-- The result of that turn under the graph engine. -/
def heldReply (s : PlannerState) : GatewayReply :=
  readGatewayResponse heldReader (buildGatewayRunResponse "run_1" "s1"
    ⟨"agent_1", "rel_1", "u1", "web_console"⟩
    (engineResult "langgraph" s ⟨"", false, .arr [], none, "v1", "t1", none⟩)) ""

/-- The Control Plane is told which approval the turn waits for. -/
theorem gateway_reply_read_refund :
    ∃ s, EngineName.langgraph.newRun 6 2 { query := "refund" } heldDeps []
        = some (.suspended s)
      ∧ (heldReply s).status = "pending_approval"
      ∧ ∃ record, heldTurn.Stored record
        ∧ (heldReply s).approvalRequests = [approvalResponse heldTurn.isoformat record] := by
  obtain ⟨s, hs⟩ : ∃ s, EngineName.langgraph.newRun 6 2 { query := "refund" } heldDeps []
      = some (.suspended s) := ⟨_, rfl⟩
  have hstatus : s.status = "pending_approval" := by
    cases hs
    rfl
  obtain ⟨-, hreply⟩ := gateway_reply_read (gatedBy_answerBatch rfl) (.inr hs) "langgraph"
    ⟨"", false, .arr [], none, "v1", "t1", none⟩ ⟨"agent_1", "rel_1", "u1", "web_console"⟩
    (show "run_1" ≠ "" by decide) "s1" "" heldReader
  obtain ⟨record, hstored, hrequests, -⟩ := hreply.waits hstatus
  exact ⟨s, hs, hreply.status.trans hstatus, record, hstored, hrequests⟩

end Example

end Aegora
