import Aegora.Approvals

/-!
# The planner's state and nodes

`agent_loop.py`: the store of one planner turn and the six nodes both
execution engines visit. A node is its `exec`, which calls a dependency,
and its `post`, which writes the result into the store and names the
action. Both are functions here; an exception ends the visit.

`PlannerState` is the `TypedDict` the engines share: every key `make_store`
fills, and the three that a node adds later. The `runtime_context` entry of
`context` is kept apart from the other entries, because one engine strips
it from what it persists. Clock readings (`elapsed_ms`), the stream handler
and the log lines are left out.
-/

namespace Aegora

open Py

/-! ## Requests, exceptions, shapes -/

/-- A Python exception: `type(exc).__name__` and `str(exc)`. -/
structure Exc where
  typeName : String
  text : String
deriving DecidableEq, Repr

structure AgentRequest where
  query : String
  productId : String := "aicoin"
  domainHint : Option String := none
  userId : Option String := none
  sessionId : Option String := none
  traceId : Option String := none
  history : List Json := []
deriving DecidableEq

/-- `type(x).__name__`. -/
def typeName : Json → String
  | .null => "NoneType"
  | .bool _ => "bool"
  | .int _ => "int"
  | .float _ => "float"
  | .str _ => "str"
  | .arr _ => "list"
  | .obj _ => "dict"

/-- The dictionary whose `get` is called next. -/
def getter : Json → Except Exc Dict
  | .obj entries => .ok entries
  | v => .error ⟨"AttributeError", "'" ++ typeName v ++ "' object has no attribute 'get'"⟩

/-- `len(x)`. -/
def pyLen : Json → Except Exc Int
  | .str s => .ok s.length
  | .arr items => .ok items.length
  | .obj entries => .ok entries.length
  | v => .error ⟨"TypeError", "object of type '" ++ typeName v ++ "' has no len()"⟩

/-- The items a `for` loop over `x` sees. -/
def iterItems : Json → Except Exc (List Json)
  | .arr items => .ok items
  | .obj entries => .ok (entries.map fun kv => .str kv.1)
  | .str s => .ok (s.toList.map fun c => .str (String.singleton c))
  | v => .error ⟨"TypeError", "'" ++ typeName v ++ "' object is not iterable"⟩

def hashable : Json → Bool
  | .arr _ | .obj _ => false
  | _ => true

/-- The element with this number, when `dict(x)` reads the pairs of `x`. -/
def updatePair (d : ScalarDict) (element : Json × ℕ) : Except Exc ScalarDict := do
  let parts ← (iterItems element.1).mapError fun _ => ⟨"TypeError",
    "cannot convert dictionary update sequence element #" ++ toString element.2
      ++ " to a sequence"⟩
  match parts with
  | [key, value] =>
      if hashable key then return d.set key value
      else .error ⟨"TypeError", "unhashable type: '" ++ typeName key ++ "'"⟩
  | _ => .error ⟨"ValueError", "dictionary update sequence element #" ++ toString element.2
      ++ " has length " ++ toString parts.length ++ "; 2 is required"⟩

/-- `dict(x)`: a copy of a dictionary, else the pairs that `x` yields. -/
def pyDict : Json → Except Exc ScalarDict
  | .obj entries => .ok (ScalarDict.ofDict entries)
  | v => do
      let elements ← iterItems v
      elements.zipIdx.foldlM updatePair []

/-- A dictionary, nothing, a pair and a text are what they are to `dict`. -/
example : ([.obj [("faq_id", .int 1)], .arr [], .arr [.arr [.str "faq_id", .str "a"], .str "xy"],
      .str "a", .int 1, .arr [.arr [.arr [], .null]]] : List Json).map
        (fun v => (pyDict v).toOption)
    = [some [(.str "faq_id", .int 1)], some [],
        some [(.str "faq_id", .str "a"), (.str "x", .str "y")], none, none, none] := by
  decide

/-! ## The store -/

structure TraceEntry where
  node : String
  action : String
  payload : Dict := []
deriving DecidableEq

/-- The `context` dictionary, its `runtime_context` entry apart. -/
structure PlannerContext where
  entries : Dict := []
  runtimeContext : Option Json := none
deriving DecidableEq

namespace PlannerContext

def ofDict (d : Dict) : PlannerContext where
  entries := d.filter fun kv => decide (kv.1 ≠ "runtime_context")
  runtimeContext := Dict.get? d "runtime_context"

def get (c : PlannerContext) (key : String) : Json :=
  if key = "runtime_context" then c.runtimeContext.getD .null else Dict.get c.entries key

def set (c : PlannerContext) (key : String) (value : Json) : PlannerContext :=
  if key = "runtime_context" then { c with runtimeContext := some value }
  else { c with entries := Dict.set c.entries key value }

end PlannerContext

structure PlannerState where
  toolCatalog : List Json
  loopMode : String := "planner"
  traceId : Option String
  runContext : Dict
  trace : List TraceEntry := []
  observability : List Dict := []
  context : PlannerContext := {}
  skills : List Json := []
  autoSkills : Json := .arr []
  sessionSkills : Json := .arr []
  skillRetrieval : Dict := []
  intent : Dict := []
  retrievedFaqs : List ScalarDict := []
  toolObservations : List Json := []
  loopCount : Int := 0
  route : Option String := none
  answer : Json := .null
  status : String := "running"
  errors : List String := []
  decision : Option Dict := none
  selfCheck : Option Dict := none
  approvalRequests : Option Json := none
deriving DecidableEq

/-- What a dependency is handed: `store.as_dict()`. -/
structure Store where
  request : AgentRequest
  state : PlannerState
deriving DecidableEq

/-! ## Dependencies -/

def plannerRoutes : List String :=
  ["faq_answer", "answer", "tool_call", "clarify", "handoff", "chat"]

/-- A decision whose route is one of the `Literal` type `Route`. -/
abbrev Decided := { d : AgentDecision // d.route ∈ plannerRoutes }

structure SelfCheckResult where
  passed : Bool
  reason : Option String := none
  revisedAnswer : Option String := none
deriving DecidableEq

structure AgentDependencies where
  loadContext : AgentRequest → Except Exc Dict
  think : Store → Except Exc Decided
  runTool : String → Dict → Store → Except Exc Dict
  selfCheck : Store → Except Exc SelfCheckResult
  loadSkills : Option (AgentRequest → PlannerContext → Except Exc Dict) := none
  runTools : Option (List Dict → Store → Except Exc Dict) := none
  toolCatalog : Option (List Json) := none
  preGuard : Option (AgentRequest → PlannerContext → Except Exc Dict) := none

/-- `make_store`. -/
def makeState (request : AgentRequest) (deps : AgentDependencies) : PlannerState where
  toolCatalog := deps.toolCatalog.getD []
  traceId := request.traceId
  runContext :=
    [("trace_id", optStr request.traceId), ("session_id", optStr request.sessionId),
      ("user_id", optStr request.userId), ("query", .str request.query)]

/-! ## Trace and observability -/

def appendTrace (s : PlannerState) (node action : String) (payload : Dict := []) :
    PlannerState :=
  { s with trace := s.trace ++ [{ node := node, action := action, payload := payload }] }

def appendObservability (s : PlannerState) (event : Dict) : PlannerState :=
  { s with observability := s.observability ++ [event] }

/-- `preview`. -/
def preview (value : Option String) : Json :=
  optStr (value.map fun text => String.ofList (text.toList.take 120))

/-- `skill_observation_summary`. -/
def skillObservationSummary (skill : Dict) : Dict :=
  let content := strip ((Dict.get skill "content").orElse (.str "")).pyStr
  let cut := String.ofList (content.toList.take 180)
  (["id", "name", "title", "skill_type", "scope", "availability", "retrieval_score",
      "injection_reason"].map fun key => (key, Dict.get skill key))
    ++ [("content_preview", .str (cut ++ if 180 < content.length then "..." else ""))]

/-! ## Loading -/

/-- The visit of a node: the new state and the action `post` returns. -/
abbrev NodeResult := Except Exc (PlannerState × String)

/-- `LoadContextNode`. -/
def loadContextNode (deps : AgentDependencies) (s : Store) : NodeResult := do
  let context ← deps.loadContext s.request
  let state := { s.state with context := .ofDict context }
  return (appendTrace state "LoadContextNode" "ok", "ok")

/-- `LoadSkillsNode.exec`: a loader that raises is reported, not propagated. -/
def loadSkillsExec (deps : AgentDependencies) (s : Store) : Dict :=
  let skipped (reason : String) : Dict :=
    [("query", .str s.request.query), ("candidates", .arr []), ("skills", .arr []),
      ("skipped", .bool true), ("reason", .str reason)]
  match deps.loadSkills with
  | none => skipped "no_skill_loader"
  | some load =>
      match load s.request s.state.context with
      | .ok result => result
      | .error exc =>
          skipped "skill_loader_error"
            ++ [("error_type", .str exc.typeName), ("error", .str exc.text)]

/-- The `skill_retrieval` event: every loaded skill has to be a dictionary. -/
def skillRetrievalPayload (request : AgentRequest) (result : Dict) : Except Exc Dict := do
  let skills ← (((Dict.get result "skills").asList?).getD []).mapM getter
  let candidates := (Dict.get result "candidates").orElse (.arr [])
  let candidateCount ← pyLen candidates
  return [("event", .str "skill_retrieval"), ("node", .str "LoadSkillsNode"),
    ("query", (Dict.get result "query").orElse (.str request.query)),
    ("product_id", .str request.productId), ("domain_hint", optStr request.domainHint),
    ("skipped", .bool (Dict.get result "skipped").truthy),
    ("reason", Dict.get result "reason"), ("error_type", Dict.get result "error_type"),
    ("error", Dict.get result "error"), ("candidate_count", .int candidateCount),
    ("candidates", candidates),
    ("skill_index", (Dict.get result "skill_index").orElse (.arr [])),
    ("previous_skill_ids", (Dict.get result "previous_skill_ids").orElse (.arr [])),
    ("injected_skill_ids", .arr (skills.map fun skill => Dict.get skill "id")),
    ("injected_skill_names", .arr (skills.map fun skill => Dict.get skill "name")),
    ("loaded_skills", .arr (skills.map fun skill => .obj (skillObservationSummary skill)))]

/-- `LoadSkillsNode.post`. -/
def loadSkillsPost (s : Store) (result : Dict) : NodeResult := do
  let payload ← skillRetrievalPayload s.request result
  let skills := ((Dict.get result "skills").asList?).getD []
  let autoSkills := (Dict.get result "auto_skills").orElse (.arr [])
  let sessionSkills := (Dict.get result "session_skills").orElse (.arr [])
  let skillIndex := (Dict.get result "skill_index").orElse (.arr [])
  let state := { s.state with
    skills := skills
    autoSkills := autoSkills
    sessionSkills := sessionSkills
    skillRetrieval := result
    context := (((s.state.context.set "skills" (.arr skills)).set "auto_skills" autoSkills).set
      "session_skills" sessionSkills).set "skill_index" skillIndex }
  return (appendObservability (appendTrace state "LoadSkillsNode" "ok" payload) payload, "ok")

/-- `LoadSkillsNode`. -/
def loadSkillsNode (deps : AgentDependencies) (s : Store) : NodeResult :=
  loadSkillsPost s (loadSkillsExec deps s)

/-- `PreGuardNode.exec`. -/
def preGuardExec (deps : AgentDependencies) (s : Store) : Except Exc Dict :=
  match deps.preGuard with
  | some guard => guard s.request s.state.context
  | none => .ok [("route_hint", .str "planner"), ("reason", .str "no_pre_guard")]

/-- The `pre_guard` event. -/
def preGuardPayload (request : AgentRequest) (context : PlannerContext) (result : Dict) :
    Except Exc Dict := do
  let historyCount ← pyLen ((context.get "history").orElse (.arr []))
  return [("event", .str "pre_guard"), ("node", .str "PreGuardNode"),
    ("query", .str request.query), ("history_count", .int historyCount),
    ("route_hint", Dict.get result "route_hint"), ("reason", Dict.get result "reason")]

/-- `PreGuardNode.post`. -/
def preGuardPost (s : Store) (result : Dict) : NodeResult := do
  let payload ← preGuardPayload s.request s.state.context result
  let state := { s.state with intent := result }
  return (appendObservability (appendTrace state "PreGuardNode" "ok" payload) payload, "ok")

/-- `PreGuardNode`. -/
def preGuardNode (deps : AgentDependencies) (s : Store) : NodeResult := do
  let result ← preGuardExec deps s
  preGuardPost s result

/-! ## Thinking -/

/-- `decision_tool_calls`. -/
def decisionToolCalls (d : AgentDecision) : List ToolCall :=
  if !d.toolCalls.isEmpty then d.toolCalls
  else
    match d.toolName with
    | some name =>
        if name ≠ "" then
          [{ callId := "tool-call-1", toolName := name, toolArgs := d.toolArgs
             reason := d.reason.map .str }]
        else []
    | none => []

/-- The dictionary `ThinkNode.post` keeps as `decision`. -/
def decisionAsDict (d : AgentDecision) : Dict :=
  [("route", .str d.route), ("answer", optStr d.answer), ("tool_name", optStr d.toolName),
    ("tool_args", .obj d.toolArgs), ("reason", optStr d.reason),
    ("tool_calls", .arr ((decisionToolCalls d).map fun call => .obj (toolCallAsDict call)))]

/-- The decision once the turn has used its iterations. -/
def cutOffDecision : Decided :=
  ⟨{ route := "handoff", answer := some "当前问题需要人工进一步处理。"
     reason := some "max_iterations_exceeded" }, by decide⟩

/-- `ThinkNode.exec`. -/
def thinkExec (maxIterations : Int) (deps : AgentDependencies) (s : Store) :
    Except Exc Decided :=
  if maxIterations < s.state.loopCount + 1 then .ok cutOffDecision else deps.think s

/-- `ThinkNode.post`. -/
def thinkPost (s : PlannerState) (d : AgentDecision) : PlannerState × String :=
  let decision := decisionAsDict d
  let state := { s with
    loopCount := s.loopCount + 1
    decision := some decision
    route := some d.route
    answer := (optStr d.answer).orElse s.answer }
  let event : Dict :=
    [("event", .str "agent_decision"), ("node", .str "ThinkNode"),
      ("loop_count", .int state.loopCount), ("route", .str d.route),
      ("reason", optStr d.reason), ("tool_name", optStr d.toolName),
      ("tool_args", .obj (safeArgs d.toolArgs)),
      ("tool_calls", .arr ((decisionToolCalls d).map fun call =>
        .obj (Dict.set (toolCallAsDict call) "tool_args" (.obj (safeArgs call.toolArgs))))),
      ("answer_preview", preview d.answer)]
  let action :=
    if d.route = "tool_call" then "tool_call"
    else if d.route = "faq_answer" ∨ d.route = "answer" then "answer"
    else d.route
  (appendObservability (appendTrace state "ThinkNode" d.route decision) event, action)

/-- `ThinkNode`. -/
def thinkNode (maxIterations : Int) (deps : AgentDependencies) (s : Store) : NodeResult := do
  let d ← thinkExec maxIterations deps s
  return thinkPost s.state d.1

/-! ## Tool batches -/

/-- `run_tool_safely`: what the runner returns wins over the call's own keys. -/
def runToolSafely (deps : AgentDependencies) (s : Store) (call : Dict) : Dict :=
  let name := (Dict.get call "tool_name").pyStr
  let args := (Dict.get call "tool_args").dictOrEmpty
  let own : Dict :=
    [("call_id", Dict.get call "call_id"), ("tool_name", Dict.get call "tool_name"),
      ("args", .obj args)]
  match deps.runTool name args s with
  | .ok result => Dict.merge own result
  | .error exc =>
      own ++ [("status", .str "error"), ("error_type", .str exc.typeName),
        ("error", .str exc.text)]

/-- The calls `ExecuteToolNode.exec` runs. -/
def batchCalls (decision : Dict) : List Dict :=
  let calls := (((Dict.get decision "tool_calls").asList?).getD []).filterMap Json.asDict?
  if calls.isEmpty ∧ (Dict.get decision "tool_name").truthy then
    [[("call_id", .str "tool-call-1"), ("tool_name", Dict.get decision "tool_name"),
      ("tool_args", (Dict.get decision "tool_args").orElse (.obj [])),
      ("reason", Dict.get decision "reason")]]
  else calls

/-- `ExecuteToolNode.exec`. -/
def executeToolExec (deps : AgentDependencies) (s : Store) : Except Exc Dict :=
  let calls := batchCalls (s.state.decision.getD [])
  if calls.isEmpty then .error ⟨"ValueError", "tool_call decision missing tool call"⟩
  else
    match deps.runTools with
    | some run => run calls s
    | none =>
        .ok [("execution_mode", .str "sequential"),
          ("results", .arr (calls.map fun call => .obj (runToolSafely deps s call)))]

/-- `exec_result["results"]` when it is a list, else the batch as its only result. -/
def batchResults (batch : Dict) : List Json :=
  ((Dict.get batch "results").asList?).getD [.obj batch]

def hasSuffix (text suffix : String) : Bool := suffix.toList.isSuffixOf text.toList

/-- `is_load_skill_tool`. -/
def isLoadSkillTool : Json → Bool
  | .str name => name = "load_skill" || hasSuffix name ".load_skill"
  | _ => false

/-- `is_search_faq_tool`. -/
def isSearchFaqTool : Json → Bool
  | .str name => name = "search_faq" || hasSuffix name ".search_faq"
  | _ => false

/-- The skill list after a tool loaded a skill; `none` when it loaded none. -/
def loadedSkills (skills : List Json) (result : Dict) : Except Exc (Option (List Json)) :=
  match (Dict.get result "output").asDict? with
  | none => .ok none
  | some output =>
      match (Dict.get output "skill").asDict? with
      | none => .ok none
      | some skill =>
          if !(Dict.get output "loaded").truthy || (Dict.get output "already_loaded").truthy then
            .ok none
          else do
            let item := Dict.set skill "availability" (.str "tool_loaded")
            let kept ← skills.filterM fun existing => do
              let entries ← getter existing
              return decide (Dict.get entries "id" ≠ Dict.get item "id")
            return some (kept ++ [.obj item])

/-- `merge_tool_loaded_skill`. -/
def mergeToolLoadedSkill (s : PlannerState) (result : Dict) : Except Exc PlannerState := do
  match ← loadedSkills s.skills result with
  | none => return s
  | some skills =>
      return { s with skills := skills, context := s.context.set "skills" (.arr skills) }

/-- The key `merge_ranked_results` keeps an item under. -/
inductive FaqKey where
  | id (faqId : Json)
  | texts (title response : Json)
deriving DecidableEq

def faqKey (item : ScalarDict) : Except Exc FaqKey :=
  let raw := if item.get "faq_id" ≠ .null then [item.get "faq_id"]
    else [item.get "title", item.get "response"]
  match raw.find? fun v => !hashable v with
  | some v => .error ⟨"TypeError", "unhashable type: '" ++ typeName v ++ "'"⟩
  | none =>
      if item.get "faq_id" ≠ .null then .ok (.id (item.get "faq_id").keyScalar)
      else .ok (.texts (item.get "title").keyScalar (item.get "response").keyScalar)

/-- A query is added to the queries an item matched. -/
def addMatched (query : String) (item : ScalarDict) : ScalarDict :=
  let matched := ((item.get "matched_queries").asList?).getD []
  item.set (.str "matched_queries")
    (.arr (if query ≠ "" ∧ Json.str query ∉ matched then matched ++ [.str query] else matched))

/-- One item of the loop of `merge_ranked_results`: an item with a known key only
adds its query to the item that is there. -/
def mergeRankedItem (merged : List (FaqKey × ScalarDict)) (ranked : String × Json) :
    Except Exc (List (FaqKey × ScalarDict)) := do
  let item ← pyDict ranked.2
  let key ← faqKey item
  if key ∈ merged.map Prod.fst then
    return merged.map fun km => if km.1 = key then (km.1, addMatched ranked.1 km.2) else km
  else
    let queries := if ranked.1 ≠ "" then [Json.str ranked.1] else []
    return merged ++ [(key, item.set (.str "matched_queries") (.arr queries))]

/-- `merge_ranked_results`: rank by rank, over all queries and their results. -/
def mergeRankedResults (faqs : List (String × List Json)) : Except Exc (List ScalarDict) := do
  let longest := (faqs.map fun qs => qs.2.length).foldl max 0
  let ranked := (List.range longest).flatMap fun rank =>
    faqs.filterMap fun qs => (qs.2[rank]?).map fun item => (qs.1, item)
  let merged ← ranked.foldlM mergeRankedItem []
  return merged.map Prod.snd

/-- The query and the ranked items of a `search_faq` result. -/
def faqResults (result : Dict) : Except Exc (Option (String × List Json)) :=
  match (Dict.get result "output").asDict? with
  | none => .ok none
  | some output =>
      match (Dict.get output "results").asList? with
      | none => .ok none
      | some items =>
          if (Dict.get output "query").truthy then
            .ok (some ((Dict.get output "query").pyStr, items))
          else do
            let args ← getter ((Dict.get result "args").orElse (.obj []))
            return some (((Dict.get args "query").orElse (.str "")).pyStr, items)

/-- What the loop over the results of a batch has gathered. -/
structure BatchFold where
  state : PlannerState
  faqs : List (String × List Json) := []

/-- The state after a result, when it is one of `load_skill`. -/
def loadResult (s : PlannerState) (result : Dict) : Except Exc PlannerState :=
  if isLoadSkillTool (Dict.get result "tool_name") then mergeToolLoadedSkill s result else .ok s

/-- What a result adds to the retrieved faqs, when it is one of `search_faq`. -/
def searchResult (result : Dict) : Except Exc (Option (String × List Json)) :=
  if isSearchFaqTool (Dict.get result "tool_name") then faqResults result else .ok none

/-- The loop body of `ExecuteToolNode.post` on one result. -/
def foldResult (acc : BatchFold) (item : Json) : Except Exc BatchFold := do
  let result ← getter item
  let state ← loadResult acc.state result
  let found ← searchResult result
  return { state := state, faqs := acc.faqs ++ found.toList }

/-- The `tool_call` event of one result. -/
def toolCallEvent (reason : Json) (result : Dict) : Except Exc Dict := do
  let args ← match (Dict.get result "args").orElse (.obj []) with
    | .obj args => .ok args
    | v => .error ⟨"AttributeError", "'" ++ typeName v ++ "' object has no attribute 'items'"⟩
  let output := (Dict.get? result "output").getD
    (.obj (result.filter fun kv => decide (kv.1 ∉ ["call_id", "tool_name"])))
  return [("event", .str "tool_call"), ("node", .str "ExecuteToolNode"),
    ("call_id", Dict.get result "call_id"), ("reason", reason),
    ("tool_name", Dict.get result "tool_name"), ("args", .obj (safeArgs args)),
    ("status", Dict.get result "status"),
    ("tool_metadata", (Dict.get result "tool_metadata").orElse (.obj [])),
    ("latency_ms", Dict.get result "latency_ms"), ("output", output),
    ("error_type", Dict.get result "error_type"), ("error", Dict.get result "error")]

/-- The payload both branches of `ExecuteToolNode.post` report. -/
def batchPayload (s : PlannerState) (batch : Dict) (mode status : String)
    (results : List Dict) : Dict :=
  [("tool_observation_count", .int s.toolObservations.length),
    ("reason", Dict.get (s.decision.getD []) "reason"),
    ("execution_mode", (Dict.get batch "execution_mode").orElse (.str mode)),
    ("call_count", .int results.length), ("latency_ms", Dict.get batch "latency_ms"),
    ("status", .str status),
    ("call_ids", .arr (results.map fun result => Dict.get result "call_id"))]

/-- The payload of a batch that waits for approval. -/
def pendingPayload (s : PlannerState) (batch : Dict) : Except Exc Dict := do
  let results ← (batchResults batch).mapM getter
  let approvals ← iterItems ((Dict.get batch "approval_requests").orElse (.arr []))
  return batchPayload s batch "approval_required" "pending_approval" results
    ++ [("approval_ids", .arr ((approvals.filterMap Json.asDict?).map
      fun request => Dict.get request "approval_id"))]

/-- `ExecuteToolNode.post` on a batch that waits for approval. -/
def pendingPost (s : PlannerState) (batch : Dict) : NodeResult := do
  let payload ← pendingPayload s batch
  let state := { s with
    status := "pending_approval"
    route := some "approval_required"
    answer := (Dict.get batch "answer").orElse (.str "该操作需要审批后继续执行。")
    approvalRequests := some ((Dict.get batch "approval_requests").orElse (.arr [])) }
  let event := [("event", Json.str "approval_required"), ("node", .str "ExecuteToolNode")]
    ++ payload
  return (appendObservability (appendTrace state "ExecuteToolNode" "pending_approval" payload)
    event, "pending_approval")

/-- The events of a batch that ran, and the action it leads to. -/
def ranEvents (s : PlannerState) (batch : Dict) : Except Exc (Dict × List Dict × String) := do
  let results ← (batchResults batch).mapM getter
  let action := if results.any fun result => Dict.get result "status" = .str "error"
    then "error" else "ok"
  let events ← results.mapM (toolCallEvent (Dict.get (s.decision.getD []) "reason"))
  return (batchPayload s batch "sequential" action results, events, action)

/-- `retrieved_faqs` after the loop. -/
def gatheredFaqs (acc : BatchFold) : Except Exc (List ScalarDict) :=
  if acc.faqs.isEmpty then .ok acc.state.retrievedFaqs else mergeRankedResults acc.faqs

/-- `ExecuteToolNode.post` on a batch that ran. -/
def ranPost (s : PlannerState) (batch : Dict) : NodeResult := do
  let acc ← (batchResults batch).foldlM foldResult { state := s }
  let faqs ← gatheredFaqs acc
  let (payload, events, action) ← ranEvents s batch
  let state := appendTrace { acc.state with retrievedFaqs := faqs } "ExecuteToolNode" action payload
  let event := [("event", Json.str "tool_batch"), ("node", .str "ExecuteToolNode")] ++ payload
  return (events.foldl appendObservability (appendObservability state event), action)

/-- `exec_result.get("status") == "pending_approval"`. -/
def batchPending (batch : Dict) : Bool :=
  Dict.get batch "status" = .str "pending_approval"

/-- `ExecuteToolNode.post`. -/
def executeToolPost (s : PlannerState) (batch : Dict) : NodeResult :=
  let observed := { s with toolObservations := s.toolObservations ++ batchResults batch }
  if batchPending batch then pendingPost observed batch else ranPost observed batch

/-- `ExecuteToolNode`. -/
def executeToolNode (deps : AgentDependencies) (s : Store) : NodeResult := do
  let batch ← executeToolExec deps s
  executeToolPost s.state batch

/-! ## The self check -/

/-- `SelfCheckNode.exec`. -/
def selfCheckExec (deps : AgentDependencies) (s : Store) : Except Exc SelfCheckResult :=
  if s.state.status = "pending_approval" then
    .ok { passed := true, reason := some "pending_approval" }
  else deps.selfCheck s

def selfCheckReport (s : PlannerState) (action : String) (check : Dict) : PlannerState :=
  appendObservability (appendTrace { s with selfCheck := some check } "SelfCheckNode" action check)
    ([("event", Json.str "self_check"), ("node", .str "SelfCheckNode")] ++ check)

/-- `SelfCheckNode.post`. -/
def selfCheckPost (s : PlannerState) (result : SelfCheckResult) : PlannerState :=
  if s.status = "pending_approval" then
    selfCheckReport s "pending_approval"
      [("passed", .bool true), ("reason", .str "pending_approval")]
  else
    let failure := if (result.reason.getD "") = "" then "self_check_failed"
      else result.reason.getD ""
    selfCheckReport
      { s with
        answer := (optStr result.revisedAnswer).orElse s.answer
        status := if result.passed then "completed" else "failed"
        errors := if result.passed then s.errors else s.errors ++ [failure] }
      "done" [("passed", .bool result.passed), ("reason", optStr result.reason)]

/-- `SelfCheckNode`. -/
def selfCheckNode (deps : AgentDependencies) (s : Store) : NodeResult := do
  let result ← selfCheckExec deps s
  return (selfCheckPost s.state result, "done")

end Aegora
