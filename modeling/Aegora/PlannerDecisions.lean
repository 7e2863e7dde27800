import Mathlib.Data.List.Infix
import Aegora.AgentLoop

/-!
# The planner's answer as a decision

`real_agent.py`: `parse_decision` reads the JSON object the model returned,
`calibrate_planner_decision` completes it from the planner state, and the
decision goes to `ExecuteToolNode` or ends the turn with its answer.

Route, tool name, tool calls and answer are read one by one. The decision
can be acted on except for two kinds of object: one whose `tool_name` is a
list or an object, which no set can be asked for, and one that asks for the
route `tool_call` and names no tool at all
(`planner_decision_executable_iff`).
-/

namespace Aegora

open Py

namespace RealAgent

/-! ## `parse_decision` -/

/-- `ROUTES`. -/
def routes : List String := ["faq_answer", "tool_call", "clarify", "handoff", "chat"]

/-- `TOOL_NAMES`. -/
def toolNames : List String :=
  ["search_faq", "lookup_faq_detail", "load_skill", "save_user_memory", "record_handoff"]

/-- The route the object asks for. -/
def askedRoute (data : Dict) : String :=
  ((Dict.get data "route").orElse (.str "faq_answer")).pyStr

/-- The route and the tool after `tool_name` was looked up in `TOOL_NAMES`. -/
def parseToolName (route : String) (toolName : Json) : Except Exc (String × Option String) :=
  match toolName with
  | .null => .ok (route, none)
  | .str name => .ok (if name ∈ toolNames then (route, some name) else ("handoff", none))
  | v =>
      if hashable v then .ok ("handoff", none)
      else .error ⟨"TypeError", "unhashable type: '" ++ typeName v ++ "'"⟩

/-- One item of `tool_calls`; an item without a known tool is passed over. -/
def parseToolCall (index : Nat) : Json → Option ToolCall
  | .obj item =>
      let name := (((Dict.get item "tool_name").orElse (Dict.get item "name")).orElse
        (.str "")).pyStr
      if name ∈ toolNames then some (runtimeToolCall name item index) else none
  | _ => none

/-- `parse_tool_calls`. -/
def parseToolCalls (value : Json) : List ToolCall :=
  match value with
  | .arr items => ((items.take 8).mapIdx parseToolCall).filterMap id
  | _ => []

/-- `parse_decision`. -/
def parseDecision (data : Dict) : Except Exc AgentDecision := do
  let asked := askedRoute data
  let known := if asked ∈ routes then asked else "faq_answer"
  let (named, toolName) ← parseToolName known (Dict.get data "tool_name")
  let toolCalls := parseToolCalls (Dict.get data "tool_calls")
  return {
    route := if Dict.get data "tool_calls" ≠ .null ∧ toolCalls = [] then "handoff" else named
    answer := (Dict.get data "answer").asStr?
    toolName := (toolCalls.head?.map ToolCall.toolName).orElse fun _ => toolName
    toolArgs := (toolCalls.head?.map ToolCall.toolArgs).getD
      (Dict.get data "tool_args").dictOrEmpty
    reason := (Dict.get data "reason").asStr?
    toolCalls := toolCalls }

/-! ## `calibrate_planner_decision` -/

/-- `AMBIGUOUS_QUERIES`. -/
def ambiguousQueries : List String :=
  ["下载", "解封", "投屏", "会员", "人工", "客服", "打不开", "不行", "怎么弄"]

/-- `is_context_dependent_query`. -/
def isContextDependentQuery (query : String) : Bool :=
  let normalized := strip query
  decide (normalized ∈ ambiguousQueries)
    || (decide (normalized.length ≤ 8)
      && ["这个", "那个", "它", "他", "她", "呢", "也", "手机", "电脑", "pc", "PC", "app",
          "APP"].any fun term => decide (term.toList <:+: normalized.toList))
    || ["那", "那么", "还有", "另外", "刚才", "上面"].any fun start =>
        start.toList.isPrefixOf normalized.toList

/-- `reversed(x)`. -/
def reversedItems (v : Json) : Except Exc (List Json) :=
  match iterItems v with
  | .ok items => .ok items.reverse
  | .error _ => .error ⟨"TypeError", "'" ++ typeName v ++ "' object is not reversible"⟩

/-- The loop of `fallback_standalone_query`: the latest question of the user
comes before the query. -/
def afterUserTurn (query : String) : List Json → Except Exc String
  | [] => .ok query
  | item :: rest => do
      let entries ← getter item
      let content := Dict.get entries "content"
      if Dict.get entries "role" = .str "user" ∧ content.truthy then
        return strip (content.pyStr ++ " " ++ query)
      else afterUserTurn query rest

/-- `fallback_standalone_query`. -/
def fallbackStandaloneQuery (query : String) (context : PlannerContext) :
    Except Exc String := do
  let items ← reversedItems ((context.get "history").orElse (.arr []))
  afterUserTurn query items

/-- `standalone_query_for_planner`. -/
def standaloneQueryForPlanner (s : Store) : Except Exc String :=
  if isContextDependentQuery s.request.query then
    fallbackStandaloneQuery s.request.query s.state.context
  else .ok s.request.query

/-- `args["query"]`, from the planner state where the call has none. -/
def fillQuery (s : Store) (args : Dict) : Except Exc Dict :=
  if strip ((Dict.get args "query").orElse (.str "")).pyStr = "" then
    (standaloneQueryForPlanner s).map fun query => Dict.set args "query" (.str query)
  else .ok args

/-- The arguments of a `search_faq` call. -/
def searchFaqArgs (s : Store) (args : Dict) : Except Exc Dict :=
  (fillQuery s args).map fun args =>
    if ArgType.int.accepts (Dict.get args "top_k") then args else Dict.set args "top_k" (.int 5)

/-- The body of the loop over the calls. -/
def calibrateCall (s : Store) (call : ToolCall) : Except Exc ToolCall :=
  if call.toolName = "search_faq" then
    (searchFaqArgs s call.toolArgs).map fun args => { call with toolArgs := args }
  else .ok call

/-- `has_answer`. -/
def hasAnswer (d : AgentDecision) : Bool :=
  match d.answer with
  | some answer => strip answer ≠ ""
  | none => false

/-- What a decision without an answer becomes. -/
def missingAnswerDecision : AgentDecision where
  route := "clarify"
  answer := some "我暂时无法生成完整回答，请补充具体问题后再试。"
  reason := some "planner_invalid_terminal_missing_answer"

/-- `calibrate_planner_decision`. -/
def calibratePlannerDecision (d : AgentDecision) (s : Store) : Except Exc AgentDecision :=
  if d.route = "tool_call" ∧ d.toolCalls ≠ [] then
    (d.toolCalls.mapM (calibrateCall s)).map fun calls =>
      { route := "tool_call"
        toolName := calls.head?.map ToolCall.toolName
        toolArgs := (calls.head?.map ToolCall.toolArgs).getD []
        toolCalls := calls
        reason := d.reason }
  else if d.route = "tool_call" ∧ d.toolName = some "search_faq" then
    (searchFaqArgs s d.toolArgs).map fun args =>
      { route := "tool_call"
        toolName := some "search_faq"
        toolArgs := args
        reason := if d.reason.getD "" = "" then some "planner_search_faq" else d.reason }
  else if d.route ≠ "tool_call" ∧ !hasAnswer d then .ok missingAnswerDecision
  else .ok d

/-- What `planner_think` makes of the model's object. -/
def plannerDecision (data : Dict) (s : Store) : Except Exc AgentDecision := do
  let d ← parseDecision data
  calibratePlannerDecision d s

/-- `load_context`, the session's skills read from the store. -/
def loadContext (sessionSkills : List Json) (request : AgentRequest) : Dict :=
  [("user_id", optStr request.userId), ("session_id", optStr request.sessionId),
    ("product_id", .str request.productId), ("domain_hint", optStr request.domainHint),
    ("history", .arr (request.history.drop (request.history.length - 8))),
    ("session_skills", .arr sessionSkills)]

/-! ## Decisions that can be acted on -/

/-- The batch runner returns on every batch, as `run_many` does, where a call
that fails is an observation. -/
def BatchesReturn (deps : AgentDependencies) : Prop :=
  ∀ run, deps.runTools = some run → ∀ calls s, ∃ batch, run calls s = .ok batch

/-- A `tool_call` decision has calls, all of known tools, and the node that
executes it does not raise; any other decision has an answer. -/
def Executable (s : Store) (d : AgentDecision) : Prop :=
  if d.route = "tool_call" then
    (decisionToolCalls d ≠ [] ∧ ∀ call ∈ decisionToolCalls d, call.toolName ∈ toolNames)
      ∧ ∀ deps, BatchesReturn deps →
          ∃ batch, executeToolExec deps ⟨s.request, (thinkPost s.state d).1⟩ = .ok batch
  else hasAnswer d = true

/-- The object asks for `tool_call` and names no tool, in neither field. -/
def NamesNoTool (data : Dict) : Prop :=
  askedRoute data = "tool_call" ∧ Dict.get data "tool_name" = .null
    ∧ Dict.get data "tool_calls" = .null

/-- The history of the conversation is a list of dictionaries, as
`AgentRequest.history` types it. -/
def HistoryOfTurns (context : PlannerContext) : Prop :=
  ∃ turns : List Dict, (context.get "history").orElse (.arr []) = .arr (turns.map .obj)

/-- `load_context` keeps the type of the request's history. -/
theorem historyOfTurns_loadContext {request : AgentRequest} (turns : List Dict)
    (h : request.history = turns.map .obj) (sessionSkills : List Json) :
    HistoryOfTurns (.ofDict (loadContext sessionSkills request)) := by
  refine ⟨turns.drop (turns.length - 8), ?_⟩
  have hget : (PlannerContext.ofDict (loadContext sessionSkills request)).get "history"
      = .arr (request.history.drop (request.history.length - 8)) := rfl
  rw [hget, h, List.length_map, ← List.map_drop]
  cases List.map Json.obj (List.drop (turns.length - 8) turns) <;> rfl

/-! ### What the node runs -/

theorem batchCalls_decisionAsDict {d : AgentDecision} (h : decisionToolCalls d ≠ []) :
    batchCalls (decisionAsDict d) = (decisionToolCalls d).map toolCallAsDict := by
  have hcalls : (((Dict.get (decisionAsDict d) "tool_calls").asList?).getD []).filterMap
      Json.asDict? = (decisionToolCalls d).map toolCallAsDict := by
    change ((decisionToolCalls d).map fun call => Json.obj (toolCallAsDict call)).filterMap
      Json.asDict? = _
    rw [List.filterMap_map, ← List.filterMap_eq_map]
    rfl
  unfold batchCalls
  rw [hcalls]
  simp [h]

theorem executeToolExec_returns {deps : AgentDependencies} {s : Store} {d : AgentDecision}
    (hdeps : BatchesReturn deps) (h : decisionToolCalls d ≠ []) :
    ∃ batch, executeToolExec deps ⟨s.request, (thinkPost s.state d).1⟩ = .ok batch := by
  have hbatch : batchCalls (((thinkPost s.state d).1).decision.getD []) ≠ [] := by
    change batchCalls (decisionAsDict d) ≠ []
    rw [batchCalls_decisionAsDict h]
    simpa using h
  unfold executeToolExec
  rw [if_neg (by simpa using hbatch)]
  cases hrun : deps.runTools with
  | none => exact ⟨_, rfl⟩
  | some run => exact hdeps run hrun _ _

theorem decisionToolCalls_of_name {d : AgentDecision} {name : String} (hcalls : d.toolCalls = [])
    (hname : d.toolName = some name) (hne : name ≠ "") :
    (decisionToolCalls d).map ToolCall.toolName = [name] := by
  unfold decisionToolCalls
  rw [hcalls, hname]
  simp [hne]

/-- A `tool_call` decision of known tools can be acted on when it names one. -/
theorem executable_toolCall_iff {s : Store} {d : AgentDecision} (hroute : d.route = "tool_call")
    (hcalls : ∀ call ∈ d.toolCalls, call.toolName ∈ toolNames)
    (hname : ∀ name ∈ d.toolName, name ∈ toolNames) :
    Executable s d ↔ ¬ (d.toolCalls = [] ∧ d.toolName = none) := by
  have hacts (hne : decisionToolCalls d ≠ [])
      (hknown : ∀ call ∈ decisionToolCalls d, call.toolName ∈ toolNames) : Executable s d := by
    unfold Executable
    rw [if_pos hroute]
    exact ⟨⟨hne, hknown⟩, fun deps hdeps => executeToolExec_returns hdeps hne⟩
  by_cases hnone : d.toolCalls = []
  · cases htool : d.toolName with
    | none =>
        refine iff_of_false (fun hexec => ?_) (fun hno => hno ⟨hnone, rfl⟩)
        unfold Executable at hexec
        rw [if_pos hroute] at hexec
        refine hexec.1.1 ?_
        simp [decisionToolCalls, hnone, htool]
    | some name =>
        have hknown := hname name htool
        have hnames := decisionToolCalls_of_name hnone htool (fun heq => by
          rw [heq] at hknown
          exact absurd hknown (by decide))
        refine iff_of_true (hacts (fun hnil => ?_) fun call hcall => ?_) fun hno => nomatch hno.2
        · rw [hnil] at hnames
          cases hnames
        · have hmem := List.mem_map_of_mem (f := ToolCall.toolName) hcall
          rw [hnames, List.mem_singleton] at hmem
          rwa [hmem]
  · have hall : decisionToolCalls d = d.toolCalls := by simp [decisionToolCalls, hnone]
    refine iff_of_true (hacts ?_ ?_) fun hno => hnone hno.1
    · rwa [hall]
    · rwa [hall]

theorem executable_of_answer {s : Store} {d : AgentDecision} (hroute : d.route ≠ "tool_call")
    (hanswer : hasAnswer d = true) : Executable s d := by
  unfold Executable
  rw [if_neg hroute]
  exact hanswer

/-! ### What was parsed -/

theorem parseToolCall_known {index : Nat} {item : Json} {call : ToolCall}
    (h : parseToolCall index item = some call) : call.toolName ∈ toolNames := by
  cases item with
  | obj item =>
      simp only [parseToolCall] at h
      split at h
      · rename_i hname
        obtain rfl := Option.some.inj h
        exact hname
      · cases h
  | _ => cases h

theorem parseToolCalls_known {value : Json} :
    ∀ call ∈ parseToolCalls value, call.toolName ∈ toolNames := by
  intro call hcall
  cases value with
  | arr items =>
      obtain ⟨parsed, hparsed, hcall⟩ := List.mem_filterMap.mp hcall
      obtain ⟨index, hindex, hitem⟩ := List.mem_mapIdx.mp hparsed
      exact parseToolCall_known (hitem.trans hcall)
  | _ => cases hcall

theorem parseToolName_ok (route : String) {value : Json} (h : hashable value = true) :
    ∃ named toolName, parseToolName route value = .ok (named, toolName)
      ∧ (∀ name ∈ toolName, name ∈ toolNames)
      ∧ (named = "tool_call" ∧ toolName = none ↔ route = "tool_call" ∧ value = .null) := by
  cases value with
  | null => exact ⟨route, none, rfl, by simp, by simp⟩
  | str name =>
      by_cases hname : name ∈ toolNames
      · exact ⟨route, some name, by simp [parseToolName, hname], by simpa using hname, by simp⟩
      · exact ⟨"handoff", none, by simp [parseToolName, hname], by simp, by simp⟩
  | arr items => cases h
  | obj entries => cases h
  | _ => exact ⟨"handoff", none, rfl, by simp, by simp⟩

theorem parseToolName_raises (route : String) {value : Json} (h : ¬ hashable value = true) :
    ∃ exc, parseToolName route value = .error exc := by
  cases value with
  | arr items => exact ⟨_, rfl⟩
  | obj entries => exact ⟨_, rfl⟩
  | _ => exact absurd rfl h

/-- A parsed decision names known tools only, and it names none on the route
`tool_call` exactly when the object names none. -/
theorem parseDecision_ok {data : Dict} (h : hashable (Dict.get data "tool_name") = true) :
    ∃ d, parseDecision data = .ok d
      ∧ (∀ call ∈ d.toolCalls, call.toolName ∈ toolNames)
      ∧ (∀ name ∈ d.toolName, name ∈ toolNames)
      ∧ (d.route = "tool_call" ∧ d.toolCalls = [] ∧ d.toolName = none ↔ NamesNoTool data) := by
  obtain ⟨named, toolName, hname, hknown, hbare⟩ := parseToolName_ok
    (if askedRoute data ∈ routes then askedRoute data else "faq_answer") h
  have hasked : (if askedRoute data ∈ routes then askedRoute data else "faq_answer")
      = "tool_call" ↔ askedRoute data = "tool_call" := by
    split
    · rfl
    · rename_i hroute
      have hne : askedRoute data ≠ "tool_call" := fun heq => hroute (heq ▸ by decide)
      simp [hne]
  rw [hasked] at hbare
  unfold parseDecision
  dsimp only
  rw [hname]
  refine ⟨_, rfl, parseToolCalls_known, ?_, ?_⟩
  · cases hcalls : parseToolCalls (Dict.get data "tool_calls") with
    | nil => exact hknown
    | cons first rest =>
        intro name hfirst
        obtain rfl := Option.some.inj hfirst
        exact parseToolCalls_known first (by rw [hcalls]; exact List.mem_cons_self)
  · by_cases hnull : Dict.get data "tool_calls" = .null
    · have hnone : parseToolCalls .null = [] := rfl
      simpa [NamesNoTool, hnull, hnone] using hbare
    · refine iff_of_false ?_ fun hno => hnull hno.2.2
      rintro ⟨hroute, hcalls, -⟩
      rw [if_pos ⟨hnull, hcalls⟩] at hroute
      have hne : "handoff" ≠ "tool_call" := by decide
      exact hne hroute

/-! ### What calibration makes of it -/

theorem afterUserTurn_returns (query : String) (turns : List Dict) :
    ∃ text, afterUserTurn query (turns.map .obj) = .ok text := by
  induction turns with
  | nil => exact ⟨query, rfl⟩
  | cons turn turns ih =>
      simp only [List.map_cons, afterUserTurn, getter, bind, Except.bind]
      split
      · exact ⟨_, rfl⟩
      · exact ih

theorem standaloneQuery_returns {s : Store} (h : HistoryOfTurns s.state.context) :
    ∃ query, standaloneQueryForPlanner s = .ok query := by
  obtain ⟨turns, hturns⟩ := h
  unfold standaloneQueryForPlanner
  split
  · unfold fallbackStandaloneQuery
    rw [hturns]
    simp only [reversedItems, iterItems, bind, Except.bind, ← List.map_reverse]
    exact afterUserTurn_returns _ _
  · exact ⟨_, rfl⟩

theorem searchFaqArgs_returns {s : Store} (h : HistoryOfTurns s.state.context) (args : Dict) :
    ∃ filled, searchFaqArgs s args = .ok filled := by
  obtain ⟨query, hquery⟩ := standaloneQuery_returns h
  unfold searchFaqArgs fillQuery
  split
  · rw [hquery]; exact ⟨_, rfl⟩
  · exact ⟨_, rfl⟩

/-- Calibration keeps the tool of a call. -/
theorem calibrateCall_returns {s : Store} (h : HistoryOfTurns s.state.context)
    (call : ToolCall) :
    ∃ calibrated, calibrateCall s call = .ok calibrated
      ∧ calibrated.toolName = call.toolName := by
  obtain ⟨filled, hfilled⟩ := searchFaqArgs_returns h call.toolArgs
  unfold calibrateCall
  split
  · rw [hfilled]; exact ⟨_, rfl, rfl⟩
  · exact ⟨_, rfl, rfl⟩

theorem calibrateCalls_return {s : Store} (h : HistoryOfTurns s.state.context)
    (calls : List ToolCall) :
    ∃ calibrated, calls.mapM (calibrateCall s) = .ok calibrated
      ∧ calibrated.map ToolCall.toolName = calls.map ToolCall.toolName := by
  induction calls with
  | nil => exact ⟨[], rfl, rfl⟩
  | cons call calls ih =>
      obtain ⟨first, hfirst, hname⟩ := calibrateCall_returns h call
      obtain ⟨rest, hrest, hnames⟩ := ih
      refine ⟨first :: rest, ?_, ?_⟩
      · rw [List.mapM_cons, hfirst]
        simp only [hrest, bind, Except.bind, pure, Except.pure]
      · rw [List.map_cons, List.map_cons, hname, hnames]

/-- A decision that names known tools only can be acted on once calibrated,
unless it asks for a tool call and names none. -/
theorem calibrate_executable_iff {s : Store} {d : AgentDecision}
    (h : HistoryOfTurns s.state.context) (hcalls : ∀ call ∈ d.toolCalls, call.toolName ∈ toolNames)
    (hname : ∀ name ∈ d.toolName, name ∈ toolNames) :
    ∃ calibrated, calibratePlannerDecision d s = .ok calibrated
      ∧ (Executable s calibrated
        ↔ ¬ (d.route = "tool_call" ∧ d.toolCalls = [] ∧ d.toolName = none)) := by
  unfold calibratePlannerDecision
  by_cases hroute : d.route = "tool_call"
  · by_cases hnone : d.toolCalls = []
    · rw [if_neg (fun hboth => hboth.2 hnone)]
      by_cases hsearch : d.toolName = some "search_faq"
      · obtain ⟨filled, hfilled⟩ := searchFaqArgs_returns h d.toolArgs
        rw [if_pos ⟨hroute, hsearch⟩, hfilled]
        refine ⟨_, rfl, (executable_toolCall_iff rfl ?_ ?_).trans ?_⟩
        · intro call hcall
          cases hcall
        · simp [toolNames]
        · simp [hsearch]
      · rw [if_neg (fun hboth => hsearch hboth.2), if_neg (fun hboth => hboth.1 hroute)]
        refine ⟨d, rfl, (executable_toolCall_iff hroute hcalls hname).trans ?_⟩
        simp [hroute]
    · obtain ⟨calibrated, hcalibrated, hnames⟩ := calibrateCalls_return h d.toolCalls
      rw [if_pos ⟨hroute, hnone⟩, hcalibrated]
      have hne : calibrated ≠ [] := fun hnil => hnone (by simpa [hnil] using hnames.symm)
      have hknown : ∀ call ∈ calibrated, call.toolName ∈ toolNames := by
        intro call hcall
        have hmem := List.mem_map_of_mem (f := ToolCall.toolName) hcall
        rw [hnames] at hmem
        obtain ⟨original, horiginal, heq⟩ := List.mem_map.mp hmem
        exact heq ▸ hcalls original horiginal
      refine ⟨_, rfl, (executable_toolCall_iff rfl hknown ?_).trans ?_⟩
      · intro name hfirst
        obtain ⟨first, hhead, rfl⟩ := Option.map_eq_some_iff.mp hfirst
        exact hknown first (List.mem_of_mem_head? hhead)
      · exact iff_of_true (fun hno => hne hno.1) fun hno => hnone hno.2.1
  · rw [if_neg (fun hboth => hroute hboth.1), if_neg (fun hboth => hroute hboth.1)]
    by_cases hanswer : hasAnswer d = true
    · rw [if_neg (by simp [hanswer])]
      exact ⟨d, rfl, iff_of_true (executable_of_answer hroute hanswer) fun hno => hroute hno.1⟩
    · rw [if_pos ⟨hroute, by simpa using hanswer⟩]
      exact ⟨_, rfl, iff_of_true (executable_of_answer (by decide) (by decide +kernel))
        fun hno => hroute hno.1⟩

/-! ## Which objects become an executable decision -/

/-- The decision made of the model's object can be acted on exactly when
`tool_name` is neither a list nor an object and the object does not ask for
`tool_call` without naming a tool. -/
theorem planner_decision_executable_iff (data : Dict) (s : Store)
    (h : HistoryOfTurns s.state.context) :
    (∃ d, plannerDecision data s = .ok d ∧ Executable s d)
      ↔ hashable (Dict.get data "tool_name") = true ∧ ¬ NamesNoTool data := by
  by_cases hhash : hashable (Dict.get data "tool_name") = true
  · obtain ⟨d, hd, hcalls, hname, hbare⟩ := parseDecision_ok hhash
    obtain ⟨calibrated, hcalibrated, hexec⟩ := calibrate_executable_iff h hcalls hname
    have hdecision : plannerDecision data s = .ok calibrated := by
      unfold plannerDecision
      rw [hd]
      exact hcalibrated
    rw [hdecision, ← hbare, ← hexec]
    simp [hhash]
  · obtain ⟨exc, hexc⟩ := parseToolName_raises
      (if askedRoute data ∈ routes then askedRoute data else "faq_answer") hhash
    have hraises : plannerDecision data s = .error exc := by
      unfold plannerDecision parseDecision
      dsimp only
      rw [hexc]
      rfl
    rw [hraises]
    simp [hhash]

/-- The planner's store on a follow-up question. -/
def followUp : Store where
  request := { query := "还有吗" }
  state := { toolCatalog := [], traceId := none, runContext := []
             context := .ofDict (loadContext []
               { query := "还有吗", history := [.obj [("role", .str "user"),
                  ("content", .str "怎么设置预警")]] }) }

theorem planner_decision_executable_search :
    ∃ d, plannerDecision [("route", .str "tool_call"), ("tool_name", .str "search_faq")] followUp
      = .ok d ∧ Executable followUp d :=
  (planner_decision_executable_iff _ followUp
    (historyOfTurns_loadContext [[("role", .str "user"), ("content", .str "怎么设置预警")]] rfl
      [])).mpr ⟨by decide, fun hno => absurd hno.2.1 (by decide)⟩

/-- `{"route": "tool_call"}` reaches `ExecuteToolNode` without a call. -/
theorem bare_tool_call_raises :
    ∃ d, plannerDecision [("route", .str "tool_call")] followUp = .ok d
      ∧ d.route = "tool_call" ∧ decisionToolCalls d = []
      ∧ ¬ Executable followUp d
      ∧ ∀ deps, executeToolExec deps ⟨followUp.request, (thinkPost followUp.state d).1⟩
          = .error ⟨"ValueError", "tool_call decision missing tool call"⟩ :=
  ⟨{ route := "tool_call" }, by decide +kernel, rfl, rfl,
    fun hexec => hexec.1.1 rfl, fun _ => rfl⟩

end RealAgent

end Aegora
