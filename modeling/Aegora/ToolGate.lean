import Aegora.ToolExecutor

/-!
# From a model decision to the handlers it reaches

The path of one tool batch of a configured turn: `parseConfiguredDecision`
reads the JSON object the model returned, `ApprovalGate.runMany` looks for
a call that needs approval, and only a batch without one reaches
`RuntimeToolExecutor.run_many`.

The gate and the executor resolve a call's tool separately. The gate looks
the name up as the decision gives it, the executor strips it first. The two
agree on every batch exactly when no registered id is the stripped form of
another one with a laxer policy (`StripStable`), which is what the last
section proves.
-/

namespace Aegora

open Py

/-! ## The tools of a runtime context -/

/-- `runtime_tools`, and the comprehension of `ApprovalGate.__init__`: the
dictionaries with a truthy `tool_id`, under `str(tool_id)`. -/
def runtimeTools (tools : List Json) : List (String × Dict) :=
  tools.filterMap fun tool =>
    tool.asDict?.bind fun entries =>
      let toolId := Dict.get entries "tool_id"
      if toolId.truthy then some (toolId.pyStr, entries) else none

def writeSideEffects : List String :=
  ["internal_write", "external_write", "destructive"]

/-- `tool_requires_approval`. -/
def toolRequiresApproval (tool : Dict) : Bool :=
  (Dict.get tool "requires_approval").truthy
    || decide (((Dict.get tool "side_effect_level").orElse (.str "none")).pyStr
        ∈ writeSideEffects)

/-- `tool_spec_from_config`. The handler dispatches to the implementation of
the manifest, which is a parameter. -/
def toolSpecFromConfig (dispatch : Dict → ToolHandler) (toolId : String)
    (tool : Dict) : ToolSpec where
  name := toolId
  handler := dispatch tool
  metadata :=
    { readOnly := ((Dict.get? tool "read_only").getD (.bool true)).truthy
      parallelSafe := ((Dict.get? tool "parallel_safe").getD (.bool true)).truthy
      idempotent := ((Dict.get? tool "idempotent").getD (.bool true)).truthy
      sideEffects :=
        ((Dict.get tool "side_effect_level").orElse (.str "unspecified")).pyStr }

/-- `build_runtime_tool_executor`: two tools of one name do not register. -/
def buildRuntimeToolExecutor (dispatch : Dict → ToolHandler)
    (tools : List (String × Dict)) : Except String (List ToolSpec) :=
  tools.foldlM
    (fun specs tool => register specs (toolSpecFromConfig dispatch tool.1 tool.2)) []

/-! ## The decision -/

structure ToolCall where
  callId : String
  toolName : String
  toolArgs : Dict
  reason : Option Json := none
deriving DecidableEq

structure AgentDecision where
  route : String
  answer : Option String := none
  toolName : Option String := none
  toolArgs : Dict := []
  reason : Option String := none
  toolCalls : List ToolCall := []
deriving DecidableEq

/-- The `ToolCall` built from the dictionary `entries` at position `index`. -/
def runtimeToolCall (name : String) (entries : Dict) (index : Nat) : ToolCall where
  callId := ((Dict.get entries "call_id").orElse
    (.str ("tool-call-" ++ toString (index + 1)))).pyStr
  toolName := name
  toolArgs :=
    match (Dict.get entries "tool_args").asDict? with
    | some args => args
    | none => ((Dict.get entries "args").asDict?).getD []
  reason := (Dict.get entries "reason").asStr?.map .str

/-- The loop of `parse_runtime_tool_calls` from position `index` on; `none`
when an item names a tool that is not allowed. -/
def parseRuntimeToolItems (allowed : List String) :
    List Json → Nat → Option (List ToolCall)
  | [], _ => some []
  | .obj entries :: rest, index =>
      let name := (((Dict.get entries "tool_name").orElse
        (Dict.get entries "name")).orElse (.str "")).pyStr
      if name ∈ allowed then
        (parseRuntimeToolItems allowed rest (index + 1)).map
          (runtimeToolCall name entries index :: ·)
      else none
  | _ :: rest, index => parseRuntimeToolItems allowed rest (index + 1)

/-- `parse_runtime_tool_calls`: at most eight items are read. -/
def parseRuntimeToolCalls (value : Json) (allowed : List String) : List ToolCall :=
  match value with
  | .arr items => (parseRuntimeToolItems allowed (items.take 8) 0).getD []
  | _ => []

def configuredRoutes : List String :=
  ["tool_call", "answer", "clarify", "handoff", "chat"]

/-- The route `parse_configured_decision` works with. -/
def configuredRoute (data : Dict) : String :=
  let route := ((Dict.get data "route").orElse (.str "answer")).pyStr
  let route := if route = "faq_answer" then "answer" else route
  if route ∈ configuredRoutes then route else "answer"

/-- The calls of a `tool_call` decision, or the refusal of an unknown tool. -/
def configuredToolCalls (data : Dict) (allowed : List String) :
    Except AgentDecision (List ToolCall) :=
  let calls := parseRuntimeToolCalls (Dict.get data "tool_calls") allowed
  match calls, (Dict.get data "tool_name").asStr? with
  | [], some name =>
      if name ∈ allowed then
        .ok [{ callId := "tool-call-1", toolName := name
               toolArgs := ((Dict.get data "tool_args").asDict?).getD []
               reason := Dict.get? data "reason" }]
      else
        .error { route := "answer"
                 answer := some ("工具 " ++ name ++ " 未获授权，无法执行该操作。")
                 reason := some ("unknown_tool_requested:" ++ name) }
  | calls, _ => .ok calls

/-- `parse_configured_decision`. -/
def parseConfiguredDecision (data : Dict) (allowed : List String) : AgentDecision :=
  let route := configuredRoute data
  let reason := (Dict.get data "reason").asStr?
  if route = "tool_call" then
    match configuredToolCalls data allowed with
    | .error refused => refused
    | .ok [] =>
        { route := "answer", answer := some "未提供可执行工具调用。"
          reason := some "empty_tool_call" }
    | .ok (first :: rest) =>
        { route := "tool_call", toolName := some first.toolName
          toolArgs := first.toolArgs, toolCalls := first :: rest, reason := reason }
  else
    let answer := ((Dict.get data "answer").asStr?).getD ""
    if strip answer = "" then
      { route := "clarify", answer := some "我需要更多信息才能继续处理。"
        reason := reason }
    else { route := route, answer := some (strip answer), reason := reason }

/-- `tool_call_as_dict`. -/
def toolCallAsDict (call : ToolCall) : Dict :=
  [("call_id", .str call.callId), ("tool_name", .str call.toolName),
    ("tool_args", .obj call.toolArgs), ("reason", call.reason.getD .null)]

/-! ## The gate -/

/-- `self.tool_by_id.get(str(call.get("tool_name") or ""))`. -/
def gateTool (tools : List (String × Dict)) (call : Dict) : Option Dict :=
  tools.lookup ((Dict.get call "tool_name").orElse (.str "")).pyStr

def callNeedsApproval (tools : List (String × Dict)) (call : Dict) : Bool :=
  match gateTool tools call with
  | some tool => toolRequiresApproval tool
  | none => false

/-- The call an approval is created for: the first that needs one. -/
def pendingCall (tools : List (String × Dict)) (calls : List Dict) : Option Dict :=
  calls.find? (callNeedsApproval tools)

inductive GateOutcome where
  | pendingApproval (call : Dict)
  | executed (batch : BatchResult)

/-- `ApprovalGate.run_many` with an approval store, over the executor. -/
def gateRunMany (tools : List (String × Dict)) (specs : List ToolSpec)
    (hooks : ToolLifecycleHooks) (calls : List Dict) : GateOutcome :=
  match pendingCall tools calls with
  | some call => .pendingApproval call
  | none => .executed (runMany specs hooks calls)

def GateOutcome.invoked : GateOutcome → List Invocation
  | .pendingApproval _ => []
  | .executed batch => batch.invoked

/-- `configured_planner_think` and `ExecuteToolNode` on one model answer: the
names of the catalog are the allowed tools. -/
def runDecision (tools : List (String × Dict)) (specs : List ToolSpec)
    (hooks : ToolLifecycleHooks) (data : Dict) : GateOutcome :=
  let decision := parseConfiguredDecision data (specs.map ToolSpec.name)
  gateRunMany tools specs hooks (decision.toolCalls.map toolCallAsDict)

/-! ## When the two name lookups agree -/

/-- A call of the batch needs approval as the gate sees it. -/
def HasPending (tools : List (String × Dict)) (calls : List ToolCall) : Prop :=
  ∃ call ∈ calls, ∃ tool, (call.toolName, tool) ∈ tools
    ∧ toolRequiresApproval tool = true

/-- No tool that needs approval has its handler invoked, and a batch with a
call that needs approval invokes no handler. -/
def BatchSafe (tools : List (String × Dict)) (specs : List ToolSpec)
    (hooks : ToolLifecycleHooks) (data : Dict) : Prop :=
  let invoked := (runDecision tools specs hooks data).invoked
  let calls := (parseConfiguredDecision data (specs.map ToolSpec.name)).toolCalls
  (∀ inv ∈ invoked, ∀ tool, (inv.tool, tool) ∈ tools →
      toolRequiresApproval tool = false)
    ∧ (HasPending tools calls → invoked = [])

/-- A tool registered under the stripped form of another id needs approval
only when the other one does too. -/
def StripStable (tools : List (String × Dict)) : Prop :=
  ∀ a ∈ tools, ∀ b ∈ tools, strip a.1 = b.1 →
    toolRequiresApproval b.2 = true → toolRequiresApproval a.2 = true

/-- The hooks of `build_configured_dependencies`: the tool log is written
after a call and on an error, and `safe_write_tool_log` never raises. -/
def configuredHooks (toolLogDbEnabled : Bool) : ToolLifecycleHooks :=
  if toolLogDbEnabled then
    { afterCall := [fun _ => .ok ()], onError := [fun _ => .ok ()] }
  else {}

@[simp] theorem configuredHooks_beforeCall (toolLog : Bool) :
    (configuredHooks toolLog).beforeCall = [] := by
  cases toolLog <;> rfl

/-! ### The registry and the parsed calls -/

theorem buildRuntimeToolExecutor_ok (dispatch : Dict → ToolHandler)
    {tools : List (String × Dict)} (h : (tools.map Prod.fst).Nodup) :
    buildRuntimeToolExecutor dispatch tools
      = .ok (tools.map fun t => toolSpecFromConfig dispatch t.1 t.2) := by
  have go : ∀ (rest : List (String × Dict)) (acc : List ToolSpec),
      (rest.map Prod.fst).Nodup →
      (∀ t ∈ rest, ∀ spec ∈ acc, spec.name ≠ t.1) →
      rest.foldlM (fun specs tool =>
          register specs (toolSpecFromConfig dispatch tool.1 tool.2)) acc
        = .ok (acc ++ rest.map fun t => toolSpecFromConfig dispatch t.1 t.2) := by
    intro rest
    induction rest with
    | nil => intro acc _ _; simp [pure, Except.pure]
    | cons t rest ih =>
        intro acc hnodup hfresh
        obtain ⟨hnot, hnodup⟩ := List.nodup_cons.mp hnodup
        have hreg : register acc (toolSpecFromConfig dispatch t.1 t.2)
            = .ok (acc ++ [toolSpecFromConfig dispatch t.1 t.2]) := by
          refine if_neg ?_
          rw [Bool.not_eq_true, List.any_eq_false]
          intro spec hspec
          exact fun heq => hfresh t List.mem_cons_self spec hspec (of_decide_eq_true heq)
        rw [List.foldlM_cons, hreg]
        simp only [bind, Except.bind]
        rw [ih _ hnodup ?_]
        · simp
        · intro u hu spec hspec
          rcases List.mem_append.mp hspec with hold | hnew
          · exact hfresh u (List.mem_cons_of_mem _ hu) spec hold
          · obtain rfl := List.mem_singleton.mp hnew
            intro heq
            exact hnot (List.mem_map.mpr ⟨u, hu, heq.symm⟩)
  simpa [buildRuntimeToolExecutor] using go tools [] h (by simp)

/-- A configured tool is tried once. -/
theorem buildRuntimeToolExecutor_maxRetries {dispatch : Dict → ToolHandler}
    {tools : List (String × Dict)} {specs : List ToolSpec}
    (h : buildRuntimeToolExecutor dispatch tools = .ok specs) :
    ∀ spec ∈ specs, spec.maxRetries = 1 := by
  have go : ∀ (rest : List (String × Dict)) (acc : List ToolSpec),
      (∀ spec ∈ acc, spec.maxRetries = 1) →
      rest.foldlM (fun specs tool =>
          register specs (toolSpecFromConfig dispatch tool.1 tool.2)) acc = .ok specs →
      ∀ spec ∈ specs, spec.maxRetries = 1 := by
    intro rest
    induction rest with
    | nil =>
        intro acc hacc hok
        cases hok
        exact hacc
    | cons t rest ih =>
        intro acc hacc hok
        rw [List.foldlM_cons] at hok
        obtain ⟨next, hnext, hok⟩ := bind_eq_ok.mp hok
        unfold register at hnext
        split at hnext
        · cases hnext
        · cases hnext
          refine ih _ (fun spec hspec => ?_) hok
          rcases List.mem_append.mp hspec with hold | hnew
          · exact hacc spec hold
          · obtain rfl := List.mem_singleton.mp hnew
            rfl
  exact go tools [] (by simp) h

theorem parseRuntimeToolItems_allowed {allowed : List String} {items : List Json}
    {index : Nat} {calls : List ToolCall}
    (h : parseRuntimeToolItems allowed items index = some calls) :
    ∀ call ∈ calls, call.toolName ∈ allowed := by
  induction items generalizing index calls with
  | nil => cases h; simp
  | cons item rest ih =>
      cases item with
      | obj entries =>
          simp only [parseRuntimeToolItems] at h
          split at h
          · rename_i hname
            obtain ⟨tail, htail, rfl⟩ := Option.map_eq_some_iff.mp h
            intro call hcall
            rcases List.mem_cons.mp hcall with rfl | hcall
            · exact hname
            · exact ih htail call hcall
          · simp at h
      | _ => exact ih h

/-- A parsed call names an allowed tool. -/
theorem parseRuntimeToolCalls_allowed {value : Json} {allowed : List String} :
    ∀ call ∈ parseRuntimeToolCalls value allowed, call.toolName ∈ allowed := by
  intro call h
  unfold parseRuntimeToolCalls at h
  split at h
  · rename_i items
    cases hparse : parseRuntimeToolItems allowed (items.take 8) 0 with
    | none => simp [hparse] at h
    | some calls => exact parseRuntimeToolItems_allowed hparse call (by simpa [hparse] using h)
  · simp at h

theorem configuredToolCalls_allowed {data : Dict} {allowed : List String}
    {calls : List ToolCall} (h : configuredToolCalls data allowed = .ok calls) :
    ∀ call ∈ calls, call.toolName ∈ allowed := by
  unfold configuredToolCalls at h
  dsimp only at h
  split at h
  · split at h
    · rename_i hname
      cases h
      simpa using hname
    · cases h
  · cases h
    exact parseRuntimeToolCalls_allowed

theorem parseConfiguredDecision_allowed (data : Dict) (allowed : List String) :
    ∀ call ∈ (parseConfiguredDecision data allowed).toolCalls,
      call.toolName ∈ allowed := by
  intro call hcall
  unfold parseConfiguredDecision at hcall
  dsimp only at hcall
  split at hcall
  · split at hcall
    · rename_i refused hrefused
      unfold configuredToolCalls at hrefused
      dsimp only at hrefused
      split at hrefused
      · split at hrefused <;> cases hrefused
        simp at hcall
      · cases hrefused
    · simp at hcall
    · rename_i first rest hcalls
      exact configuredToolCalls_allowed hcalls call hcall
  · split at hcall <;> simp at hcall

/-! ### The gate's lookup and the executor's -/

/-- `callNeedsApproval` is about the name exactly as the decision gives it. -/
theorem callNeedsApproval_iff {tools : List (String × Dict)}
    (h : (tools.map Prod.fst).Nodup) (call : ToolCall) :
    callNeedsApproval tools (toolCallAsDict call) = true
      ↔ ∃ tool, (call.toolName, tool) ∈ tools ∧ toolRequiresApproval tool = true := by
  have hname : ((Dict.get (toolCallAsDict call) "tool_name").orElse (.str "")).pyStr
      = call.toolName := by
    by_cases hempty : call.toolName = "" <;>
      simp [toolCallAsDict, Dict.get, Dict.get?_cons, Json.orElse, hempty]
  unfold callNeedsApproval gateTool
  rw [hname]
  cases hlookup : tools.lookup call.toolName with
  | none =>
      have hno : ∀ tool, (call.toolName, tool) ∉ tools := fun tool hmem => by
        rw [(lookup_eq_some_iff_mem h).mpr hmem] at hlookup
        cases hlookup
      simp [hno]
  | some tool =>
      constructor
      · exact fun hneeds => ⟨tool, (lookup_eq_some_iff_mem h).mp hlookup, hneeds⟩
      · rintro ⟨other, hmem, hneeds⟩
        rw [(lookup_eq_some_iff_mem h).mpr hmem] at hlookup
        cases hlookup
        exact hneeds

/-- The executor works with the stripped name. -/
theorem normalizeToolCall_toolName (call : ToolCall) (index : Nat) :
    (normalizeToolCall (toolCallAsDict call) index).toolName = strip call.toolName := by
  by_cases hempty : call.toolName = "" <;>
    simp [normalizeToolCall, toolCallAsDict, Dict.get, Dict.get?_cons, Json.orElse, hempty]

/-! ### The batches that are safe -/

section Registered

variable {tools : List (String × Dict)} {dispatch : Dict → ToolHandler}
  {hooks : ToolLifecycleHooks}

/-- The table `buildRuntimeToolExecutor` returns for `tools`. -/
def configuredSpecs (dispatch : Dict → ToolHandler) (tools : List (String × Dict)) :
    List ToolSpec :=
  tools.map fun t => toolSpecFromConfig dispatch t.1 t.2

@[simp] theorem configuredSpecs_name :
    (configuredSpecs dispatch tools).map ToolSpec.name = tools.map Prod.fst := by
  simp [configuredSpecs, toolSpecFromConfig]

theorem getTool_configuredSpecs {name : String} {tool : Dict}
    (hmem : (name, tool) ∈ tools) :
    ∃ spec, getTool (configuredSpecs dispatch tools) name = some spec
      ∧ spec.inputSchema = [] ∧ 0 < spec.maxRetries := by
  have hsome : (getTool (configuredSpecs dispatch tools) name).isSome := by
    rw [getTool, List.find?_isSome]
    exact ⟨_, List.mem_map_of_mem hmem, by simp [toolSpecFromConfig]⟩
  obtain ⟨spec, hspec⟩ := Option.isSome_iff_exists.mp hsome
  obtain ⟨t, _, rfl⟩ := List.mem_map.mp (getTool_name hspec).1
  exact ⟨_, hspec, rfl, Nat.one_pos⟩

theorem gateRunMany_pending (h : (tools.map Prod.fst).Nodup) {specs : List ToolSpec}
    {calls : List ToolCall} (hpending : HasPending tools calls) :
    (gateRunMany tools specs hooks (calls.map toolCallAsDict)).invoked = [] := by
  obtain ⟨call, hcall, hneeds⟩ := hpending
  have hsome : (pendingCall tools (calls.map toolCallAsDict)).isSome := by
    rw [pendingCall, List.find?_isSome]
    exact ⟨_, List.mem_map_of_mem hcall, (callNeedsApproval_iff h call).mpr hneeds⟩
  obtain ⟨pending, hfind⟩ := Option.isSome_iff_exists.mp hsome
  simp [gateRunMany, hfind, GateOutcome.invoked]

theorem gateRunMany_executed (h : (tools.map Prod.fst).Nodup) {specs : List ToolSpec}
    {calls : List ToolCall} (hclear : ¬ HasPending tools calls) :
    gateRunMany tools specs hooks (calls.map toolCallAsDict)
      = .executed (runMany specs hooks (calls.map toolCallAsDict)) := by
  have hnone : pendingCall tools (calls.map toolCallAsDict) = none := by
    rw [pendingCall, List.find?_eq_none]
    intro d hd hneeds
    obtain ⟨call, hcall, rfl⟩ := List.mem_map.mp hd
    exact hclear ⟨call, hcall, (callNeedsApproval_iff h call).mp hneeds⟩
  rw [gateRunMany, hnone]

/-- The handlers a batch past the gate invokes: the registered ones among the
stripped names of its calls. -/
theorem runMany_tool_iff (hbefore : hooks.beforeCall = []) {calls : List ToolCall}
    {name : String} {tool : Dict} (hmem : (name, tool) ∈ tools) :
    (∃ inv ∈ (runMany (configuredSpecs dispatch tools) hooks
        (calls.map toolCallAsDict)).invoked, inv.tool = name)
      ↔ ∃ call ∈ calls, strip call.toolName = name := by
  constructor
  · rintro ⟨inv, hinv, rfl⟩
    obtain ⟨d, hd, index, htool, -⟩ := runMany_invoked inv hinv
    obtain ⟨call, hcall, rfl⟩ := List.mem_map.mp hd
    exact ⟨call, hcall, by rw [htool, normalizeToolCall_toolName]⟩
  · rintro ⟨call, hcall, hname⟩
    obtain ⟨spec, hget, hschema, hretries⟩ := getTool_configuredSpecs hmem
    exact runMany_invokes hget hschema hbefore hretries (List.mem_map_of_mem hcall)
      fun index => by rw [normalizeToolCall_toolName, hname]

/-- A call that strips to the id of a tool needing approval comes with a call
the gate stops at. -/
def NamesAligned (tools : List (String × Dict)) (data : Dict) : Prop :=
  let calls := (parseConfiguredDecision data (tools.map Prod.fst)).toolCalls
  ∀ call ∈ calls, ∀ tool, (strip call.toolName, tool) ∈ tools →
    toolRequiresApproval tool = true → HasPending tools calls

theorem batchSafe_iff (h : (tools.map Prod.fst).Nodup)
    (hbefore : hooks.beforeCall = []) (data : Dict) :
    BatchSafe tools (configuredSpecs dispatch tools) hooks data
      ↔ NamesAligned tools data := by
  unfold BatchSafe NamesAligned runDecision
  dsimp only
  rw [configuredSpecs_name]
  generalize (parseConfiguredDecision data (tools.map Prod.fst)).toolCalls = calls
  by_cases hpending : HasPending tools calls
  · simp [gateRunMany_pending h hpending, hpending]
  · simp only [gateRunMany_executed h hpending, GateOutcome.invoked]
    constructor
    · rintro ⟨hsafe, -⟩ call hcall tool hmem hneeds
      obtain ⟨inv, hinv, hname⟩ :=
        (runMany_tool_iff hbefore hmem).mpr ⟨call, hcall, rfl⟩
      rw [hsafe inv hinv tool (hname ▸ hmem)] at hneeds
      cases hneeds
    · refine fun haligned => ⟨fun inv hinv tool hmem => ?_, fun hneeds => absurd hneeds hpending⟩
      obtain ⟨call, hcall, hname⟩ := (runMany_tool_iff hbefore hmem).mp ⟨inv, hinv, rfl⟩
      rw [← hname] at hmem
      exact Bool.eq_false_iff.mpr fun hneeds =>
        hpending (haligned call hcall tool hmem hneeds)

/-- The decision that asks for one tool by its id. -/
def singleCallDecision (toolId : String) : Dict :=
  [("route", .str "tool_call"), ("tool_name", .str toolId)]

theorem parseConfiguredDecision_single {toolId : String} {allowed : List String}
    (h : toolId ∈ allowed) :
    (parseConfiguredDecision (singleCallDecision toolId) allowed).toolCalls
      = [{ callId := "tool-call-1", toolName := toolId, toolArgs := [], reason := none }] := by
  simp [parseConfiguredDecision, configuredRoute, configuredToolCalls, singleCallDecision,
    Dict.get, Dict.get?_cons, Json.orElse, configuredRoutes, parseRuntimeToolCalls, h,
    Json.asStr?, Json.asDict?]

theorem namesAligned_iff_stripStable (h : (tools.map Prod.fst).Nodup) :
    (∀ data, NamesAligned tools data) ↔ StripStable tools := by
  constructor
  · intro haligned a ha b hb hstrip hneeds
    have hallowed : a.1 ∈ tools.map Prod.fst := List.mem_map_of_mem ha
    have hsingle := haligned (singleCallDecision a.1)
    unfold NamesAligned HasPending at hsingle
    rw [parseConfiguredDecision_single hallowed] at hsingle
    obtain ⟨call, hcall, tool, hmem, hpending⟩ :=
      hsingle _ List.mem_cons_self b.2 (by rw [hstrip]; exact hb) hneeds
    obtain rfl := List.mem_singleton.mp hcall
    have hsame : some tool = some a.2 := by
      rw [← (lookup_eq_some_iff_mem h).mpr hmem, (lookup_eq_some_iff_mem h).mpr ha]
    cases hsame
    exact hpending
  · intro hstable data call hcall tool hmem hneeds
    obtain ⟨a, ha, hname⟩ := List.mem_map.mp (parseConfiguredDecision_allowed _ _ call hcall)
    exact ⟨call, hcall, a.2, hname ▸ ha,
      hstable a ha _ hmem (by rw [hname]) hneeds⟩

end Registered

/-- Over the tools of a runtime context, with distinct ids: a decision is safe
exactly when its names are aligned, and all are exactly when no laxer tool's
id strips to the id of one that needs approval. -/
theorem approval_gate_safe_iff (dispatch : Dict → ToolHandler) (toolLog : Bool)
    {tools : List Json} (h : ((runtimeTools tools).map Prod.fst).Nodup) :
    ∃ specs, buildRuntimeToolExecutor dispatch (runtimeTools tools) = .ok specs
      ∧ (∀ data, BatchSafe (runtimeTools tools) specs (configuredHooks toolLog) data
          ↔ NamesAligned (runtimeTools tools) data)
      ∧ ((∀ data, BatchSafe (runtimeTools tools) specs (configuredHooks toolLog) data)
          ↔ StripStable (runtimeTools tools)) := by
  have hsafe : ∀ data, BatchSafe (runtimeTools tools)
      (configuredSpecs dispatch (runtimeTools tools)) (configuredHooks toolLog) data
        ↔ NamesAligned (runtimeTools tools) data :=
    batchSafe_iff h (configuredHooks_beforeCall toolLog)
  refine ⟨_, buildRuntimeToolExecutor_ok dispatch h, hsafe, ?_⟩
  rw [← namesAligned_iff_stripStable h]
  exact forall_congr' hsafe

/-- A tool that needs approval, and one whose id differs by a trailing space. -/
def spacedTools : List Json :=
  [.obj [("tool_id", .str "pay"), ("requires_approval", .bool true)],
   .obj [("tool_id", .str "pay "), ("requires_approval", .bool false)]]

theorem approval_gate_safe_iff_spacedTools :
    ∃ specs, buildRuntimeToolExecutor (fun _ _ _ => .ok .null) (runtimeTools spacedTools)
        = .ok specs
      ∧ (∀ data, BatchSafe (runtimeTools spacedTools) specs (configuredHooks true) data
          ↔ NamesAligned (runtimeTools spacedTools) data)
      ∧ ((∀ data, BatchSafe (runtimeTools spacedTools) specs (configuredHooks true) data)
          ↔ StripStable (runtimeTools spacedTools)) :=
  approval_gate_safe_iff (fun _ _ _ => .ok .null) true (by decide)

/-- The model asks for `"pay "`: the gate finds the tool of that id, which
needs no approval, and the executor runs `"pay"`, which does. -/
theorem approval_gate_runs_unapproved :
    ∃ (tools : List Json) (specs : List ToolSpec) (data : Dict),
      ((runtimeTools tools).map Prod.fst).Nodup
        ∧ buildRuntimeToolExecutor (fun _ _ _ => .ok .null) (runtimeTools tools) = .ok specs
        ∧ ((runDecision (runtimeTools tools) specs (configuredHooks true) data).invoked
            = [⟨"pay", []⟩])
        ∧ ¬ BatchSafe (runtimeTools tools) specs (configuredHooks true) data := by
  have hinvoked : (runDecision (runtimeTools spacedTools)
      (configuredSpecs (fun _ _ _ => .ok .null) (runtimeTools spacedTools))
      (configuredHooks true) (singleCallDecision "pay ")).invoked = [⟨"pay", []⟩] := by
    decide
  refine ⟨spacedTools, configuredSpecs _ _, singleCallDecision "pay ", by decide,
    buildRuntimeToolExecutor_ok _ (by decide), hinvoked, fun hsafe => ?_⟩
  have hpay := hsafe.1 ⟨"pay", []⟩ (by rw [hinvoked]; simp)
    [("tool_id", .str "pay"), ("requires_approval", .bool true)] (by decide)
  exact absurd hpay (by decide)

end Aegora
