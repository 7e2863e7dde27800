import Aegora.PlatformTables

/-!
# The runtime context of a release

`build_runtime_context` takes the tools of a release through five filters:
released, active (with the connection of its row), connected (with the
connection its configuration names), granted at publication, granted now.
The order of the source is kept: normalization, refreshed policies,
refreshed connections, authorization.

The snapshot filter is only applied when the snapshot names some tool, so a
release published by a user without any grant is not bounded by it. The last
section says exactly when every tool of the context is inside all five.
-/

namespace Aegora

open Py

/-! ## Releases -/

/-- A row of `agent_releases`; `visibility` is `none` where the column is
missing or null. -/
structure ReleaseRow where
  releaseId : String
  agentId : String
  version : Int
  status : String
  visibility : Option String := none
  configJson : Json
deriving DecidableEq

structure RuntimeContext where
  release : Dict
  agent : Dict
  actorId : Option String
  channel : Option String
  tools : List Dict
  toolIds : List String
  toolScopes : List (String × Scope)
  permissionSnapshot : Dict
  learningPolicy : Dict
  memoryGovernance : Dict
  policy : Dict
deriving DecidableEq

/-! ## The configuration of a tool -/

/-- `x if isinstance(x, dict) else None`. -/
def dictOrNone (value : Json) : Json :=
  match value with
  | .obj entries => .obj entries
  | _ => .null

def startsWithLocal (text : String) : Bool := "local.".toList.isPrefixOf text.toList

/-- `text.removeprefix("local.")`. -/
def removeLocalPrefix (text : String) : String :=
  if startsWithLocal text then String.ofList (text.toList.drop 6) else text

/-- `normalize_tool_config`; `localRunner` is `local_mcp_stdio_runner_tool_id()`. -/
def normalizeToolConfig (localRunner : String) (tool : Dict) :
    Except ContextError Dict := do
  let toolId := (Dict.get tool "tool_id").pyStr
  let runnerToolId := ((Dict.get tool "runner_tool_id").orElse (.str ("local." ++ toolId))).pyStr
  let runnerName := Dict.get tool "runner_name"
  let source := ((Dict.get tool "source").orElse (.str "")).pyStr
  let isLocal := source = "local" || startsWithLocal runnerToolId
  let scope ← normalizeScope (dictOrNone (Dict.get tool "scope"))
  let timeoutMs ← ((Dict.get tool "timeout_ms").orElse (.int 8000)).pyInt.mapError .python
  let flag (key : String) (default : Bool) : Json :=
    .bool ((Dict.get? tool key).getD (.bool default)).truthy
  return Dict.merge tool
    [("tool_id", .str toolId),
     ("runner_tool_id", .str (if isLocal then localRunner else runnerToolId)),
     ("runner_name",
       if isLocal then
         (runnerName.orElse (.str (removeLocalPrefix runnerToolId))).orElse (.str toolId)
       else runnerName),
     ("name", (Dict.get tool "name").orElse (.str toolId)),
     ("description", (Dict.get tool "description").orElse (.str "")),
     ("source",
       if isLocal then .str "mcp"
       else ((Json.str source).orElse (Dict.get tool "source")).orElse (.str "mcp")),
     ("input_schema", .obj (Dict.get tool "input_schema").dictOrEmpty),
     ("scope", scope.toJson),
     ("read_only", flag "read_only" true),
     ("idempotent", flag "idempotent" true),
     ("parallel_safe", flag "parallel_safe" true),
     ("requires_approval", flag "requires_approval" false),
     ("side_effect_level", (Dict.get tool "side_effect_level").orElse (.str "none")),
     ("data_sensitivity", (Dict.get tool "data_sensitivity").orElse (.str "internal")),
     ("network_access", (Dict.get tool "network_access").orElse (.str "none")),
     ("timeout_ms", .int timeoutMs)]

/-! ## The filters before authorization -/

/-- `raw_tools`. -/
def rawTools (config : Dict) : Except ContextError (List Json) :=
  match (Dict.get config "tools").orElse (.arr []) with
  | .arr tools => .ok tools
  | _ => .error (.runtime "release tools 配置不合法" 422)

/-- `release_tool_ids`. -/
def releaseToolIds (tools : List Json) : List String :=
  tools.filterMap fun tool =>
    tool.asDict?.bind fun entries =>
      let toolId := Dict.get entries "tool_id"
      if toolId.truthy then some toolId.pyStr else none

/-- `value in ids`; a list or a dictionary is not hashable. -/
def inIds (value : Json) (ids : List String) : Except ContextError Bool :=
  match value with
  | .str id => .ok (id ∈ ids)
  | .arr _ | .obj _ => .error (.python "TypeError")
  | _ => .ok false

/-- One step of the comprehension that keeps the active tools. -/
def activeToolConfig (localRunner : String) (activeIds : List String) (tool : Json) :
    Except ContextError (Option Dict) :=
  match tool with
  | .obj entries => do
      let active ← inIds (Dict.get entries "tool_id") activeIds
      if active then some <$> normalizeToolConfig localRunner entries else return none
  | _ => .ok none

/-- `refresh_active_tool_runtime_policies` on one tool: the tool, and whether
it changed. -/
def refreshPolicy (db : PlatformTables) (tool : Dict) : Dict × Bool :=
  match activeToolPolicy db ((Dict.get tool "tool_id").orElse (.str "")).pyStr with
  | none => (tool, false)
  | some policy =>
      (Dict.merge tool policy, policy.any fun kv => Dict.get tool kv.1 ≠ kv.2)

/-- `refresh_mcp_connection_configs` on one tool; `none` filters it out. -/
def refreshConnection (db : PlatformTables) (tool : Dict) : Option Dict :=
  let connectionId := Dict.get tool "mcp_connection_id"
  if connectionId.truthy then
    (activeConnection db connectionId.pyStr).map fun connection =>
      Dict.merge tool
        [("runner_tool_id", .str ("mcp-connection:" ++ connectionId.pyStr)),
         ("mcp_connection", .obj connection.asDict)]
  else some tool

/-! ## Authorization -/

/-- `snapshot_role_tool_scopes`. -/
def snapshotRoleToolScopes (snapshot : Dict) :
    Except ContextError (List (String × Scope)) :=
  match Dict.get snapshot "role_tool_scopes" with
  | .obj entries => entries.mapM fun kv => do
      let scope ← normalizeScope (dictOrNone kv.2)
      return (kv.1, scope)
  | _ => .ok []

inductive AuthzVerdict where
  | notEffective
  | scopeDenied
  | allowed
deriving DecidableEq, Repr

/-- `scope_is_subset(requested, scopes.get(tool_id))`. -/
def scopeAllowed (scopes : List (String × Scope)) (toolId : String) (requested : Json) :
    Except ContextError Bool :=
  scopeIsSubset requested (((Dict.get? scopes toolId).map Scope.toJson).getD .null)

/-- The loop body of `apply_runtime_tool_authz`. -/
def authorizeTool (created current : List (String × Scope)) (tool : Dict) :
    Except ContextError AuthzVerdict := do
  let toolId := (Dict.get tool "tool_id").pyStr
  let requested := Json.obj (Dict.get tool "scope").dictOrEmpty
  let hasCreated := created.isEmpty || (Dict.get? created toolId).isSome
  if !(hasCreated && (Dict.get? current toolId).isSome) then return .notEffective
  if !created.isEmpty then
    if !(← scopeAllowed created toolId requested) then return .scopeDenied
  if !(← scopeAllowed current toolId requested) then return .scopeDenied
  return .allowed

def strings (xs : List String) : Json := .arr (xs.map .str)

/-- `apply_runtime_tool_authz`. -/
def applyRuntimeToolAuthz (db : PlatformTables) (tools : List Dict)
    (actorId : Option String) (snapshot : Dict) :
    Except ContextError (List Dict × Dict) :=
  let ids := tools.map fun tool => (Dict.get tool "tool_id").pyStr
  match actorId with
  | none | some "" =>
      .ok ([], [("runtime_authz_filtered", strings (ids.mergeSort fun a b => decide (a ≤ b))),
        ("scope_denied_tools", strings []),
        ("runtime_authz_reason", .str "missing_actor_id")])
  | some actor => do
      let current ← getUserRoleToolScopes db actor
      let created ← snapshotRoleToolScopes snapshot
      let verdicts ← tools.mapM (authorizeTool created current)
      let judged := tools.zip verdicts
      let allowed := (judged.filter fun tv => tv.2 = .allowed).map Prod.fst
      let denied := (judged.filter fun tv => tv.2 = .scopeDenied).map fun tv =>
        (Dict.get tv.1 "tool_id").pyStr
      let allowedIds := allowed.map fun tool => (Dict.get tool "tool_id").pyStr
      return (allowed,
        [("runtime_authz_filtered", strings (sortedSet (ids.filter (· ∉ allowedIds)))),
         ("scope_denied_tools", strings (sortedSet denied)),
         ("runtime_authz_source", .str "role_tool_permissions")])

/-! ## The context -/

/-- `normalize_learning_policy`. -/
def normalizeLearningPolicy (raw : Json) : Dict :=
  let policy := raw.dictOrEmpty
  let flag (key : String) (default : Bool) : String × Json :=
    (key, .bool ((Dict.get? policy key).getD (.bool default)).truthy)
  [flag "capture_evidence" true, flag "propose_skills" false,
   flag "requires_human_review" true]

/-- `list(x)`. -/
def pyList : Json → Except ContextError (List Json)
  | .arr items => .ok items
  | .str text => .ok (text.toList.map fun c => .str (String.ofList [c]))
  | .obj entries => .ok (entries.map fun kv => .str kv.1)
  | _ => .error (.python "TypeError")

/-- `release["config_json"]`, checked to be a dictionary. -/
def releaseConfig (release : ReleaseRow) : Except ContextError Dict :=
  match release.configJson with
  | .obj config => .ok config
  | _ => .error (.runtime "release config_json 不合法" 422)

/-- `config_json["agent"]`, checked to be a dictionary. -/
def releaseAgent (config : Dict) : Except ContextError Dict :=
  match Dict.get config "agent" with
  | .obj agent => .ok agent
  | _ => .error (.runtime "release agent 配置缺失" 422)

/-- `agent_visibility`. -/
def releaseVisibility (release : ReleaseRow) (agent : Dict) : String :=
  (((((release.visibility.map Json.str).getD .null).orElse
    (Dict.get agent "visibility")).orElse (.str "private"))).pyStr

/-- The outside of `build_runtime_context`: the environment, and where the
governance lookup fails if it does. -/
structure RuntimeEnv where
  localRunner : String
  tenantEnv : Option String := none
  governanceFailure : Option LookupStage := none

/-- `build_runtime_context`. -/
def buildRuntimeContext (env : RuntimeEnv) (db : PlatformTables) (release : ReleaseRow)
    (actorId channel : Option String) : Except ContextError RuntimeContext := do
  let config ← releaseConfig release
  let agent ← releaseAgent config
  let raw ← rawTools config
  let released := releaseToolIds raw
  let activeIds := activeToolIds db released
  let active ← raw.mapM (activeToolConfig env.localRunner activeIds)
  let refreshed := (active.filterMap id).map (refreshPolicy db)
  let changed := (refreshed.filter Prod.snd).map fun tool =>
    (Dict.get tool.1 "tool_id").pyStr
  let configured := refreshed.map Prod.fst
  let connected := configured.filterMap (refreshConnection db)
  let disconnected := (configured.filter fun tool => (refreshConnection db tool).isNone).map
    fun tool => ((Dict.get tool "tool_id").orElse (.str "")).pyStr
  let snapshot := (Dict.get config "permission_snapshot").dictOrEmpty
  let (tools, authzPolicy) ← applyRuntimeToolAuthz db connected actorId snapshot
  let scopes ← tools.mapM fun tool => do
    let scope ← normalizeScope (dictOrNone (Dict.get tool "scope"))
    return ((Dict.get tool "tool_id").pyStr, scope)
  let toolScopes := Dict.ofEntries scopes
  let visibility := releaseVisibility release agent
  let channels ← pyList ((Dict.get agent "channels").orElse (.arr []))
  return {
    release :=
      [("release_id", .str release.releaseId), ("agent_id", .str release.agentId),
       ("version", .int release.version), ("status", .str release.status),
       ("visibility", .str visibility)]
    agent :=
      [("id", Dict.get agent "id"),
       ("name", (Dict.get agent "name").orElse (.str "released-agent")),
       ("icon", (Dict.get agent "icon").orElse (.str "robot")),
       ("owner_user_id", Dict.get agent "owner_user_id"),
       ("system_prompt", (Dict.get agent "system_prompt").orElse (.str "")),
       ("model", Dict.get agent "model"),
       ("enabled", .bool ((Dict.get? agent "enabled").getD (.bool true)).truthy),
       ("channels", .arr channels),
       ("visibility", .str visibility)]
    actorId := actorId
    channel := channel
    tools := tools
    toolIds := sortedSet (toolScopes.map Prod.fst)
    toolScopes := toolScopes
    permissionSnapshot := snapshot
    learningPolicy := normalizeLearningPolicy (Dict.get config "learning_policy")
    memoryGovernance := fetchMemoryGovernance db.governance env.tenantEnv actorId visibility
      env.governanceFailure
    policy := Dict.merge
      [("source", .str "agent_release"),
       ("disabled_tools_filtered", strings (sortedSet (released.filter (· ∉ activeIds)))),
       ("runtime_tool_policy_refreshed", strings (sortedSet changed)),
       ("mcp_connection_filtered_tools", strings (sortedSet disconnected))]
      authzPolicy }

/-! ## What the filters do to a tool -/

/-- The fields authorization reads: no later stage changes them. -/
def toolIdentity (tool : Dict) : Json × Json × Json :=
  (Dict.get tool "tool_id", Dict.get tool "scope", Dict.get tool "mcp_connection_id")

theorem toolIdentity_merge (tool : Dict) {entries : Dict}
    (h : ∀ key ∈ ["tool_id", "scope", "mcp_connection_id"], key ∉ entries.map Prod.fst) :
    toolIdentity (Dict.merge tool entries) = toolIdentity tool := by
  unfold toolIdentity
  rw [Dict.get_merge_of_not_mem _ (h "tool_id" (by decide)),
    Dict.get_merge_of_not_mem _ (h "scope" (by decide)),
    Dict.get_merge_of_not_mem _ (h "mcp_connection_id" (by decide))]

theorem refreshPolicy_identity (db : PlatformTables) (tool : Dict) :
    toolIdentity (refreshPolicy db tool).1 = toolIdentity tool := by
  unfold refreshPolicy
  split
  · rfl
  · rename_i policy hpolicy
    obtain ⟨row, -, rfl⟩ := Option.map_eq_some_iff.mp hpolicy
    exact toolIdentity_merge tool (by simp [ToolRow.policy])

/-- The tool's connection is active, if its configuration names one. -/
def Connected (db : PlatformTables) (connectionId : Json) : Prop :=
  connectionId.truthy = true → (activeConnection db connectionId.pyStr).isSome = true

theorem refreshConnection_some {db : PlatformTables} {tool next : Dict}
    (h : refreshConnection db tool = some next) :
    toolIdentity next = toolIdentity tool
      ∧ Connected db (Dict.get tool "mcp_connection_id") := by
  unfold refreshConnection at h
  dsimp only at h
  split at h
  · obtain ⟨connection, hconnection, rfl⟩ := Option.map_eq_some_iff.mp h
    exact ⟨toolIdentity_merge tool (by simp), fun _ => by simp [hconnection]⟩
  · rename_i hnone
    cases h
    exact ⟨rfl, fun htruthy => absurd htruthy hnone⟩

theorem refreshConnection_isSome {db : PlatformTables} {tool : Dict}
    (h : Connected db (Dict.get tool "mcp_connection_id")) :
    ∃ next, refreshConnection db tool = some next := by
  unfold refreshConnection
  dsimp only
  split
  · rename_i htruthy
    obtain ⟨connection, hconnection⟩ := Option.isSome_iff_exists.mp (h htruthy)
    exact ⟨_, by rw [hconnection]; rfl⟩
  · exact ⟨tool, rfl⟩

theorem normalizeToolConfig_identity {localRunner : String} {tool next : Dict}
    (h : normalizeToolConfig localRunner tool = .ok next) :
    ∃ scope, normalizeScope (dictOrNone (Dict.get tool "scope")) = .ok scope
      ∧ toolIdentity next = (.str (Dict.get tool "tool_id").pyStr, scope.toJson,
          Dict.get tool "mcp_connection_id") := by
  obtain ⟨scope, hscope, h⟩ := bind_eq_ok.mp h
  obtain ⟨timeoutMs, -, h⟩ := bind_eq_ok.mp h
  cases h
  refine ⟨scope, hscope, ?_⟩
  unfold toolIdentity
  rw [Dict.get_merge_of_not_mem _ (by simp : "mcp_connection_id" ∉ _)]
  simp [Dict.get, Dict.get?_merge, Dict.get?_cons]

/-! ### Authorization of one tool -/

theorem scopeAllowed_toJson (scopes : List (String × Scope)) (toolId : String)
    (requested : Scope) :
    scopeAllowed scopes toolId requested.toJson
      = .ok (decide (ScopeWithin requested ((Dict.get? scopes toolId).getD []))) := by
  unfold scopeAllowed
  cases Dict.get? scopes toolId with
  | none => exact scopeIsSubset_toJson requested []
  | some allowed => exact scopeIsSubset_toJson requested allowed

/-- The tool passes the snapshot filter, which an empty snapshot leaves out. -/
def WithinCreated (created : List (String × Scope)) (toolId : String) (scope : Scope) :
    Prop :=
  created = [] ∨ ((Dict.get? created toolId).isSome = true
    ∧ ScopeWithin scope ((Dict.get? created toolId).getD []))

/-- The current roles grant the tool with its scope. -/
def WithinCurrent (current : List (String × Scope)) (toolId : String) (scope : Scope) :
    Prop :=
  (Dict.get? current toolId).isSome = true
    ∧ ScopeWithin scope ((Dict.get? current toolId).getD [])

theorem authorizeTool_eq {created current : List (String × Scope)} {tool : Dict}
    {toolId : String} {scope : Scope} (hid : Dict.get tool "tool_id" = .str toolId)
    (hscope : Dict.get tool "scope" = scope.toJson) :
    authorizeTool created current tool = .ok (
      if (created.isEmpty || (Dict.get? created toolId).isSome)
          && (Dict.get? current toolId).isSome then
        if (created.isEmpty
              || decide (ScopeWithin scope ((Dict.get? created toolId).getD [])))
            && decide (ScopeWithin scope ((Dict.get? current toolId).getD [])) then
          .allowed
        else .scopeDenied
      else .notEffective) := by
  have hrequested : Json.obj (Dict.get tool "scope").dictOrEmpty = scope.toJson := by
    rw [hscope]
    rfl
  unfold authorizeTool
  simp only [hid, hrequested, Json.pyStr_str, scopeAllowed_toJson]
  cases created.isEmpty <;> cases (Dict.get? created toolId).isSome <;>
    cases (Dict.get? current toolId).isSome <;>
    cases decide (ScopeWithin scope ((Dict.get? created toolId).getD [])) <;>
    cases decide (ScopeWithin scope ((Dict.get? current toolId).getD [])) <;> rfl

theorem authorizeTool_allowed_iff {created current : List (String × Scope)} {tool : Dict}
    {toolId : String} {scope : Scope} (hid : Dict.get tool "tool_id" = .str toolId)
    (hscope : Dict.get tool "scope" = scope.toJson) :
    authorizeTool created current tool = .ok .allowed
      ↔ WithinCreated created toolId scope ∧ WithinCurrent current toolId scope := by
  rw [authorizeTool_eq hid hscope, Except.ok.injEq]
  unfold WithinCreated WithinCurrent
  rw [← List.isEmpty_iff]
  cases created.isEmpty <;> cases (Dict.get? created toolId).isSome <;>
    cases (Dict.get? current toolId).isSome <;>
    by_cases hcreated : ScopeWithin scope ((Dict.get? created toolId).getD []) <;>
    by_cases hcurrent : ScopeWithin scope ((Dict.get? current toolId).getD []) <;>
    simp [hcreated, hcurrent]

/-- Authorization keeps the tools judged allowed. -/
theorem applyRuntimeToolAuthz_ok {db : PlatformTables} {tools allowed : List Dict}
    {actorId : Option String} {snapshot policy : Dict}
    (h : applyRuntimeToolAuthz db tools actorId snapshot = .ok (allowed, policy)) :
    ((actorId = none ∨ actorId = some "") ∧ allowed = [])
      ∨ ∃ actor current created, actorId = some actor ∧ actor ≠ ""
        ∧ getUserRoleToolScopes db actor = .ok current
        ∧ snapshotRoleToolScopes snapshot = .ok created
        ∧ ∀ tool, tool ∈ allowed
            ↔ tool ∈ tools ∧ authorizeTool created current tool = .ok .allowed := by
  unfold applyRuntimeToolAuthz at h
  dsimp only at h
  split at h
  · cases h
    exact Or.inl ⟨Or.inl rfl, rfl⟩
  · cases h
    exact Or.inl ⟨Or.inr rfl, rfl⟩
  · rename_i actor hactor
    obtain ⟨current, hcurrent, h⟩ := bind_eq_ok.mp h
    obtain ⟨created, hcreated, h⟩ := bind_eq_ok.mp h
    obtain ⟨verdicts, hverdicts, h⟩ := bind_eq_ok.mp h
    cases h
    exact Or.inr ⟨actor, current, created, rfl, fun hempty => hactor (hempty ▸ rfl),
      hcurrent, hcreated, fun tool => mem_zip_filter_iff hverdicts⟩

/-! ### The context that comes out -/

/-- The tools that reach authorization, from the active ones. -/
def connectedTools (db : PlatformTables) (active : List (Option Dict)) : List Dict :=
  (((active.filterMap id).map (refreshPolicy db)).map Prod.fst).filterMap
    (refreshConnection db)

theorem buildRuntimeContext_ok {env : RuntimeEnv} {db : PlatformTables}
    {release : ReleaseRow} {actorId channel : Option String} {context : RuntimeContext}
    (h : buildRuntimeContext env db release actorId channel = .ok context) :
    ∃ config raw active policy scopes, releaseConfig release = .ok config
      ∧ rawTools config = .ok raw
      ∧ raw.mapM (activeToolConfig env.localRunner
          (activeToolIds db (releaseToolIds raw))) = .ok active
      ∧ applyRuntimeToolAuthz db (connectedTools db active) actorId
          (Dict.get config "permission_snapshot").dictOrEmpty = .ok (context.tools, policy)
      ∧ (context.tools.mapM fun tool => do
          let scope ← normalizeScope (dictOrNone (Dict.get tool "scope"))
          return ((Dict.get tool "tool_id").pyStr, scope)) = .ok scopes
      ∧ context.toolScopes = Dict.ofEntries scopes
      ∧ context.toolIds = sortedSet (context.toolScopes.map Prod.fst) := by
  obtain ⟨config, hconfig, h⟩ := bind_eq_ok.mp h
  obtain ⟨agent, -, h⟩ := bind_eq_ok.mp h
  obtain ⟨raw, hraw, h⟩ := bind_eq_ok.mp h
  obtain ⟨active, hactive, h⟩ := bind_eq_ok.mp h
  obtain ⟨⟨tools, policy⟩, hauthz, h⟩ := bind_eq_ok.mp h
  obtain ⟨scopes, hscopes, h⟩ := bind_eq_ok.mp h
  obtain ⟨channels, -, h⟩ := bind_eq_ok.mp h
  cases h
  exact ⟨config, raw, active, policy, scopes, hconfig, hraw, hactive, hauthz, hscopes, rfl,
    rfl⟩

theorem mem_connectedTools {db : PlatformTables} {active : List (Option Dict)}
    {tool : Dict} :
    tool ∈ connectedTools db active
      ↔ ∃ configured, some configured ∈ active
        ∧ refreshConnection db (refreshPolicy db configured).1 = some tool := by
  simp only [connectedTools, List.mem_filterMap, List.mem_map, id_eq]
  constructor
  · rintro ⟨_, ⟨_, ⟨configured, ⟨_, hactive, rfl⟩, rfl⟩, rfl⟩, htool⟩
    exact ⟨configured, hactive, htool⟩
  · rintro ⟨configured, hactive, htool⟩
    exact ⟨_, ⟨_, ⟨configured, ⟨_, hactive, rfl⟩, rfl⟩, rfl⟩, htool⟩

/-- A tool is kept by the active filter with its normalized configuration. -/
theorem activeToolConfig_some {localRunner : String} {activeIds : List String} {raw : Json}
    {configured : Dict} (h : activeToolConfig localRunner activeIds raw = .ok (some configured)) :
    ∃ entries toolId, raw = .obj entries ∧ Dict.get entries "tool_id" = .str toolId
      ∧ toolId ∈ activeIds ∧ normalizeToolConfig localRunner entries = .ok configured := by
  unfold activeToolConfig at h
  split at h
  · rename_i entries
    obtain ⟨isActive, hin, h⟩ := bind_eq_ok.mp h
    split at h
    · rename_i hactive
      cases hnorm : normalizeToolConfig localRunner entries with
      | error _ => rw [hnorm] at h; cases h
      | ok next =>
          rw [hnorm] at h
          cases h
          unfold inIds at hin
          split at hin
          · rename_i toolId hid
            cases hin
            exact ⟨entries, toolId, rfl, hid, by simpa using hactive, hnorm⟩
          · cases hin
          · cases hin
          · cases hin
            cases hactive
    · cases h
  · cases h

/-- Nothing active is dropped by the active filter. -/
theorem activeToolConfig_active {localRunner : String} {activeIds : List String}
    {entries : Dict} {toolId : String} {out : Option Dict}
    (h : activeToolConfig localRunner activeIds (.obj entries) = .ok out)
    (hid : Dict.get entries "tool_id" = .str toolId) (hactive : toolId ∈ activeIds) :
    ∃ configured, out = some configured
      ∧ normalizeToolConfig localRunner entries = .ok configured := by
  unfold activeToolConfig at h
  dsimp only at h
  rw [hid] at h
  simp only [inIds, hactive, decide_true, bind, Except.bind, if_true] at h
  cases hnorm : normalizeToolConfig localRunner entries with
  | error _ => rw [hnorm] at h; cases h
  | ok next =>
      rw [hnorm] at h
      cases h
      exact ⟨next, rfl, rfl⟩

end Aegora
