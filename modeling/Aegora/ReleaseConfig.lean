import Aegora.CapabilityCeiling

/-!
# Release configurations as publication writes them

`release_config_snapshot` writes the configuration that the Runtime and the
Control Plane later read, each with its own code. A `ReadableConfig` has the
shapes that publication gives it, and on one the Runtime raises for malformed
role grants only.
-/

namespace Aegora

open Py

/-! ## What a published configuration always has -/

structure ReadableTool (entries : Dict) : Prop where
  id : ∃ toolId, Dict.get entries "tool_id" = .str toolId
  scope : ∃ scope : Scope, Dict.get entries "scope" = scope.toJson
  timeout : ∃ timeoutMs, Dict.get entries "timeout_ms" = .int timeoutMs

structure ReadableConfig (config : Dict) : Prop where
  agent : ∃ agent, Dict.get config "agent" = .obj agent
    ∧ (∃ members : List String, Dict.get agent "members" = .arr (members.map .str))
    ∧ ∃ channels : List String, Dict.get agent "channels" = .arr (channels.map .str)
  tools : ∃ tools : List Dict, Dict.get config "tools" = .arr (tools.map .obj)
    ∧ ∀ tool ∈ tools, ReadableTool tool
  snapshot : ∃ (snapshot : Dict) (scopes : List (String × Scope)),
    Dict.get config "permission_snapshot" = .obj snapshot
      ∧ Dict.get snapshot "role_tool_scopes"
        = .obj (scopes.map fun kv => (kv.1, kv.2.toJson))

/-- A row of `agent_releases` with a configuration that was published. -/
structure PublishedRelease where
  releaseId : String
  agentId : String
  version : Int
  status : String
  visibility : Option String := none
  config : Dict
  readable : ReadableConfig config

def PublishedRelease.row (release : PublishedRelease) : ReleaseRow where
  releaseId := release.releaseId
  agentId := release.agentId
  version := release.version
  status := release.status
  visibility := release.visibility
  configJson := .obj release.config

/-- `config_json["agent"]`. -/
def PublishedRelease.agent (release : PublishedRelease) : Dict :=
  (Dict.get release.config "agent").dictOrEmpty

/-- The channels of the published agent. -/
def PublishedRelease.channels (release : PublishedRelease) : List Json :=
  ((Dict.get release.agent "channels").asList?).getD []

/-- `agent.get("enabled", True)` of the snapshot. -/
def PublishedRelease.enabled (release : PublishedRelease) : Bool :=
  ((Dict.get? release.agent "enabled").getD (.bool true)).truthy

/-! ## Publication -/

/-- What `load_agent` returns; `tools` is the key set of `tool_scopes`. -/
structure AgentRecord where
  ownerUserId : String
  enabled : Bool
  name : String
  icon : String
  systemPrompt : String
  model : Option String
  visibility : String
  members : List String
  toolScopes : List (String × Scope)
  channels : List String

/-- The fields of a `ToolDefinition` that a release keeps. -/
structure ToolManifest where
  toolId : String
  runnerToolId : Option String
  runnerName : Option String
  mcpConnectionId : Option String
  mcpConnection : Option Dict
  name : String
  description : String
  source : String
  version : String
  readOnly : Bool
  idempotent : Bool
  parallelSafe : Bool
  requiresApproval : Bool
  sideEffectLevel : String
  dataSensitivity : String
  networkAccess : String
  layer : String
  category : String
  nameSpace : String
  groupId : String
  groupName : String
  timeoutMs : Int
  inputSchema : Dict
  scopeSchema : Dict
  scopeDescriptions : Dict
  manifestHash : String

def optionalStr : Option String → Json
  | none => .null
  | some text => .str text

/-- `runtime_tool_manifest`. -/
def runtimeToolManifest (manifest : ToolManifest) (scope : Scope) : Dict :=
  [("tool_id", .str manifest.toolId),
   ("runner_tool_id", optionalStr manifest.runnerToolId),
   ("runner_name", optionalStr manifest.runnerName),
   ("mcp_connection_id", optionalStr manifest.mcpConnectionId),
   ("mcp_connection", (manifest.mcpConnection.map Json.obj).getD .null),
   ("name", .str manifest.name),
   ("description", .str manifest.description),
   ("source", .str manifest.source),
   ("version", .str manifest.version),
   ("read_only", .bool manifest.readOnly),
   ("idempotent", .bool manifest.idempotent),
   ("parallel_safe", .bool manifest.parallelSafe),
   ("requires_approval", .bool manifest.requiresApproval),
   ("side_effect_level", .str manifest.sideEffectLevel),
   ("data_sensitivity", .str manifest.dataSensitivity),
   ("network_access", .str manifest.networkAccess),
   ("layer", .str manifest.layer),
   ("category", .str manifest.category),
   ("namespace", .str manifest.nameSpace),
   ("group_id", .str manifest.groupId),
   ("group_name", .str manifest.groupName),
   ("timeout_ms", .int manifest.timeoutMs),
   ("input_schema", .obj manifest.inputSchema),
   ("scope_schema", .obj manifest.scopeSchema),
   ("scope_descriptions", .obj manifest.scopeDescriptions),
   ("scope", scope.toJson),
   ("manifest_hash", .str manifest.manifestHash)]

/-- What the Control Plane raises: an `HTTPException`, after the permission
event it may record, or another Python exception. -/
inductive AccessError where
  | http (statusCode : Nat) (detail : String) (event : Option String := none)
  | value (message : String)
  | python (kind : String)
deriving DecidableEq, Repr

/-- The same checks raise `ValueError` in the Control Plane. -/
def AccessError.ofContext : ContextError → AccessError
  | .runtime message _ => .value message
  | .python kind => .python kind

/-- `tool_manifests[tool_id]`, written into the release. -/
def releasedTool (manifests : List (String × ToolManifest)) (toolScope : String × Scope) :
    Except AccessError Dict :=
  match Dict.get? manifests toolScope.1 with
  | some manifest => .ok (runtimeToolManifest manifest toolScope.2)
  | none => .error (.python "KeyError")

/-- `release_config_snapshot`; `activeTools` is what `fetch_tools_by_ids`
selects from, the publisher's roles and grants are read from the database. -/
def releaseConfigSnapshot (activeTools : List ToolManifest) (agentId : String)
    (agent : AgentRecord) (actorId : String) (roles : List String)
    (grants : List (String × Scope)) : Except AccessError Dict := do
  let ids := agent.toolScopes.map Prod.fst
  let manifests := (activeTools.filter fun tool => tool.toolId ∈ ids).map fun tool =>
    (tool.toolId, tool)
  let missing := sortedSet (ids.filter fun id => id ∉ manifests.map Prod.fst)
  if missing ≠ [] then
    throw (.http 422 ("发布工具不存在或已停用: " ++ ", ".intercalate missing))
  let tools ← (sortItems agent.toolScopes).mapM (releasedTool manifests)
  return [
    ("agent", .obj
      [("id", .str agentId),
       ("name", .str agent.name),
       ("icon", .str agent.icon),
       ("visibility", .str agent.visibility),
       ("members", strings (sortedSet agent.members)),
       ("owner_user_id", .str agent.ownerUserId),
       ("system_prompt", .str agent.systemPrompt),
       ("model", optionalStr agent.model),
       ("channels", strings (sortedSet agent.channels)),
       ("enabled", .bool agent.enabled)]),
    ("tools", .arr (tools.map .obj)),
    ("runtime_policy", .obj [("release_token_enabled", .bool false)]),
    ("permission_snapshot", .obj
      [("published_by", .str actorId),
       ("published_by_roles", strings (sortedSet roles)),
       ("role_tool_scopes", .obj (grants.map fun kv => (kv.1, kv.2.toJson)))])]

theorem runtimeToolManifest_readable (manifest : ToolManifest) (scope : Scope) :
    ReadableTool (runtimeToolManifest manifest scope) :=
  ⟨⟨manifest.toolId, rfl⟩, ⟨scope, rfl⟩, ⟨manifest.timeoutMs, rfl⟩⟩

theorem releaseConfigSnapshot_readable {activeTools : List ToolManifest} {agentId : String}
    {agent : AgentRecord} {actorId : String} {roles : List String}
    {grants : List (String × Scope)} {config : Dict}
    (h : releaseConfigSnapshot activeTools agentId agent actorId roles grants = .ok config) :
    ReadableConfig config := by
  unfold releaseConfigSnapshot at h
  dsimp only at h
  split at h
  · cases h
  · obtain ⟨tools, htools, h⟩ := bind_eq_ok.mp h
    cases h
    refine ⟨⟨_, rfl, ⟨_, rfl⟩, ⟨_, rfl⟩⟩, ⟨tools, rfl, fun tool htool => ?_⟩,
      ⟨_, grants, rfl, rfl⟩⟩
    obtain ⟨toolScope, -, hreleased⟩ := mem_of_mapM_eq_ok htools htool
    unfold releasedTool at hreleased
    split at hreleased
    · cases hreleased
      exact runtimeToolManifest_readable _ _
    · cases hreleased

/-- `publish_agent`: the new row of `agent_releases`. The `visibility` column,
where the table has one, takes its default. -/
def publishAgent (activeTools : List ToolManifest) (agentId : String) (agent : AgentRecord)
    (actorId : String) (roles : List String) (grants : List (String × Scope))
    (releaseId : String) (version : Int) (columnDefault : Option String) :
    Except AccessError PublishedRelease :=
  match h : releaseConfigSnapshot activeTools agentId agent actorId roles grants with
  | .error error => .error error
  | .ok config => .ok {
      releaseId := releaseId
      agentId := agentId
      version := version
      status := "published"
      visibility := columnDefault
      config := config
      readable := releaseConfigSnapshot_readable h }

/-! ## Reading one back in the Runtime -/

section Reading

variable {env : RuntimeEnv} {db : PlatformTables}

theorem normalizeScope_written (scope : Scope) :
    ∃ normalized, normalizeScope (dictOrNone scope.toJson) = .ok normalized :=
  ⟨_, normalizeScope_toJson scope⟩

theorem normalizeToolConfig_readable (localRunner : String) {entries : Dict}
    (h : ReadableTool entries) :
    ∃ tool, normalizeToolConfig localRunner entries = .ok tool := by
  obtain ⟨-, ⟨scope, hscope⟩, ⟨timeoutMs, htimeout⟩⟩ := h
  obtain ⟨normalized, hnormalized⟩ := normalizeScope_written scope
  have hint : ∃ n, ((Json.int timeoutMs).orElse (.int 8000)).pyInt = .ok n := by
    unfold Json.orElse
    split
    · exact ⟨timeoutMs, rfl⟩
    · exact ⟨8000, rfl⟩
  obtain ⟨n, hn⟩ := hint
  unfold normalizeToolConfig
  simp only [hscope, htimeout, hnormalized, hn]
  exact ⟨_, rfl⟩

theorem activeToolConfig_readable {localRunner : String} {activeIds : List String}
    {entries : Dict} (h : ReadableTool entries) :
    ∃ out, activeToolConfig localRunner activeIds (.obj entries) = .ok out := by
  obtain ⟨toolId, hid⟩ := h.id
  obtain ⟨tool, htool⟩ := normalizeToolConfig_readable localRunner h
  unfold activeToolConfig
  dsimp only
  rw [hid]
  by_cases hactive : toolId ∈ activeIds
  · exact ⟨some tool, by simp [inIds, hactive, htool, bind, Except.bind]⟩
  · exact ⟨none, by simp [inIds, hactive, bind, Except.bind, pure, Except.pure]⟩

theorem snapshotRoleToolScopes_readable {config : Dict} (h : ReadableConfig config) :
    ∃ created, snapshotRoleToolScopes (Dict.get config "permission_snapshot").dictOrEmpty
      = .ok created := by
  obtain ⟨snapshot, scopes, hsnapshot, hscopes⟩ := h.snapshot
  unfold snapshotRoleToolScopes
  rw [hsnapshot]
  simp only [Json.dictOrEmpty, Json.asDict?, Option.getD_some, hscopes]
  refine exists_mapM_eq_ok fun kv hkv => ?_
  obtain ⟨entry, -, rfl⟩ := List.mem_map.mp hkv
  obtain ⟨normalized, hnormalized⟩ := normalizeScope_written entry.2
  exact ⟨(entry.1, normalized), by simp only [hnormalized]; rfl⟩

/-- A tool as authorization expects it. -/
def Identified (tool : Dict) : Prop :=
  ∃ (toolId : String) (scope : Scope), Dict.get tool "tool_id" = .str toolId
    ∧ Dict.get tool "scope" = scope.toJson

/-- On identified tools authorization only raises for malformed role grants. -/
theorem applyRuntimeToolAuthz_isOk {tools : List Dict} {snapshot : Dict} {actor : String}
    (htools : ∀ tool ∈ tools, Identified tool)
    (hsnapshot : ∃ created, snapshotRoleToolScopes snapshot = .ok created) :
    (∃ out, applyRuntimeToolAuthz db tools (some actor) snapshot = .ok out)
      ↔ actor = "" ∨ ∃ current, getUserRoleToolScopes db actor = .ok current := by
  obtain ⟨created, hcreated⟩ := hsnapshot
  by_cases hactor : actor = ""
  · subst hactor
    exact iff_of_true ⟨_, rfl⟩ (Or.inl rfl)
  · unfold applyRuntimeToolAuthz
    split
    · contradiction
    · rename_i heq
      exact absurd (Option.some.inj heq) hactor
    · rename_i other _ heq
      cases heq
      constructor
      · rintro ⟨out, h⟩
        obtain ⟨current, hcurrent, -⟩ := bind_eq_ok.mp h
        exact Or.inr ⟨current, hcurrent⟩
      · rintro (h | ⟨current, hcurrent⟩)
        · exact absurd h hactor
        · have hverdicts : ∃ verdicts, tools.mapM (authorizeTool created current)
              = .ok verdicts := by
            refine exists_mapM_eq_ok fun tool htool => ?_
            obtain ⟨toolId, scope, hid, hscope⟩ := htools tool htool
            exact ⟨_, authorizeTool_eq hid hscope⟩
          obtain ⟨verdicts, hverdicts⟩ := hverdicts
          exact ⟨_, bind_eq_ok.mpr ⟨current, hcurrent, bind_eq_ok.mpr ⟨created, hcreated,
            bind_eq_ok.mpr ⟨verdicts, hverdicts, rfl⟩⟩⟩⟩

theorem toolScopes_isOk {tools : List Dict} (h : ∀ tool ∈ tools, Identified tool) :
    ∃ scopes, (tools.mapM fun tool => do
      let scope ← normalizeScope (dictOrNone (Dict.get tool "scope"))
      return ((Dict.get tool "tool_id").pyStr, scope)) = .ok scopes := by
  refine exists_mapM_eq_ok fun tool htool => ?_
  obtain ⟨toolId, scope, hid, hscope⟩ := h tool htool
  obtain ⟨normalized, hnormalized⟩ := normalizeScope_written scope
  exact ⟨(toolId, normalized), by simp only [hid, hscope, hnormalized]; rfl⟩

variable {release : PublishedRelease}

theorem rawTools_published (release : PublishedRelease) :
    ∃ tools : List Dict, rawTools release.config = .ok (tools.map .obj)
      ∧ ∀ tool ∈ tools, ReadableTool tool := by
  obtain ⟨tools, htools, hreadable⟩ := release.readable.tools
  refine ⟨tools, ?_, hreadable⟩
  unfold rawTools
  rw [htools]
  cases tools <;> rfl

theorem releaseAgent_published (release : PublishedRelease) :
    releaseAgent release.config = .ok release.agent := by
  obtain ⟨agent, hagent, -, -⟩ := release.readable.agent
  simp [releaseAgent, PublishedRelease.agent, hagent, Json.dictOrEmpty, Json.asDict?]

theorem channels_published (release : PublishedRelease) :
    pyList ((Dict.get release.agent "channels").orElse (.arr [])) = .ok release.channels := by
  obtain ⟨agent, hagent, -, channels, hchannels⟩ := release.readable.agent
  have hread : release.agent = agent := by
    simp [PublishedRelease.agent, hagent, Json.dictOrEmpty, Json.asDict?]
  unfold PublishedRelease.channels
  rw [hread, hchannels]
  cases channels <;> rfl

/-- The Runtime builds the context of a published release unless the actor's
role grants are malformed; without an actor it does not read them. -/
theorem buildRuntimeContext_isOk (env : RuntimeEnv) (release : PublishedRelease)
    {actor : String} (channel : String) :
    (∃ context, buildRuntimeContext env db release.row (some actor) (some channel)
        = .ok context)
      ↔ actor = "" ∨ ∃ current, getUserRoleToolScopes db actor = .ok current := by
  obtain ⟨raw, hraw, hreadable⟩ := rawTools_published release
  have hsnapshot := snapshotRoleToolScopes_readable release.readable
  have hactive : ∃ active, (raw.map Json.obj).mapM (activeToolConfig env.localRunner
      (activeToolIds db (releaseToolIds (raw.map Json.obj)))) = .ok active := by
    refine exists_mapM_eq_ok fun json hjson => ?_
    obtain ⟨entries, hentries, rfl⟩ := List.mem_map.mp hjson
    exact activeToolConfig_readable (hreadable entries hentries)
  obtain ⟨active, hactive⟩ := hactive
  have hidentified : ∀ tool ∈ connectedTools db active, Identified tool := by
    intro tool htool
    obtain ⟨_, toolId, scope, -, -, -, -, -, hidentity⟩ :=
      connected_tool (show releaseConfig release.row = .ok _ from rfl) hraw hactive htool
    exact ⟨toolId, scope, congrArg Prod.fst hidentity,
      congrArg (fun identity => identity.2.1) hidentity⟩
  rw [← applyRuntimeToolAuthz_isOk hidentified hsnapshot]
  constructor
  · rintro ⟨context, h⟩
    obtain ⟨_, hconfig, h⟩ := bind_eq_ok.mp h
    cases hconfig
    obtain ⟨_, -, h⟩ := bind_eq_ok.mp h
    obtain ⟨_, hraw', h⟩ := bind_eq_ok.mp h
    cases hraw.symm.trans hraw'
    obtain ⟨_, hactive', h⟩ := bind_eq_ok.mp h
    cases hactive.symm.trans hactive'
    obtain ⟨out, hauthz, -⟩ := bind_eq_ok.mp h
    exact ⟨out, hauthz⟩
  · rintro ⟨⟨tools, policy⟩, hauthz⟩
    have htools : ∀ tool ∈ tools, Identified tool := by
      intro tool htool
      rcases applyRuntimeToolAuthz_ok hauthz with ⟨-, rfl⟩ | ⟨_, _, _, -, -, -, -, hallowed⟩
      · cases htool
      · exact hidentified tool ((hallowed tool).mp htool).1
    obtain ⟨scopes, hscopes⟩ := toolScopes_isOk htools
    exact ⟨_, bind_eq_ok.mpr ⟨release.config, rfl, bind_eq_ok.mpr ⟨release.agent,
      releaseAgent_published release, bind_eq_ok.mpr ⟨_, hraw, bind_eq_ok.mpr ⟨active, hactive,
      bind_eq_ok.mpr ⟨(tools, policy), hauthz, bind_eq_ok.mpr ⟨scopes, hscopes,
      bind_eq_ok.mpr ⟨release.channels, channels_published release, rfl⟩⟩⟩⟩⟩⟩⟩⟩

/-- What admission reads from the context of a published release. -/
theorem context_reads {actorId channel : Option String} {context : RuntimeContext}
    (h : buildRuntimeContext env db release.row actorId channel = .ok context) :
    Dict.get context.release "status" = .str release.status
      ∧ Dict.get context.release "visibility"
        = .str (releaseVisibility release.row release.agent)
      ∧ Dict.get? context.agent "enabled" = some (.bool release.enabled)
      ∧ Dict.get context.agent "owner_user_id" = Dict.get release.agent "owner_user_id"
      ∧ Dict.get context.agent "channels" = .arr release.channels
      ∧ context.actorId = actorId ∧ context.channel = channel := by
  obtain ⟨_, hconfig, h⟩ := bind_eq_ok.mp h
  cases hconfig
  obtain ⟨_, hagent, h⟩ := bind_eq_ok.mp h
  cases (releaseAgent_published release).symm.trans hagent
  obtain ⟨_, -, h⟩ := bind_eq_ok.mp h
  obtain ⟨_, -, h⟩ := bind_eq_ok.mp h
  obtain ⟨_, -, h⟩ := bind_eq_ok.mp h
  obtain ⟨_, -, h⟩ := bind_eq_ok.mp h
  obtain ⟨_, hchannels, h⟩ := bind_eq_ok.mp h
  cases (channels_published release).symm.trans hchannels
  cases h
  exact ⟨rfl, rfl, rfl, rfl, rfl, rfl, rfl⟩

end Reading

end Aegora
