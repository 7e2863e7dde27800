import Aegora.CapabilityCeiling
import Aegora.Transactions

/-!
# Tool policies while the tables change

`build_runtime_context` reads the platform tables in successive queries,
each on its own connection, and a change may commit between any two of
them. The first query says which released tools are active, the second
one reads the policies of the active tools. A tool that the second query
no longer finds keeps the policy of the release snapshot.
-/

namespace Aegora

open Py

/-! ## Changes -/

/-- A change of the tables that commits. -/
inductive PlatformChange where
  /-- `update_tool_status`. -/
  | toolStatus (toolId status : String)
  /-- A registration, publication or discovery writes the row. -/
  | toolRow (row : ToolRow)
  /-- A write to the other tables. -/
  | others (tables : PlatformTables)

def PlatformChange.apply (db : PlatformTables) : PlatformChange → PlatformTables
  | .toolStatus toolId status =>
      { db with tools := db.tools.map fun row =>
          if row.id = toolId then { row with status := status } else row }
  | .toolRow row => { db with tools := Transactions.put ToolRow.id db.tools row }
  | .others tables => { tables with tools := db.tools }

/-- The tables after `n` of the changes. -/
def tablesAfter (db : PlatformTables) (changes : List PlatformChange) (n : Nat) : PlatformTables :=
  (changes.take n).foldl PlatformChange.apply db

/-! ## The queries -/

/-- The state of the tables that each query sees. -/
structure QueriedTables where
  active : PlatformTables
  policies : PlatformTables
  connections : PlatformTables
  grants : PlatformTables
  governance : PlatformTables

/-- How many changes have committed when the call starts, at each of its queries, and when it
returns. -/
structure QueryTimes where
  start : Nat
  active : Nat
  policies : Nat
  connections : Nat
  grants : Nat
  governance : Nat
  stop : Nat
  ordered : start ≤ active ∧ active ≤ policies ∧ policies ≤ connections ∧ connections ≤ grants
    ∧ grants ≤ governance ∧ governance ≤ stop

def queriedTables (db : PlatformTables) (changes : List PlatformChange) (times : QueryTimes) :
    QueriedTables where
  active := tablesAfter db changes times.active
  policies := tablesAfter db changes times.policies
  connections := tablesAfter db changes times.connections
  grants := tablesAfter db changes times.grants
  governance := tablesAfter db changes times.governance

/-- `build_runtime_context`, each query on the state it sees. -/
def buildRuntimeContextAcross (env : RuntimeEnv) (seen : QueriedTables) (release : ReleaseRow)
    (actorId channel : Option String) : Except ContextError RuntimeContext := do
  let config ← releaseConfig release
  let agent ← releaseAgent config
  let raw ← rawTools config
  let released := releaseToolIds raw
  let activeIds := activeToolIds seen.active released
  let active ← raw.mapM (activeToolConfig env.localRunner activeIds)
  let refreshed := (active.filterMap id).map (refreshPolicy seen.policies)
  let changed := (refreshed.filter Prod.snd).map fun tool =>
    (Dict.get tool.1 "tool_id").pyStr
  let configured := refreshed.map Prod.fst
  let connected := configured.filterMap (refreshConnection seen.connections)
  let disconnected :=
    (configured.filter fun tool => (refreshConnection seen.connections tool).isNone).map
      fun tool => ((Dict.get tool "tool_id").orElse (.str "")).pyStr
  let snapshot := (Dict.get config "permission_snapshot").dictOrEmpty
  let (tools, authzPolicy) ← applyRuntimeToolAuthz seen.grants connected actorId snapshot
  let scopes ← tools.mapM fun tool => do
    let scope ← normalizeScope (dictOrNone (Dict.get tool "scope"))
    return ((Dict.get tool "tool_id").pyStr, scope)
  let toolScopes := Dict.ofEntries scopes
  let visibility := releaseVisibility release agent
  let channels ← pyList ((Dict.get agent "channels").orElse (.arr []))
  return {
    release :=
      [("release_id", .str release.releaseId), ("agent_id", .str release.agentId),
       ("version", .int release.version), ("status", .str release.status),
       ("visibility", .str visibility)]
    agent :=
      [("id", Dict.get agent "id"),
       ("name", (Dict.get agent "name").orElse (.str "released-agent")),
       ("icon", (Dict.get agent "icon").orElse (.str "robot")),
       ("owner_user_id", Dict.get agent "owner_user_id"),
       ("system_prompt", (Dict.get agent "system_prompt").orElse (.str "")),
       ("model", Dict.get agent "model"),
       ("enabled", .bool ((Dict.get? agent "enabled").getD (.bool true)).truthy),
       ("channels", .arr channels),
       ("visibility", .str visibility)]
    actorId := actorId
    channel := channel
    tools := tools
    toolIds := sortedSet (toolScopes.map Prod.fst)
    toolScopes := toolScopes
    permissionSnapshot := snapshot
    learningPolicy := normalizeLearningPolicy (Dict.get config "learning_policy")
    memoryGovernance := fetchMemoryGovernance seen.governance.governance env.tenantEnv actorId
      visibility env.governanceFailure
    policy := Dict.merge
      [("source", .str "agent_release"),
       ("disabled_tools_filtered", strings (sortedSet (released.filter (· ∉ activeIds)))),
       ("runtime_tool_policy_refreshed", strings (sortedSet changed)),
       ("mcp_connection_filtered_tools", strings (sortedSet disconnected))]
      authzPolicy }

/-- With no change in between, all queries see one state. -/
theorem buildRuntimeContextAcross_same (env : RuntimeEnv) (db : PlatformTables)
    (release : ReleaseRow) (actorId channel : Option String) :
    buildRuntimeContextAcross env ⟨db, db, db, db, db⟩ release actorId channel
      = buildRuntimeContext env db release actorId channel := rfl

/-! ## Policies of rows -/

/-- The policy fields of the tool are those of the row. -/
def CarriesPolicy (tool : Dict) (row : ToolRow) : Prop :=
  ∀ kv ∈ row.policy, Dict.get tool kv.1 = kv.2

instance (tool : Dict) (row : ToolRow) : Decidable (CarriesPolicy tool row) :=
  inferInstanceAs (Decidable (∀ _ ∈ _, _))

/-- The policy fields are those of a state of the tool's row during the call. -/
def FromLiveRow (db : PlatformTables) (changes : List PlatformChange) (times : QueryTimes)
    (tool : Dict) : Prop :=
  ∃ n, times.start ≤ n ∧ n ≤ times.stop ∧ ∃ row ∈ (tablesAfter db changes n).tools,
    Dict.get tool "tool_id" = .str row.id ∧ CarriesPolicy tool row

/-- A released tool, normalized, that every query but the one for policies lets through. -/
structure PassesQueries (env : RuntimeEnv) (seen : QueriedTables) (release : ReleaseRow)
    (actorId : Option String) (toolId : String) (configured : Dict) : Prop where
  config : ∃ config raw entries, releaseConfig release = .ok config ∧ rawTools config = .ok raw
    ∧ .obj entries ∈ raw ∧ Dict.get entries "tool_id" = .str toolId
    ∧ toolId ∈ activeToolIds seen.active (releaseToolIds raw)
    ∧ normalizeToolConfig env.localRunner entries = .ok configured
  connected : Connected seen.connections (Dict.get configured "mcp_connection_id")
  authorized : ∃ config actor current created, releaseConfig release = .ok config
    ∧ actorId = some actor ∧ actor ≠ "" ∧ getUserRoleToolScopes seen.grants actor = .ok current
    ∧ snapshotRoleToolScopes (Dict.get config "permission_snapshot").dictOrEmpty = .ok created
    ∧ authorizeTool created current configured = .ok .allowed

/-- The row of the tool is active. -/
def RowActive (db : PlatformTables) (toolId : String) : Prop :=
  ∃ row ∈ db.tools, row.id = toolId ∧ row.status = "active"

/-! ## The tools of the context -/

section

variable {env : RuntimeEnv} {seen : QueriedTables} {release : ReleaseRow}
  {actorId channel : Option String} {context : RuntimeContext}

theorem authorizeTool_congr {tool next : Dict} (h : toolIdentity next = toolIdentity tool)
    (created current : List (String × Scope)) :
    authorizeTool created current next = authorizeTool created current tool := by
  obtain ⟨hid, hscope, -⟩ := Prod.mk.injEq .. |>.mp h |>.imp_right (Prod.mk.injEq .. |>.mp)
  unfold authorizeTool
  rw [hid, hscope]

theorem buildRuntimeContextAcross_ok
    (h : buildRuntimeContextAcross env seen release actorId channel = .ok context) :
    ∃ config raw active policy, releaseConfig release = .ok config ∧ rawTools config = .ok raw
      ∧ raw.mapM (activeToolConfig env.localRunner
          (activeToolIds seen.active (releaseToolIds raw))) = .ok active
      ∧ applyRuntimeToolAuthz seen.grants
          ((((active.filterMap id).map (refreshPolicy seen.policies)).map Prod.fst).filterMap
            (refreshConnection seen.connections)) actorId
          (Dict.get config "permission_snapshot").dictOrEmpty = .ok (context.tools, policy) := by
  obtain ⟨config, hconfig, h⟩ := bind_eq_ok.mp h
  obtain ⟨agent, -, h⟩ := bind_eq_ok.mp h
  obtain ⟨raw, hraw, h⟩ := bind_eq_ok.mp h
  obtain ⟨active, hactive, h⟩ := bind_eq_ok.mp h
  obtain ⟨⟨tools, policy⟩, hauthz, h⟩ := bind_eq_ok.mp h
  obtain ⟨scopes, -, h⟩ := bind_eq_ok.mp h
  obtain ⟨channels, -, h⟩ := bind_eq_ok.mp h
  cases h
  exact ⟨config, raw, active, policy, hconfig, hraw, hactive, hauthz⟩

theorem mem_refreshed {active : List (Option Dict)} {tool : Dict} :
    tool ∈ (((active.filterMap id).map (refreshPolicy seen.policies)).map Prod.fst).filterMap
        (refreshConnection seen.connections)
      ↔ ∃ configured, some configured ∈ active
        ∧ refreshConnection seen.connections (refreshPolicy seen.policies configured).1
          = some tool := by
  simp only [List.mem_filterMap, List.mem_map, id_eq]
  constructor
  · rintro ⟨_, ⟨_, ⟨configured, ⟨_, hactive, rfl⟩, rfl⟩, rfl⟩, htool⟩
    exact ⟨configured, hactive, htool⟩
  · rintro ⟨configured, hactive, htool⟩
    exact ⟨_, ⟨_, ⟨configured, ⟨_, hactive, rfl⟩, rfl⟩, rfl⟩, htool⟩

theorem identity_of_refreshed {configured tool : Dict}
    (h : refreshConnection seen.connections (refreshPolicy seen.policies configured).1
      = some tool) :
    toolIdentity tool = toolIdentity configured
      ∧ Connected seen.connections (Dict.get configured "mcp_connection_id") := by
  obtain ⟨hidentity, hconnected⟩ := refreshConnection_some h
  have hpolicy := refreshPolicy_identity seen.policies configured
  refine ⟨hidentity.trans hpolicy, ?_⟩
  have hconnection := congrArg (fun identity => identity.2.2) hpolicy
  simp only [toolIdentity] at hconnection
  rwa [hconnection] at hconnected

/-- The context has the tools that pass, refreshed. -/
theorem mem_tools_across
    (h : buildRuntimeContextAcross env seen release actorId channel = .ok context) {tool : Dict} :
    tool ∈ context.tools ↔ ∃ toolId configured,
      PassesQueries env seen release actorId toolId configured
        ∧ refreshConnection seen.connections (refreshPolicy seen.policies configured).1
          = some tool := by
  obtain ⟨config, raw, active, policy, hconfig, hraw, hactive, hauthz⟩ :=
    buildRuntimeContextAcross_ok h
  rcases applyRuntimeToolAuthz_ok hauthz with
    ⟨hactor, hempty⟩ | ⟨actor, current, created, hactor, hnonempty, hcurrent, hcreated, hallowed⟩
  · rw [hempty]
    constructor
    · intro hnil
      cases hnil
    · rintro ⟨_, _, hpasses, -⟩
      obtain ⟨_, actor, _, _, -, hsome, hne, -⟩ := hpasses.authorized
      rcases hactor with hnone | hblank
      · rw [hnone] at hsome
        cases hsome
      · rw [hblank] at hsome
        exact absurd (Option.some.inj hsome).symm hne
  · rw [hallowed, mem_refreshed]
    constructor
    · rintro ⟨⟨configured, hconfigured, htool⟩, hverdict⟩
      obtain ⟨entry, hentry, hnormal⟩ := mem_of_mapM_eq_ok hactive hconfigured
      obtain ⟨entries, toolId, rfl, hid, hin, hnormalized⟩ := activeToolConfig_some hnormal
      obtain ⟨hidentity, hconnected⟩ := identity_of_refreshed htool
      rw [authorizeTool_congr hidentity] at hverdict
      exact ⟨toolId, configured, ⟨⟨config, raw, entries, hconfig, hraw, hentry, hid, hin,
        hnormalized⟩, hconnected, ⟨config, actor, current, created, hconfig, hactor, hnonempty,
        hcurrent, hcreated, hverdict⟩⟩, htool⟩
    · rintro ⟨toolId, configured, hpasses, htool⟩
      obtain ⟨config', raw', entries, hconfig', hraw', hentry, hid, hin, hnormalized⟩ :=
        hpasses.config
      obtain rfl : config = config' := Except.ok.inj (hconfig.symm.trans hconfig')
      obtain rfl : raw = raw' := Except.ok.inj (hraw.symm.trans hraw')
      obtain ⟨config'', actor', current', created', hconfig'', hactor', -, hcurrent', hcreated',
        hverdict⟩ := hpasses.authorized
      obtain rfl : config = config'' := Except.ok.inj (hconfig.symm.trans hconfig'')
      obtain rfl : actor = actor' := Option.some.inj (hactor.symm.trans hactor')
      obtain rfl : current = current' := Except.ok.inj (hcurrent.symm.trans hcurrent')
      obtain rfl : created = created' := Except.ok.inj (hcreated.symm.trans hcreated')
      obtain ⟨out, hmem, hnormal⟩ := mapM_eq_ok_mem hactive hentry
      obtain ⟨configured', rfl, hnormalized'⟩ := activeToolConfig_active hnormal hid hin
      obtain rfl : configured = configured' :=
        Except.ok.inj (hnormalized.symm.trans hnormalized')
      refine ⟨⟨configured, hmem, htool⟩, ?_⟩
      rw [authorizeTool_congr (identity_of_refreshed htool).1]
      exact hverdict

/-! ## Where the policy fields come from -/

theorem policy_keys {row : ToolRow} {key : String} (h : key ∈ row.policy.map Prod.fst) :
    key ∉ ["runner_tool_id", "mcp_connection"] ∧ key ≠ "tool_id" := by
  simp only [ToolRow.policy, List.map_cons, List.map_nil, List.mem_cons, List.not_mem_nil,
    or_false] at h
  rcases h with rfl | rfl | rfl | rfl | rfl | rfl | rfl | rfl <;> decide

theorem get_refreshConnection {db : PlatformTables} {tool next : Dict} {key : String}
    (hkey : key ∉ ["runner_tool_id", "mcp_connection"])
    (h : refreshConnection db tool = some next) : Dict.get next key = Dict.get tool key := by
  unfold refreshConnection at h
  dsimp only at h
  split at h
  · obtain ⟨connection, -, rfl⟩ := Option.map_eq_some_iff.mp h
    exact Dict.get_merge_of_not_mem _ hkey
  · cases h
    rfl

theorem carriesPolicy_refreshConnection {db : PlatformTables} {tool next : Dict} (row : ToolRow)
    (h : refreshConnection db tool = some next) :
    CarriesPolicy next row ↔ CarriesPolicy tool row := by
  have hget := fun kv (hkv : kv ∈ row.policy) =>
    get_refreshConnection (policy_keys (List.mem_map_of_mem hkv)).1 h
  constructor
  · intro hcarries kv hkv
    rw [← hget kv hkv]
    exact hcarries kv hkv
  · intro hcarries kv hkv
    rw [hget kv hkv]
    exact hcarries kv hkv

theorem carriesPolicy_merge (tool : Dict) (row : ToolRow) :
    CarriesPolicy (Dict.merge tool row.policy) row := by
  intro kv hkv
  have hnodup : (row.policy.map Prod.fst).Nodup := by
    simp [ToolRow.policy]
  rw [Dict.get, Dict.get?_merge_of_mem tool hnodup hkv]
  rfl

theorem configured_id {toolId : String} {configured : Dict}
    (h : PassesQueries env seen release actorId toolId configured) :
    Dict.get configured "tool_id" = .str toolId := by
  obtain ⟨_, _, entries, -, -, -, hid, -, hnormalized⟩ := h.config
  obtain ⟨scope, -, hidentity⟩ := normalizeToolConfig_identity hnormalized
  have hconfigured := congrArg Prod.fst hidentity
  rw [hid] at hconfigured
  exact hconfigured

theorem activeToolPolicy_cases (db : PlatformTables) (toolId : String) :
    (∃ row ∈ db.tools, row.id = toolId ∧ row.status = "active"
        ∧ activeToolPolicy db toolId = some row.policy)
      ∨ (¬ RowActive db toolId ∧ activeToolPolicy db toolId = none) := by
  unfold activeToolPolicy
  cases hfind : db.tools.find? fun row => row.id = toolId ∧ row.status = "active" with
  | none =>
      right
      refine ⟨?_, rfl⟩
      rintro ⟨row, hrow, hactive⟩
      have hnone := List.find?_eq_none.mp hfind row hrow
      exact hnone (decide_eq_true hactive)
  | some row =>
      left
      have hactive := List.find?_some hfind
      rw [decide_eq_true_eq] at hactive
      exact ⟨row, List.mem_of_find?_eq_some hfind, hactive.1, hactive.2, rfl⟩

theorem refreshPolicy_of_id (db : PlatformTables) {tool : Dict} {toolId : String}
    (hid : Dict.get tool "tool_id" = .str toolId) :
    (refreshPolicy db tool).1 = ((activeToolPolicy db toolId).map (Dict.merge tool)).getD tool := by
  have htext : ((Dict.get tool "tool_id").orElse (.str "")).pyStr = toolId := by
    rw [hid, Json.orElse]
    split
    · rfl
    · rename_i hblank
      have hempty : toolId = "" := by simpa using hblank
      rw [hempty]
      rfl
  unfold refreshPolicy
  rw [htext]
  cases activeToolPolicy db toolId with
  | none => rfl
  | some policy => rfl

end

/-! ## When every policy is a live one -/

variable {env : RuntimeEnv} {db : PlatformTables} {changes : List PlatformChange}
  {times : QueryTimes} {release : ReleaseRow} {actorId channel : Option String}
  {context : RuntimeContext}

theorem fromLiveRow_congr {tool next : Dict}
    (hid : Dict.get next "tool_id" = Dict.get tool "tool_id")
    (hpolicy : ∀ row, CarriesPolicy next row ↔ CarriesPolicy tool row) :
    FromLiveRow db changes times next ↔ FromLiveRow db changes times tool := by
  unfold FromLiveRow
  simp only [hid, hpolicy]

/-- Every tool of the context carries the policy of its row at some time of the call exactly if
every tool that passes the other queries is still active when the policies are read, or was
published with the policy that its row has at some time of the call. -/
theorem policies_live_iff
    (h : buildRuntimeContextAcross env (queriedTables db changes times) release actorId channel
      = .ok context) :
    (∀ tool ∈ context.tools, FromLiveRow db changes times tool)
      ↔ ∀ toolId configured,
          PassesQueries env (queriedTables db changes times) release actorId toolId configured →
            RowActive (tablesAfter db changes times.policies) toolId
              ∨ FromLiveRow db changes times configured := by
  obtain ⟨hstart, hpolicies, hconnections, hgrants, hgovernance, hstop⟩ := times.ordered
  constructor
  · intro hlive toolId configured hpasses
    have hid := configured_id hpasses
    rcases activeToolPolicy_cases (tablesAfter db changes times.policies) toolId with
      ⟨row, hrow, hrowid, hstatus, -⟩ | ⟨-, hnone⟩
    · exact .inl ⟨row, hrow, hrowid, hstatus⟩
    · right
      have hkept : (refreshPolicy (tablesAfter db changes times.policies) configured).1
          = configured := by
        rw [refreshPolicy_of_id _ hid, hnone]
        rfl
      obtain ⟨tool, htool⟩ := refreshConnection_isSome hpasses.connected
      have hmem := (mem_tools_across h).mpr ⟨toolId, configured, hpasses, by
        show refreshConnection _ (refreshPolicy (tablesAfter db changes times.policies)
          configured).1 = some tool
        rw [hkept]
        exact htool⟩
      refine (fromLiveRow_congr ?_ fun row => ?_).mp (hlive tool hmem)
      · exact get_refreshConnection (by decide) htool
      · exact carriesPolicy_refreshConnection row htool
  · intro hadmitted tool htool
    obtain ⟨toolId, configured, hpasses, hrefreshed⟩ := (mem_tools_across h).mp htool
    have hid := configured_id hpasses
    have htoolId : Dict.get tool "tool_id" = .str toolId :=
      (congrArg Prod.fst (identity_of_refreshed hrefreshed).1).trans hid
    have hpolicy := fun row => carriesPolicy_refreshConnection row hrefreshed
    rw [show (queriedTables db changes times).policies = tablesAfter db changes times.policies
      from rfl, refreshPolicy_of_id _ hid] at hpolicy
    rcases activeToolPolicy_cases (tablesAfter db changes times.policies) toolId with
      ⟨row, hrow, hrowid, -, hsome⟩ | ⟨hinactive, hnone⟩
    · refine ⟨times.policies, by omega, by omega, row, hrow, hrowid ▸ htoolId, ?_⟩
      rw [hpolicy, hsome]
      exact carriesPolicy_merge configured row
    · have hpublished := (hadmitted toolId configured hpasses).resolve_left hinactive
      rw [hnone] at hpolicy
      exact (fromLiveRow_congr (htoolId.trans hid.symm) hpolicy).mpr hpublished

/-- The administrator has required approval for the tool since it was published. -/
def guardedTables : PlatformTables :=
  { payTables with tools := [{ id := "pay", status := "active", requiresApproval := true }] }

/-- The tool is disabled between the query for active tools and the one for policies. -/
def disabledBetween : QueryTimes where
  start := 0
  active := 0
  policies := 1
  connections := 1
  grants := 1
  governance := 1
  stop := 1
  ordered := by decide

def payContext (db : PlatformTables) (changes : List PlatformChange) :
    Except ContextError RuntimeContext :=
  buildRuntimeContextAcross { localRunner := "mcp+stdio://python" }
    (queriedTables db changes disabledBetween) (payRelease [("pay", .obj [])]) (some "u1")
    (some "web_console")

theorem policies_live_iff_pay :
    ∃ context, payContext guardedTables [] = .ok context ∧ context.tools.length = 1
      ∧ ((∀ tool ∈ context.tools, FromLiveRow guardedTables [] disabledBetween tool)
        ↔ ∀ toolId configured,
            PassesQueries { localRunner := "mcp+stdio://python" }
                (queriedTables guardedTables [] disabledBetween) (payRelease [("pay", .obj [])])
                (some "u1") toolId configured →
              RowActive (tablesAfter guardedTables [] disabledBetween.policies) toolId
                ∨ FromLiveRow guardedTables [] disabledBetween configured) := by
  have hlength : (payContext guardedTables []).map (fun context => context.tools.length)
      = .ok 1 := by decide +kernel
  cases h : payContext guardedTables [] with
  | error _ =>
      rw [h] at hlength
      cases hlength
  | ok context =>
      rw [h] at hlength
      exact ⟨context, rfl, Except.ok.inj hlength, policies_live_iff h⟩

/-- The tool comes with the published policy, without approval, which no state of its row had. -/
theorem published_policy_kept :
    ∃ context, payContext guardedTables [.toolStatus "pay" "disabled"] = .ok context
      ∧ context.tools.map (Dict.get · "requires_approval") = [.bool false]
      ∧ (∀ n, ∀ row ∈ (tablesAfter guardedTables [.toolStatus "pay" "disabled"] n).tools,
          row.requiresApproval = true)
      ∧ ¬ ∀ tool ∈ context.tools,
          FromLiveRow guardedTables [.toolStatus "pay" "disabled"] disabledBetween tool := by
  have hfalse : (payContext guardedTables [.toolStatus "pay" "disabled"]).map
      (fun context => context.tools.map (Dict.get · "requires_approval")) = .ok [.bool false] := by
    decide +kernel
  have hrows : ∀ n, ∀ row ∈ (tablesAfter guardedTables [.toolStatus "pay" "disabled"] n).tools,
      row.requiresApproval = true := by
    intro n
    cases n with
    | zero => decide
    | succ n =>
        simp only [tablesAfter, List.take_succ_cons, List.take_nil]
        decide
  cases h : payContext guardedTables [.toolStatus "pay" "disabled"] with
  | error _ =>
      rw [h] at hfalse
      cases hfalse
  | ok context =>
      rw [h] at hfalse
      have hvalues : context.tools.map (Dict.get · "requires_approval") = [.bool false] :=
        Except.ok.inj hfalse
      refine ⟨context, rfl, hvalues, hrows, fun hlive => ?_⟩
      obtain ⟨tool, htool, hvalue⟩ :=
        List.mem_map.mp (hvalues ▸ List.mem_singleton_self (Json.bool false))
      obtain ⟨n, -, -, row, hrow, -, hcarries⟩ := hlive tool htool
      have hrequires := hcarries ("requires_approval", .bool row.requiresApproval)
        (by simp [ToolRow.policy])
      rw [hrows n row hrow] at hrequires
      rw [hvalue] at hrequires
      cases hrequires

end Aegora
