import Aegora.DraftAccess

/-!
# The tools that admission lets through

The Control Plane admits a tool by its identity: configured, active, granted.
It never compares the scope the tool is configured with to the scope that the
roles of the actor grant, and of a release it leaves out two bounds of the
Runtime, the connection that the configuration names and the grants of the
publisher. `ToolGap` lists the states in which this shows
(`admitted_tools_agree_iff`).
-/

namespace Aegora

open Py

/-! ## Tools an actor is entitled to -/

/-- The scope is inside what the active roles of the actor grant for the tool. -/
def WithinGrants (db : PlatformTables) (actorId toolId : String) (scope : Scope) : Prop :=
  ∀ kv ∈ scope, ∀ value ∈ kv.2, GrantsValue db actorId toolId kv.1 value

/-- An admitted tool, configured by `toolScopes`, is active and granted with its scope. -/
structure Entitled (db : PlatformTables) (actorId : String) (toolScopes : List (String × Scope))
    (toolId : String) : Prop where
  active : ∃ row ∈ db.tools, row.id = toolId ∧ toolRowActive db row = true
  granted : Granted db actorId toolId
  within : ∃ scope, Dict.get? toolScopes toolId = some scope
    ∧ WithinGrants db actorId toolId scope

/-- Both paths of the Control Plane admit entitled tools only, and where the Runtime admits
the release too, with the same tools. -/
structure AdmittedToolsAgree (env : RuntimeEnv) (db : DraftTables)
    (agentId releaseId actorId channel : String) : Prop where
  draft : ∀ agent allowed,
    ControlPlane.resolveAgentAccess db agentId actorId channel = .ok (agent, allowed) →
    ∀ toolId ∈ allowed, Entitled db.toPlatformTables actorId agent.toolScopes toolId
  release : ∀ agent allowed,
    ControlPlane.resolveReleaseAccess db.shared agentId releaseId actorId channel
      = .ok (agent, allowed) →
    ∀ toolId ∈ allowed, Entitled db.toPlatformTables actorId agent.toolScopes toolId
  agree : ∀ context agent allowed,
    resolveRuntimeContext env db.shared agentId releaseId actorId channel = .ok context →
    ControlPlane.resolveReleaseAccess db.shared agentId releaseId actorId channel
      = .ok (agent, allowed) →
    ∀ toolId, toolId ∈ allowed ↔ toolId ∈ context.toolIds

/-! ## Where it fails -/

/-- The draft is admitted. -/
structure DraftChecks (db : PlatformTables) (agent : AgentRecord) (actorId channel : String) :
    Prop where
  enabled : agent.enabled = true
  active : userIsActive db actorId = true
  mayRun : ControlPlane.canRunAgent db actorId (ControlPlane.draftRunner agent) = true
  channel : channel ∈ agent.channels
  grants : ∃ current, getUserRoleToolScopes db actorId = .ok current

/-- The tool of a draft passes the checks on its identity. -/
structure DraftOffers (db : PlatformTables) (agent : LoadedAgent) (actorId toolId : String) :
    Prop where
  configured : toolId ∈ agent.toolScopes.map Prod.fst
  snapshot : .str toolId ∈ agent.snapshotTools
  granted : Granted db actorId toolId
  active : ∃ row ∈ db.tools, row.id = toolId ∧ toolRowActive db row = true

/-- The same for a tool of a release. -/
structure ReleaseOffers (db : PlatformTables) (release : PublishedRelease)
    (actorId toolId : String) : Prop where
  released : toolId ∈ releaseToolIds (releaseTools release.row)
  granted : Granted db actorId toolId
  active : ∃ row ∈ db.tools, row.id = toolId ∧ toolRowActive db row = true

/-- The scope that each tool of a release is configured with. -/
def PublishedRelease.toolScopes (release : PublishedRelease) : List (String × Scope) :=
  Dict.ofEntries ((releaseTools release.row).filterMap fun tool =>
    tool.asDict?.bind fun entries => (ControlPlane.toolScope entries).toOption)

/-- The publisher's grants cover the tool, if the publisher had any. -/
def InPublished (release : ReleaseRow) (toolId : String) (scope : Scope) : Prop :=
  ∀ mapping, snapshotMapping release = some mapping → mapping ≠ [] →
    InSnapshot mapping toolId scope

/-- Both services admit the release. -/
structure BothAdmit (db : SharedTables) (release : PublishedRelease)
    (agentId releaseId actorId channel : String) : Prop where
  fetched : fetchAgentRelease db agentId releaseId = some release
  checks : SharedChecks db.toPlatformTables release actorId channel
  enabled : agentIsEnabled db agentId = some true
  actor : actorId ≠ ""
  runtime : RuntimeMayRun db release actorId
  controlPlane : ControlPlaneMayRun db release actorId

inductive ToolGap (db : DraftTables) (agentId releaseId actorId channel : String) : Prop where
  /-- A tool of the draft is configured with more than the actor's roles grant. -/
  | draftScope (agent : LoadedAgent) (toolId : String) (scope : Scope)
      (loaded : loadAgent db agentId = .ok (some agent))
      (checks : DraftChecks db.toPlatformTables agent.toAgentRecord actorId channel)
      (offers : DraftOffers db.toPlatformTables agent actorId toolId)
      (configured : Dict.get? agent.toolScopes toolId = some scope)
      (outside : ¬ WithinGrants db.toPlatformTables actorId toolId scope)
  /-- A tool of the release is. -/
  | releaseScope (release : PublishedRelease) (toolId : String) (scope : Scope)
      (fetched : fetchAgentRelease db.shared agentId releaseId = some release)
      (checks : SharedChecks db.toPlatformTables release actorId channel)
      (enabled : agentIsEnabled db.shared agentId = some true)
      (mayRun : ControlPlaneMayRun db.shared release actorId)
      (offers : ReleaseOffers db.toPlatformTables release actorId toolId)
      (configured : Dict.get? release.toolScopes toolId = some scope)
      (outside : ¬ WithinGrants db.toPlatformTables actorId toolId scope)
  /-- Every entry of a released tool names a connection that is not active, or has a scope
  outside the publisher's grants or outside the actor's. -/
  | runtimeBounds (release : PublishedRelease) (toolId : String)
      (admitted : BothAdmit db.shared release agentId releaseId actorId channel)
      (offers : ReleaseOffers db.toPlatformTables release actorId toolId)
      (refused : ∀ entries scope, .obj entries ∈ releaseTools release.row →
        Dict.get entries "tool_id" = .str toolId →
        normalizeScope (dictOrNone (Dict.get entries "scope")) = .ok scope →
        ¬ (Connected db.toPlatformTables (Dict.get entries "mcp_connection_id")
          ∧ InPublished release.row toolId scope
          ∧ WithinGrants db.toPlatformTables actorId toolId scope))

/-! ## What the Control Plane admits of a draft -/

namespace ControlPlane

theorem mem_textsOf {items : List Json} {text : String} :
    text ∈ textsOf items ↔ .str text ∈ items := by
  unfold textsOf
  rw [List.mem_filterMap]
  constructor
  · rintro ⟨item, hitem, heq⟩
    split at heq
    · cases heq
      exact hitem
    · cases heq
  · exact fun h => ⟨.str text, h, rfl⟩

theorem mem_effectiveTools {configured createdAt current : List String} {toolId : String} :
    toolId ∈ effectiveTools configured createdAt current
      ↔ toolId ∈ configured ∧ toolId ∈ createdAt ∧ toolId ∈ current := by
  unfold effectiveTools
  simp

/-- The keys of the merged scopes are the granted tools. -/
theorem mem_roleTools {db : PlatformTables} {actorId : String} {scopes : List (String × Scope)}
    (h : getUserRoleToolScopes db actorId = .ok scopes) (toolId : String) :
    toolId ∈ scopes.map Prod.fst ↔ Granted db actorId toolId := by
  rw [← (getUserRoleToolScopes_spec h toolId).1, Dict.isSome_get?_iff]

theorem checkAgentAccess_ok {db : PlatformTables} {actorId channel : String}
    {agent : AgentRecord} :
    checkAgentAccess db actorId channel agent = .ok ()
      ↔ (agent.enabled = true ∧ userIsActive db actorId = true)
        ∧ canRunAgent db actorId (draftRunner agent) = true ∧ channel ∈ agent.channels := by
  unfold checkAgentAccess
  simp [ite_error_eq_ok]

theorem resolveAgentAccess_ok {db : DraftTables} {agentId actorId channel : String}
    {agent : LoadedAgent} :
    (∃ allowed, resolveAgentAccess db agentId actorId channel = .ok (agent, allowed))
      ↔ loadAgent db agentId = .ok (some agent)
        ∧ DraftChecks db.toPlatformTables agent.toAgentRecord actorId channel := by
  constructor
  · rintro ⟨allowed, h⟩
    obtain ⟨loaded, hloaded, h⟩ := bind_eq_ok.mp h
    cases loaded with
    | none => cases h
    | some found =>
        obtain ⟨_, hchecks, h⟩ := bind_eq_ok.mp h
        obtain ⟨scopes, hscopes, h⟩ := bind_eq_ok.mp h
        cases h
        obtain ⟨⟨henabled, hactive⟩, hmay, hchannel⟩ := checkAgentAccess_ok.mp hchecks
        exact ⟨mapError_eq_ok.mp hloaded, henabled, hactive, hmay, hchannel, scopes,
          mapError_eq_ok.mp hscopes⟩
  · rintro ⟨hloaded, henabled, hactive, hmay, hchannel, scopes, hscopes⟩
    have hchecks := checkAgentAccess_ok.mpr ⟨⟨henabled, hactive⟩, hmay, hchannel⟩
    exact ⟨_, bind_eq_ok.mpr ⟨some agent, mapError_eq_ok.mpr hloaded, bind_eq_ok.mpr
      ⟨(), hchecks, bind_eq_ok.mpr ⟨scopes, mapError_eq_ok.mpr hscopes, rfl⟩⟩⟩⟩

theorem mem_agentTools {db : DraftTables} {agentId actorId channel : String}
    {agent : LoadedAgent} {allowed : List String}
    (h : resolveAgentAccess db agentId actorId channel = .ok (agent, allowed))
    (toolId : String) :
    toolId ∈ allowed ↔ DraftOffers db.toPlatformTables agent actorId toolId := by
  obtain ⟨loaded, hloaded, h⟩ := bind_eq_ok.mp h
  cases loaded with
  | none => cases h
  | some found =>
      obtain ⟨_, hchecks, h⟩ := bind_eq_ok.mp h
      obtain ⟨scopes, hscopes, h⟩ := bind_eq_ok.mp h
      cases h
      have hgranted := mem_roleTools (mapError_eq_ok.mp hscopes) toolId
      simp only [List.mem_filter, mem_effectiveTools, mem_activeToolIds, mem_textsOf, hgranted,
        decide_eq_true_eq]
      constructor
      · rintro ⟨⟨hconfigured, hsnapshot, hgranted⟩, -, hactive⟩
        exact ⟨hconfigured, hsnapshot, hgranted, hactive⟩
      · rintro ⟨hconfigured, hsnapshot, hgranted, hactive⟩
        exact ⟨⟨hconfigured, hsnapshot, hgranted⟩, ⟨hconfigured, hsnapshot, hgranted⟩, hactive⟩

/-! ## What it admits of a release -/

theorem buildRuntimeContext_ok {db : PlatformTables} {release : ReleaseRow}
    {actorId channel : Option String} {context : RuntimeContext}
    (h : buildRuntimeContext db release actorId channel = .ok context) :
    ∃ config raw active scopes, releaseConfig release = .ok config
      ∧ rawTools config = .ok raw
      ∧ raw.mapM (activeToolConfig (activeToolIds db (releaseToolIds raw))) = .ok active
      ∧ (active.filterMap id).mapM toolScope = .ok scopes
      ∧ context.toolScopes = Dict.ofEntries scopes
      ∧ context.toolIds = sortedSet (context.toolScopes.map Prod.fst) := by
  obtain ⟨config, hconfig, h⟩ := bind_eq_ok.mp h
  obtain ⟨agent, -, h⟩ := bind_eq_ok.mp h
  obtain ⟨raw, hraw, h⟩ := bind_eq_ok.mp h
  obtain ⟨active, hactive, h⟩ := bind_eq_ok.mp h
  obtain ⟨scopes, hscopes, h⟩ := bind_eq_ok.mp h
  obtain ⟨members, -, h⟩ := bind_eq_ok.mp h
  obtain ⟨channels, -, h⟩ := bind_eq_ok.mp h
  cases h
  exact ⟨config, raw, active, scopes, hconfig, hraw, hactive, hscopes, rfl, rfl⟩

/-- On readable tools, the scopes of the active ones are the active ones of the scopes. -/
theorem activeScopes_eq {ids : List String} {tools : List Dict} {active : List (Option Dict)}
    {scopes : List (String × Scope)} (hreadable : ∀ tool ∈ tools, ReadableTool tool)
    (hactive : (tools.map Json.obj).mapM (activeToolConfig ids) = .ok active)
    (hscopes : (active.filterMap id).mapM toolScope = .ok scopes) :
    scopes = (tools.filterMap fun tool => (toolScope tool).toOption).filter
      fun kv => decide (kv.1 ∈ ids) := by
  induction tools generalizing active scopes with
  | nil =>
      cases hactive
      cases hscopes
      rfl
  | cons tool rest ih =>
      rw [List.map_cons, List.mapM_cons] at hactive
      obtain ⟨first, hfirst, hactive⟩ := bind_eq_ok.mp hactive
      obtain ⟨others, hothers, hactive⟩ := bind_eq_ok.mp hactive
      cases hactive
      have hrest := fun tool htool => hreadable tool (List.mem_cons_of_mem _ htool)
      obtain ⟨⟨toolId, hid⟩, ⟨scope, hscope⟩, -⟩ := hreadable tool List.mem_cons_self
      have htool : toolScope tool = .ok (toolId, scope.map fun kv => (kv.1, sortedSet kv.2)) := by
        unfold toolScope
        rw [hid, hscope, normalizeScope_toJson]
        rfl
      obtain ⟨isActive, hin, hfirst⟩ := bind_eq_ok.mp hfirst
      cases hfirst
      rw [hid] at hin
      cases hin
      rw [List.filterMap_cons_some (by rw [htool]; rfl)]
      by_cases hmem : toolId ∈ ids
      · rw [List.filter_cons_of_pos (by simpa using hmem)]
        rw [List.filterMap_cons_some (by rw [if_pos (by simpa using hmem)]; rfl),
          List.mapM_cons] at hscopes
        obtain ⟨head, hhead, hscopes⟩ := bind_eq_ok.mp hscopes
        obtain ⟨tail, htail, hscopes⟩ := bind_eq_ok.mp hscopes
        cases hscopes
        cases htool.symm.trans hhead
        rw [← ih hrest hothers htail]
      · rw [List.filter_cons_of_neg (by simpa using hmem)]
        rw [List.filterMap_cons_none (by rw [if_neg (by simpa using hmem)]; rfl)] at hscopes
        exact ih hrest hothers hscopes

end ControlPlane

/-- The tools of a published release. -/
theorem releaseTools_published (release : PublishedRelease) :
    ∃ tools : List Dict, releaseTools release.row = tools.map .obj
      ∧ rawTools release.config = .ok (tools.map .obj) ∧ ∀ tool ∈ tools, ReadableTool tool := by
  obtain ⟨tools, htools, hreadable⟩ := rawTools_published release
  refine ⟨tools, ?_, htools, hreadable⟩
  rw [rawTools_ok htools]
  rfl

namespace ControlPlane

/-- The scopes of the context are those that active tools are configured with. -/
theorem get?_contextScopes {db : PlatformTables} {release : PublishedRelease}
    {actorId channel : Option String} {context : RuntimeContext}
    (h : buildRuntimeContext db release.row actorId channel = .ok context) (toolId : String) :
    Dict.get? context.toolScopes toolId
      = if toolId ∈ activeToolIds db (releaseToolIds (releaseTools release.row)) then
          Dict.get? release.toolScopes toolId
        else none := by
  obtain ⟨config, raw, active, scopes, hconfig, hraw, hactive, hscopes, hkeys, -⟩ :=
    buildRuntimeContext_ok h
  obtain ⟨tools, hreleased, htools, hreadable⟩ := releaseTools_published release
  cases hconfig
  cases htools.symm.trans hraw
  have hentries : ∀ tool : Dict, ((Json.obj tool).asDict?.bind fun entries =>
      (toolScope entries).toOption) = (toolScope tool).toOption := fun tool => rfl
  rw [hkeys, activeScopes_eq hreadable hactive hscopes, PublishedRelease.toolScopes, hreleased,
    List.filterMap_map]
  simp only [Function.comp_def, hentries]
  rw [Dict.get?_ofEntries_filter fun key =>
    decide (key ∈ activeToolIds db (releaseToolIds (tools.map Json.obj)))]
  simp

/-- A released identity has a configured scope. -/
theorem exists_configuredScope {release : PublishedRelease} {toolId : String}
    (h : toolId ∈ releaseToolIds (releaseTools release.row)) :
    ∃ scope, Dict.get? release.toolScopes toolId = some scope := by
  obtain ⟨tools, hreleased, -, hreadable⟩ := releaseTools_published release
  rw [← Option.isSome_iff_exists, Dict.isSome_get?_iff, PublishedRelease.toolScopes,
    Dict.mem_keys_ofEntries]
  unfold releaseToolIds at h
  rw [hreleased] at h ⊢
  obtain ⟨tool, htool, hid⟩ := List.mem_filterMap.mp h
  obtain ⟨entries, hentries, rfl⟩ := List.mem_map.mp htool
  obtain ⟨⟨found, hfound⟩, ⟨scope, hscope⟩, -⟩ := hreadable entries hentries
  have hsame : found = toolId := by
    rw [Json.asDict?, Option.bind_some, hfound] at hid
    dsimp only at hid
    split at hid
    · exact Option.some_inj.mp hid
    · cases hid
  refine List.mem_map.mpr ⟨(toolId, scope.map fun kv => (kv.1, sortedSet kv.2)),
    List.mem_filterMap.mpr ⟨.obj entries, htool, ?_⟩, rfl⟩
  show (toolScope entries).toOption = _
  unfold toolScope
  rw [hfound, hscope, normalizeScope_toJson, hsame]
  rfl

/-- What an admitted release comes with. -/
theorem mem_releaseTools {db : DraftTables} {agentId releaseId actorId channel : String}
    {agent : RunnerAgent} {allowed : List String}
    (h : resolveReleaseAccess db.shared agentId releaseId actorId channel
      = .ok (agent, allowed)) :
    ∃ release, fetchAgentRelease db.shared agentId releaseId = some release
      ∧ ∀ toolId, (toolId ∈ allowed ↔ ReleaseOffers db.toPlatformTables release actorId toolId)
        ∧ (toolId ∈ allowed →
          Dict.get? agent.toolScopes toolId = Dict.get? release.toolScopes toolId) := by
  unfold resolveReleaseAccess at h
  cases hfetch : fetchAgentRelease db.shared agentId releaseId with
  | none =>
      rw [hfetch] at h
      cases h
  | some release =>
      rw [hfetch] at h
      obtain ⟨context, hcontext, h⟩ := bind_eq_ok.mp h
      obtain ⟨runner, hrunner, h⟩ := bind_eq_ok.mp h
      obtain ⟨scopes, hscopes, h⟩ := bind_eq_ok.mp h
      obtain ⟨_, -, h⟩ := bind_eq_ok.mp h
      cases h
      have hbuilt : buildRuntimeContext db.toPlatformTables release.row (some actorId)
          (some channel) = .ok context := mapError_eq_ok.mp hcontext
      obtain ⟨_, _, _, _, -, -, -, -, -, hids⟩ := buildRuntimeContext_ok hbuilt
      have hrunnerScopes : agent.toolScopes = context.toolScopes := by
        obtain ⟨members, -, hrunner⟩ := bind_eq_ok.mp (mapError_eq_ok.mp hrunner)
        obtain ⟨channels, -, hrunner⟩ := bind_eq_ok.mp hrunner
        cases hrunner
        rfl
      have hscope := get?_contextScopes hbuilt
      have hkey : ∀ toolId, toolId ∈ context.toolIds
          ↔ toolId ∈ activeToolIds db.toPlatformTables
            (releaseToolIds (releaseTools release.row)) := by
        intro toolId
        rw [hids, mem_sortedSet, ← Dict.isSome_get?_iff, hscope toolId]
        split
        · rename_i hactive
          obtain ⟨scope, hconfigured⟩ :=
            exists_configuredScope (mem_activeToolIds.mp hactive).1
          simp [hconfigured, hactive]
        · rename_i hactive
          simp [hactive]
      have hgranted := mem_roleTools (mapError_eq_ok.mp hscopes)
      refine ⟨release, rfl, fun toolId => ⟨?_, fun hallowed => ?_⟩⟩
      · rw [mem_effectiveTools, hkey, hgranted, mem_activeToolIds]
        constructor
        · rintro ⟨⟨hreleased, hactive⟩, -, hgranted⟩
          exact ⟨hreleased, hgranted, hactive⟩
        · rintro ⟨hreleased, hgranted, hactive⟩
          exact ⟨⟨hreleased, hactive⟩, ⟨hreleased, hactive⟩, hgranted⟩
      · rw [hrunnerScopes, hscope, if_pos ((hkey toolId).mp (mem_effectiveTools.mp hallowed).1)]

end ControlPlane

/-! ## The tools of the Runtime -/

section Runtime

variable {env : RuntimeEnv} {db : PlatformTables} {release : ReleaseRow} {actor : String}
  {channel : Option String} {context : RuntimeContext}

/-- The snapshot filter, read from the release. -/
theorem withinCreated_of_inPublished {config : Dict} {created : List (String × Scope)}
    {toolId : String} {scope : Scope} (hconfig : releaseConfig release = .ok config)
    (hcreated : snapshotRoleToolScopes (Dict.get config "permission_snapshot").dictOrEmpty
      = .ok created) (h : InPublished release toolId scope) :
    WithinCreated created toolId scope := by
  have hmapping := snapshotMapping_eq hconfig
  cases hfound : (Dict.get (Dict.get config "permission_snapshot").dictOrEmpty
      "role_tool_scopes").asDict? with
  | none =>
      refine Or.inl ((snapshotRoleToolScopes_ok hcreated).1.mpr ?_)
      rw [Json.dictOrEmpty, hfound]
      rfl
  | some mapping =>
      rw [hfound] at hmapping
      have hdict : (Dict.get (Dict.get config "permission_snapshot").dictOrEmpty
          "role_tool_scopes").dictOrEmpty = mapping := by
        rw [Json.dictOrEmpty, hfound]
        rfl
      by_cases hempty : mapping = []
      · exact Or.inl ((snapshotRoleToolScopes_ok hcreated).1.mpr (hdict.trans hempty))
      · obtain ⟨raw, allowed, hraw, hallowed, hwithin⟩ := h mapping hmapping hempty
        obtain ⟨kept, hkept, hnormal⟩ := get?_snapshotRoleToolScopes hcreated
          (hdict.symm ▸ hraw)
        cases hallowed.symm.trans hnormal
        refine Or.inr ⟨by rw [hkept]; rfl, ?_⟩
        rw [hkept]
        exact hwithin

/-- The tools of a context are those with an entry inside all bounds. -/
theorem mem_toolIds_iff
    (h : buildRuntimeContext env db release (some actor) channel = .ok context)
    (hactor : actor ≠ "") (toolId : String) :
    toolId ∈ context.toolIds
      ↔ ∃ entries scope, PassesCurrent db release actor entries toolId scope
        ∧ InPublished release toolId scope := by
  obtain ⟨config, raw, active, policy, scopes, hconfig, hraw, hactive, hauthz, -, -, hids⟩ :=
    buildRuntimeContext_ok h
  rw [hids, mem_sortedSet, context_ids h]
  constructor
  · rintro ⟨tool, htool, hid⟩
    obtain ⟨other, entries, found, scope, hother, -, hpasses, hidentity, hsnapshot⟩ :=
      context_tool h htool
    cases hother
    have hsame : Dict.get tool "tool_id" = .str found := congrArg Prod.fst hidentity
    rw [hid] at hsame
    cases hsame
    exact ⟨entries, scope, hpasses, hsnapshot⟩
  · rintro ⟨entries, scope, hpasses, hpublished⟩
    obtain ⟨tool, hconnected, hid, hscope⟩ := tool_connected hconfig hraw hactive hpasses
    rcases applyRuntimeToolAuthz_ok hauthz with ⟨hnone | hempty, -⟩ |
      ⟨other, current, created, hother, -, hcurrent, hcreated, hallowed⟩
    · cases hnone
    · exact absurd (Option.some.inj hempty) hactor
    · cases hother
      refine ⟨tool, (hallowed tool).mpr ⟨hconnected, ?_⟩, hid⟩
      exact (authorizeTool_allowed_iff hid hscope).mpr
        ⟨withinCreated_of_inPublished hconfig hcreated hpublished,
          (withinCurrent_iff hcurrent).mpr ⟨hpasses.granted, hpasses.within⟩⟩

end Runtime

/-! ## The two services -/

section Agreement

variable {env : RuntimeEnv} {db : DraftTables} {agentId releaseId actorId channel : String}

/-- The entries that the bounds of the Runtime leave of an offered tool. -/
theorem passes_iff {release : PublishedRelease} {toolId : String}
    (h : ReleaseOffers db.toPlatformTables release actorId toolId) :
    (∃ entries scope, PassesCurrent db.toPlatformTables release.row actorId entries toolId scope
        ∧ InPublished release.row toolId scope)
      ↔ ¬ ∀ entries scope, .obj entries ∈ releaseTools release.row →
          Dict.get entries "tool_id" = .str toolId →
          normalizeScope (dictOrNone (Dict.get entries "scope")) = .ok scope →
          ¬ (Connected db.toPlatformTables (Dict.get entries "mcp_connection_id")
            ∧ InPublished release.row toolId scope
            ∧ WithinGrants db.toPlatformTables actorId toolId scope) := by
  constructor
  · rintro ⟨entries, scope, hpasses, hpublished⟩ hrefused
    exact hrefused entries scope hpasses.entry hpasses.id hpasses.configured
      ⟨hpasses.connected, hpublished, hpasses.within⟩
  · intro hrefused
    push Not at hrefused
    obtain ⟨entries, scope, hentry, hid, hscope, hconnected, hpublished, hwithin⟩ := hrefused
    exact ⟨entries, scope, ⟨hentry, hid, h.released, hscope, h.active, hconnected, h.granted,
      hwithin⟩, hpublished⟩

/-- Both services admit: their results, and the state they were read from. -/
theorem bothAdmit_of_ok {context : RuntimeContext}
    {access : ControlPlane.RunnerAgent × List String}
    (hruntime : resolveRuntimeContext env db.shared agentId releaseId actorId channel
      = .ok context)
    (hcontrol : ControlPlane.resolveReleaseAccess db.shared agentId releaseId actorId channel
      = .ok access) :
    ∃ release, BothAdmit db.shared release agentId releaseId actorId channel
      ∧ buildRuntimeContext env db.toPlatformTables release.row (some actorId) (some channel)
        = .ok context := by
  obtain ⟨release, hfetched, hchecks, hactor, hruntimeMay⟩ :=
    runtimeAdmits_iff.mp ⟨context, hruntime⟩
  obtain ⟨other, hother, -, henabled, hcontrolMay⟩ :=
    controlPlaneAdmits_iff.mp ⟨access, hcontrol⟩
  cases hfetched.symm.trans hother
  refine ⟨release, ⟨hfetched, hchecks, henabled, hactor, hruntimeMay, hcontrolMay⟩, ?_⟩
  unfold resolveRuntimeContext at hruntime
  rw [hfetched] at hruntime
  obtain ⟨built, hbuilt, hruntime⟩ := bind_eq_ok.mp hruntime
  obtain ⟨_, -, hruntime⟩ := bind_eq_ok.mp hruntime
  cases hruntime
  exact hbuilt

theorem ok_of_bothAdmit (env : RuntimeEnv) {release : PublishedRelease}
    (h : BothAdmit db.shared release agentId releaseId actorId channel) :
    (∃ context, resolveRuntimeContext env db.shared agentId releaseId actorId channel
        = .ok context)
      ∧ ∃ access, ControlPlane.resolveReleaseAccess db.shared agentId releaseId actorId channel
        = .ok access :=
  ⟨runtimeAdmits_iff.mpr ⟨release, h.fetched, h.checks, h.actor, h.runtime⟩,
    controlPlaneAdmits_iff.mpr ⟨release, h.fetched, h.checks, h.enabled, h.controlPlane⟩⟩

/-- For every state, agent, release, actor and channel: the Control Plane admits entitled tools
only, and the Runtime the same ones, except in these states. Both filters are compared tool by
tool, bound by bound. -/
theorem admitted_tools_agree_iff :
    AdmittedToolsAgree env db agentId releaseId actorId channel
      ↔ ¬ ToolGap db agentId releaseId actorId channel := by
  constructor
  · intro hagree hgap
    cases hgap with
    | draftScope agent toolId scope loaded checks offers configured outside =>
        obtain ⟨allowed, hallowed⟩ := ControlPlane.resolveAgentAccess_ok.mpr ⟨loaded, checks⟩
        have hmem := (ControlPlane.mem_agentTools hallowed toolId).mpr offers
        obtain ⟨found, hfound, hwithin⟩ := (hagree.draft agent allowed hallowed toolId hmem).within
        cases configured.symm.trans hfound
        exact outside hwithin
    | releaseScope release toolId scope fetched checks enabled mayRun offers configured outside =>
        obtain ⟨⟨agent, allowed⟩, hallowed⟩ :=
          controlPlaneAdmits_iff.mpr ⟨release, fetched, checks, enabled, mayRun⟩
        obtain ⟨other, hother, htools⟩ := ControlPlane.mem_releaseTools hallowed
        cases fetched.symm.trans hother
        have hmem := (htools toolId).1.mpr offers
        obtain ⟨found, hfound, hwithin⟩ :=
          (hagree.release agent allowed hallowed toolId hmem).within
        rw [(htools toolId).2 hmem] at hfound
        cases configured.symm.trans hfound
        exact outside hwithin
    | runtimeBounds release toolId admitted offers refused =>
        obtain ⟨⟨context, hcontext⟩, ⟨⟨agent, allowed⟩, hallowed⟩⟩ :=
          ok_of_bothAdmit env admitted
        obtain ⟨other, hother, hbuilt⟩ := bothAdmit_of_ok hcontext hallowed
        cases admitted.fetched.symm.trans hother.fetched
        obtain ⟨other, hother', htools⟩ := ControlPlane.mem_releaseTools hallowed
        cases admitted.fetched.symm.trans hother'
        have hmem := (hagree.agree context agent allowed hcontext hallowed toolId).mp
          ((htools toolId).1.mpr offers)
        exact (passes_iff offers).mp ((mem_toolIds_iff hbuilt admitted.actor toolId).mp hmem)
          refused
  · intro hgap
    constructor
    case draft =>
      intro agent allowed hallowed toolId hmem
      obtain ⟨hloaded, hchecks⟩ := ControlPlane.resolveAgentAccess_ok.mp ⟨allowed, hallowed⟩
      have hoffers := (ControlPlane.mem_agentTools hallowed toolId).mp hmem
      obtain ⟨scope, hscope⟩ := Option.isSome_iff_exists.mp
        (Dict.isSome_get?_iff.mpr hoffers.configured)
      refine ⟨hoffers.active, hoffers.granted, scope, hscope, ?_⟩
      by_contra houtside
      exact hgap (.draftScope agent toolId scope hloaded hchecks hoffers hscope houtside)
    case release =>
      intro agent allowed hallowed toolId hmem
      obtain ⟨release, hfetched, htools⟩ := ControlPlane.mem_releaseTools hallowed
      obtain ⟨other, hother, hchecks, henabled, hmay⟩ :=
        controlPlaneAdmits_iff.mp ⟨_, hallowed⟩
      cases hfetched.symm.trans hother
      have hoffers := (htools toolId).1.mp hmem
      obtain ⟨scope, hscope⟩ := ControlPlane.exists_configuredScope hoffers.released
      refine ⟨hoffers.active, hoffers.granted, scope,
        ((htools toolId).2 hmem).trans hscope, ?_⟩
      by_contra houtside
      exact hgap (.releaseScope release toolId scope hfetched hchecks henabled hmay hoffers
        hscope houtside)
    case agree =>
      intro context agent allowed hcontext hallowed toolId
      obtain ⟨release, hadmitted, hbuilt⟩ := bothAdmit_of_ok hcontext hallowed
      obtain ⟨other, hother, htools⟩ := ControlPlane.mem_releaseTools hallowed
      cases hadmitted.fetched.symm.trans hother
      rw [(htools toolId).1, mem_toolIds_iff hbuilt hadmitted.actor]
      constructor
      · intro hoffers
        refine (passes_iff hoffers).mpr fun hrefused => hgap ?_
        exact .runtimeBounds release toolId hadmitted hoffers hrefused
      · rintro ⟨entries, scope, hpasses, -⟩
        exact ⟨hpasses.released, hpasses.granted, hpasses.active⟩

end Agreement

/-! ## A grant that became narrower -/

/-- The scope that `ada` had when she configured and published the tool. -/
def exportScope : Scope := [("actions", ["calculate", "export"])]

def calculatorRelease : PublishedRelease where
  releaseId := "rel_1"
  agentId := "agent_1"
  version := 1
  status := "published"
  config :=
    [("agent", .obj
      [("id", .str "agent_1"), ("visibility", .str "private"), ("members", .arr []),
       ("owner_user_id", .str "ada"), ("channels", .arr [.str "web_console"]),
       ("enabled", .bool true)]),
     ("tools", .arr [.obj
      [("tool_id", .str "calculator"), ("scope", exportScope.toJson),
       ("timeout_ms", .int 8000)]]),
     ("permission_snapshot", .obj
      [("role_tool_scopes", .obj [("calculator", exportScope.toJson)])])]
  readable :=
    ⟨⟨_, rfl, ⟨[], rfl⟩, ⟨["web_console"], rfl⟩⟩,
      ⟨[[("tool_id", .str "calculator"), ("scope", exportScope.toJson),
        ("timeout_ms", .int 8000)]], rfl, fun tool htool => by
          cases List.mem_singleton.mp htool
          exact ⟨⟨_, rfl⟩, ⟨exportScope, rfl⟩, ⟨8000, rfl⟩⟩⟩,
      ⟨_, [("calculator", exportScope)], rfl, rfl⟩⟩

/-- Now the role of `ada` grants `calculate` only. -/
def calculatorTables : DraftTables where
  tools := [{ id := "calculator", status := "active" }]
  users := [⟨"ada", "active"⟩]
  roles := [⟨"analyst", "active"⟩]
  userRoles := [("ada", "analyst")]
  rolePermissions := [⟨"analyst", "calculator", Scope.toJson [("actions", ["calculate"])]⟩]
  agents := [{ id := "agent_1", enabled := true, name := "desk", ownerUserId := "ada" }]
  agentTools := [⟨"agent_1", "calculator", exportScope.toJson, true⟩]
  snapshots := [⟨"agent_1", 1, .arr [.str "calculator"]⟩]
  channelBindings := [("agent_1", "web_console")]
  releases := [calculatorRelease]

/-- The Control Plane admits the tool with the scope that is not granted any more, of the draft
and of the release; the Runtime does not. -/
theorem wider_tool_admitted :
    (ControlPlane.resolveAgentAccess calculatorTables "agent_1" "ada" "web_console").map
        (fun access => (access.1.toolScopes, access.2))
      = .ok ([("calculator", exportScope)], ["calculator"])
    ∧ (ControlPlane.resolveReleaseAccess calculatorTables.shared "agent_1" "rel_1" "ada"
        "web_console").map Prod.snd = .ok ["calculator"]
    ∧ (resolveRuntimeContext { localRunner := "mcp+stdio://python" } calculatorTables.shared
        "agent_1" "rel_1" "ada" "web_console").map RuntimeContext.toolIds = .ok []
    ∧ ¬ AdmittedToolsAgree { localRunner := "mcp+stdio://python" } calculatorTables
        "agent_1" "rel_1" "ada" "web_console" := by
  have hcontrol : (ControlPlane.resolveReleaseAccess calculatorTables.shared "agent_1" "rel_1"
      "ada" "web_console").map Prod.snd = .ok ["calculator"] := by decide +kernel
  have hruntime : (resolveRuntimeContext { localRunner := "mcp+stdio://python" }
      calculatorTables.shared "agent_1" "rel_1" "ada" "web_console").map RuntimeContext.toolIds
      = .ok [] := by decide +kernel
  refine ⟨by decide +kernel, hcontrol, hruntime, fun hagree => ?_⟩
  obtain ⟨⟨agent, allowed⟩, haccess, hallowed⟩ := map_eq_ok.mp hcontrol
  obtain ⟨context, hcontext, hids⟩ := map_eq_ok.mp hruntime
  have hmem := (hagree.agree context agent allowed hcontext haccess "calculator").mp
    (by rw [show allowed = ["calculator"] from hallowed]; decide)
  rw [hids] at hmem
  cases hmem

end Aegora
