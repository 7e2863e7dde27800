import Aegora.ReleaseConfig

/-!
# Who may run a release

The Runtime admits a run in `validate_runtime_context`, the Control Plane in
`resolve_release_access`. Both read the same release, user and role rows, but
the Runtime never reads the live `agents.enabled` nor the members of the
release, and it takes the visibility from the column of the release row where
there is one. `AdmissionGap` lists the runs on which the two part.
-/

namespace Aegora

open Py

/-! ## The shared tables -/

/-- The columns of `agents` that admission reads. -/
structure AgentRow where
  id : String
  enabled : Bool
deriving DecidableEq

structure SharedTables extends PlatformTables where
  agents : List AgentRow := []
  releases : List PublishedRelease := []

/-- `fetch_agent_release`, of either service. -/
def fetchAgentRelease (db : SharedTables) (agentId releaseId : String) :
    Option PublishedRelease :=
  db.releases.find? fun release => release.agentId = agentId ∧ release.releaseId = releaseId

/-- `agent_is_enabled`. -/
def agentIsEnabled (db : SharedTables) (agentId : String) : Option Bool :=
  (db.agents.find? fun row => row.id = agentId).map AgentRow.enabled

/-! ## The Runtime -/

/-- `validate_runtime_context`. -/
def validateRuntimeContext (db : PlatformTables) (context : RuntimeContext) :
    Except ContextError Unit :=
  if Dict.get context.release "status" ≠ .str "published" then
    .error (.runtime "发布版本不可运行" 409)
  else if !((Dict.get? context.agent "enabled").getD (.bool true)).truthy then
    .error (.runtime "Agent 不可用" 403)
  else match context.actorId with
  | none | some "" => .error (.runtime "actor_id 缺失" 401)
  | some actorId =>
      let visibility := ((Dict.get context.release "visibility").orElse (.str "private")).pyStr
      let channels := (((Dict.get context.agent "channels").asList?).getD []).map Json.pyStr
      if !userIsActive db actorId then
        .error (.runtime "执行用户不可用" 403)
      else if visibility ≠ "public" ∧ .str actorId ≠ Dict.get context.agent "owner_user_id"
          ∧ !userHasRole db actorId platformAdminRole then
        .error (.runtime "当前用户不能执行该发布版本" 403)
      else if ¬ ∃ channel ∈ context.channel, channel ∈ channels then
        .error (.runtime "渠道未授权" 403)
      else .ok ()

/-- `resolve_runtime_context`. -/
def resolveRuntimeContext (env : RuntimeEnv) (db : SharedTables)
    (agentId releaseId actorId channel : String) : Except ContextError RuntimeContext :=
  match fetchAgentRelease db agentId releaseId with
  | none => .error (.runtime "发布版本不存在" 404)
  | some release => do
      let context ← buildRuntimeContext env db.toPlatformTables release.row (some actorId)
        (some channel)
      validateRuntimeContext db.toPlatformTables context
      return context

/-! ## The Control Plane -/

namespace ControlPlane

/-- What its `build_runtime_context` returns. -/
structure RuntimeContext where
  release : Dict
  agent : Dict
  actorId : Option String
  channel : Option String
  tools : List Dict
  toolIds : List String
  toolScopes : List (String × Scope)
  policy : Dict
deriving DecidableEq

/-- What `runner_agent_from_context` returns. -/
structure RunnerAgent where
  ownerUserId : Json
  enabled : Bool
  name : Json
  icon : Json
  visibility : Json
  members : List Json
  systemPrompt : Json
  model : Json
  toolScopes : List (String × Scope)
  channels : List Json
  releaseId : Json
  releaseVersion : Json
deriving DecidableEq

/-- One step of the comprehension that keeps the active tools. -/
def activeToolConfig (activeIds : List String) (tool : Json) :
    Except ContextError (Option Dict) :=
  match tool with
  | .obj entries => do
      let active ← inIds (Dict.get entries "tool_id") activeIds
      return if active then some entries else none
  | _ => .ok none

/-- One entry of `tool_scopes`. -/
def toolScope (tool : Dict) : Except ContextError (String × Scope) := do
  let scope ← normalizeScope (Dict.get tool "scope")
  return ((Dict.get tool "tool_id").pyStr, scope)

/-- The Control Plane's `build_runtime_context`. -/
def buildRuntimeContext (db : PlatformTables) (release : ReleaseRow)
    (actorId channel : Option String) : Except ContextError RuntimeContext := do
  let config ← releaseConfig release
  let agent ← releaseAgent config
  let raw ← rawTools config
  let released := releaseToolIds raw
  let activeIds := activeToolIds db released
  let active ← raw.mapM (activeToolConfig activeIds)
  let tools := active.filterMap id
  let scopes ← tools.mapM toolScope
  let members ← pyList ((Dict.get agent "members").orElse (.arr []))
  let channels ← pyList ((Dict.get agent "channels").orElse (.arr []))
  let toolScopes := Dict.ofEntries scopes
  return {
    release :=
      [("release_id", .str release.releaseId), ("agent_id", .str release.agentId),
       ("version", .int release.version), ("status", .str release.status)]
    agent :=
      [("id", Dict.get agent "id"),
       ("name", (Dict.get agent "name").orElse (.str "released-agent")),
       ("icon", (Dict.get agent "icon").orElse (.str "robot")),
       ("visibility", (Dict.get agent "visibility").orElse (.str "private")),
       ("members", .arr members),
       ("owner_user_id", Dict.get agent "owner_user_id"),
       ("system_prompt", (Dict.get agent "system_prompt").orElse (.str "")),
       ("model", Dict.get agent "model"),
       ("enabled", .bool ((Dict.get? agent "enabled").getD (.bool true)).truthy),
       ("channels", .arr channels)]
    actorId := actorId
    channel := channel
    tools := tools
    toolIds := sortedSet (toolScopes.map Prod.fst)
    toolScopes := toolScopes
    policy :=
      [("source", .str "agent_release"),
       ("disabled_tools_filtered", strings (sortedSet (released.filter (· ∉ activeIds))))] }

/-- `set(x or [])`: only membership is read, and a list or a dictionary in it
is not hashable. -/
def pySet (value : Json) : Except ContextError (List Json) := do
  let items ← pyList (value.orElse (.arr []))
  if items.any fun item => item.asList?.isSome || item.asDict?.isSome then
    throw (.python "TypeError")
  return items

/-- `runner_agent_from_context`. -/
def runnerAgentFromContext (context : RuntimeContext) : Except ContextError RunnerAgent := do
  let agent := context.agent
  let members ← pySet (Dict.get agent "members")
  let channels ← pySet (Dict.get agent "channels")
  return {
    ownerUserId := Dict.get agent "owner_user_id"
    enabled := ((Dict.get? agent "enabled").getD (.bool true)).truthy
    name := Dict.get agent "name"
    icon := Dict.get agent "icon"
    visibility := (Dict.get agent "visibility").orElse (.str "private")
    members := members
    systemPrompt := (Dict.get agent "system_prompt").orElse (.str "")
    model := Dict.get agent "model"
    toolScopes := context.toolScopes
    channels := channels
    releaseId := Dict.get context.release "release_id"
    releaseVersion := Dict.get context.release "version" }

/-- `can_run_agent`. -/
def canRunAgent (db : PlatformTables) (actorId : String) (agent : RunnerAgent) : Bool :=
  agent.visibility = .str "public"
    || .str actorId = agent.ownerUserId
    || actorId ∈ agent.members.map Json.pyStr
    || userHasRole db actorId platformAdminRole

/-- `effective_tools`. -/
def effectiveTools (configured createdAt current : List String) : List String :=
  configured.filter fun toolId => toolId ∈ createdAt ∧ toolId ∈ current

/-- The checks of `resolve_release_access` on the agent it has read. -/
def checkReleaseAccess (db : SharedTables) (agentId actorId channel : String)
    (status : Json) (agent : RunnerAgent) : Except AccessError Unit :=
  if status ≠ .str "published" then
    .error (.http 409 "发布版本不可运行")
  else if agentIsEnabled db agentId ≠ some true then
    .error (.http 403 "Agent 已被平台停用" (some "agent disabled"))
  else if !canRunAgent db.toPlatformTables actorId agent then
    .error (.http 403 "当前用户不能执行该发布版本" (some "actor cannot run release"))
  else if !agent.enabled || !userIsActive db.toPlatformTables actorId then
    .error (.http 403 "Agent 或执行用户不可用" (some "release agent or actor inactive"))
  else if .str channel ∉ agent.channels then
    .error (.http 403 "渠道未授权" (some "channel not allowed"))
  else .ok ()

/-- `resolve_release_access`. -/
def resolveReleaseAccess (db : SharedTables) (agentId releaseId actorId channel : String) :
    Except AccessError (RunnerAgent × List String) :=
  match fetchAgentRelease db agentId releaseId with
  | none => .error (.http 404 "发布版本不存在")
  | some release => do
      let context ← (buildRuntimeContext db.toPlatformTables release.row (some actorId)
        (some channel)).mapError .ofContext
      let agent ← (runnerAgentFromContext context).mapError .ofContext
      let roleScopes ← (getUserRoleToolScopes db.toPlatformTables actorId).mapError .ofContext
      let allowedTools := effectiveTools context.toolIds context.toolIds
        (roleScopes.map Prod.fst)
      checkReleaseAccess db agentId actorId channel (Dict.get context.release "status") agent
      return (agent, allowedTools)

end ControlPlane

/-! ## Admission -/

/-- `resolve_runtime_context` does not raise. -/
def RuntimeAdmits (env : RuntimeEnv) (db : SharedTables)
    (agentId releaseId actorId channel : String) : Prop :=
  ∃ context, resolveRuntimeContext env db agentId releaseId actorId channel = .ok context

/-- `resolve_release_access` does not raise. -/
def ControlPlaneAdmits (db : SharedTables) (agentId releaseId actorId channel : String) :
    Prop :=
  ∃ access, ControlPlane.resolveReleaseAccess db agentId releaseId actorId channel
    = .ok access

/-! ### What both services check -/

/-- The checks that both services make, in whatever order. -/
structure SharedChecks (db : PlatformTables) (release : PublishedRelease)
    (actorId channel : String) : Prop where
  published : release.status = "published"
  enabled : release.enabled = true
  active : userIsActive db actorId = true
  channel : .str channel ∈ release.channels
  grants : ∃ current, getUserRoleToolScopes db actorId = .ok current

namespace PublishedRelease

variable (release : PublishedRelease)

/-- The members of the published agent. -/
def members : List Json := ((Dict.get release.agent "members").asList?).getD []

/-- Public by the column of the row, or by the configuration without one. -/
def PublicForRuntime : Prop := releaseVisibility release.row release.agent = "public"

def PublicInConfig : Prop :=
  (Dict.get release.agent "visibility").orElse (.str "private") = .str "public"

def OwnedBy (actorId : String) : Prop := .str actorId = Dict.get release.agent "owner_user_id"

def HasMember (actorId : String) : Prop := .str actorId ∈ release.members

theorem mem_map_pyStr {texts : List String} {text : String} :
    text ∈ (texts.map Json.str).map Json.pyStr ↔ .str text ∈ texts.map Json.str := by
  simp

theorem members_eq : ∃ members : List String, release.members = members.map .str
    ∧ Dict.get release.agent "members" = .arr (members.map .str) := by
  obtain ⟨agent, hagent, ⟨members, hmembers⟩, -⟩ := release.readable.agent
  have hread : release.agent = agent := by
    simp [PublishedRelease.agent, hagent, Json.dictOrEmpty, Json.asDict?]
  refine ⟨members, ?_, by rw [hread, hmembers]⟩
  rw [PublishedRelease.members, hread, hmembers]
  rfl

theorem channels_eq : ∃ channels : List String, release.channels = channels.map .str := by
  obtain ⟨agent, hagent, -, channels, hchannels⟩ := release.readable.agent
  have hread : release.agent = agent := by
    simp [PublishedRelease.agent, hagent, Json.dictOrEmpty, Json.asDict?]
  refine ⟨channels, ?_⟩
  rw [PublishedRelease.channels, hread, hchannels]
  rfl

end PublishedRelease

section Admission

variable {env : RuntimeEnv} {db : SharedTables} {agentId releaseId actorId channel : String}

/-! ### What the Runtime admits -/

theorem validate_iff {context : RuntimeContext} {release : PublishedRelease}
    (h : buildRuntimeContext env db.toPlatformTables release.row (some actorId) (some channel)
      = .ok context) :
    validateRuntimeContext db.toPlatformTables context = .ok ()
      ↔ release.status = "published" ∧ release.enabled = true ∧ actorId ≠ ""
        ∧ userIsActive db.toPlatformTables actorId = true
        ∧ (release.PublicForRuntime ∨ release.OwnedBy actorId
          ∨ userHasRole db.toPlatformTables actorId platformAdminRole = true)
        ∧ .str channel ∈ release.channels := by
  obtain ⟨hstatus, hvisibility, henabled, howner, hchannels, hactor, hchannel⟩ :=
    context_reads h
  obtain ⟨channels, heq⟩ := release.channels_eq
  have hpublic : ((Json.str (releaseVisibility release.row release.agent)).orElse
      (.str "private")).pyStr = "public" ↔ release.PublicForRuntime := by
    unfold PublishedRelease.PublicForRuntime Json.orElse
    split
    · rfl
    · rename_i hempty
      have hnil : releaseVisibility release.row release.agent = "" := by simpa using hempty
      rw [hnil]
      decide
  unfold validateRuntimeContext
  rw [hstatus, hvisibility, henabled, howner, hchannels, hactor, hchannel, heq]
  simp only [ite_error_eq_ok, ne_eq, not_not, Json.str.injEq, Option.getD_some,
    Json.truthy_bool, Bool.not_eq_true', Bool.not_eq_false, Json.asList?, Option.mem_some,
    exists_eq_left', PublishedRelease.mem_map_pyStr]
  refine and_congr_right fun _ => and_congr_right fun _ => ?_
  split
  · contradiction
  · rename_i heq
    simp [Option.some.inj heq]
  · rename_i other hother heq
    cases heq
    have hempty : actorId ≠ "" := fun h => hother (h ▸ rfl)
    simp only [ite_error_eq_ok, hpublic, hempty, PublishedRelease.OwnedBy]
    simp only [Bool.not_eq_false, not_and, not_not, and_true, not_false_iff, true_and,
      imp_iff_not_or]

/-- The Runtime lets a visitor in that is the owner or an administrator, or
when the row makes the release public. -/
def RuntimeMayRun (db : SharedTables) (release : PublishedRelease) (actorId : String) : Prop :=
  release.PublicForRuntime ∨ release.OwnedBy actorId
    ∨ userHasRole db.toPlatformTables actorId platformAdminRole = true

theorem runtimeAdmits_iff :
    RuntimeAdmits env db agentId releaseId actorId channel
      ↔ ∃ release, fetchAgentRelease db agentId releaseId = some release
        ∧ SharedChecks db.toPlatformTables release actorId channel
        ∧ actorId ≠ "" ∧ RuntimeMayRun db release actorId := by
  unfold RuntimeAdmits resolveRuntimeContext
  cases hfetch : fetchAgentRelease db agentId releaseId with
  | none => simp
  | some release =>
      simp only [Option.some.injEq, exists_eq_left']
      constructor
      · rintro ⟨context, h⟩
        obtain ⟨built, hbuilt, h⟩ := bind_eq_ok.mp h
        obtain ⟨_, hvalid, -⟩ := bind_eq_ok.mp h
        obtain ⟨hpublished, henabled, hempty, hactive, hmay, hchannel⟩ :=
          (validate_iff hbuilt).mp hvalid
        have hgrants := ((buildRuntimeContext_isOk _ _ _).mp ⟨built, hbuilt⟩).resolve_left hempty
        exact ⟨⟨hpublished, henabled, hactive, hchannel, hgrants⟩, hempty, hmay⟩
      · rintro ⟨hshared, hempty, hmay⟩
        obtain ⟨built, hbuilt⟩ :=
          (buildRuntimeContext_isOk env release channel).mpr (Or.inr hshared.grants)
        have hvalid := (validate_iff hbuilt).mpr ⟨hshared.published, hshared.enabled, hempty,
          hshared.active, hmay, hshared.channel⟩
        exact ⟨built, bind_eq_ok.mpr ⟨built, hbuilt, bind_eq_ok.mpr ⟨(), hvalid, rfl⟩⟩⟩

/-! ### What the Control Plane admits -/

namespace ControlPlane

theorem buildRuntimeContext_reads (db : PlatformTables) (release : PublishedRelease)
    (actorId channel : Option String) :
    ∃ context, buildRuntimeContext db release.row actorId channel = .ok context
      ∧ Dict.get context.release "status" = .str release.status
      ∧ Dict.get context.agent "members" = .arr release.members
      ∧ Dict.get context.agent "channels" = .arr release.channels
      ∧ Dict.get? context.agent "enabled" = some (.bool release.enabled)
      ∧ Dict.get context.agent "owner_user_id" = Dict.get release.agent "owner_user_id"
      ∧ Dict.get context.agent "visibility"
        = (Dict.get release.agent "visibility").orElse (.str "private") := by
  obtain ⟨raw, hraw, hreadable⟩ := rawTools_published release
  have hkept : ∀ entries ∈ raw, ∀ ids, ∃ out, activeToolConfig ids (.obj entries) = .ok out
      ∧ (out = none ∨ out = some entries) := by
    intro entries hentries ids
    obtain ⟨toolId, hid⟩ := (hreadable entries hentries).id
    by_cases hactive : toolId ∈ ids
    · exact ⟨some entries, by simp [activeToolConfig, hid, inIds, hactive, bind, Except.bind,
        pure, Except.pure], Or.inr rfl⟩
    · exact ⟨none, by simp [activeToolConfig, hid, inIds, hactive, bind, Except.bind,
        pure, Except.pure], Or.inl rfl⟩
  have hactive : ∃ active, (raw.map Json.obj).mapM (activeToolConfig
      (activeToolIds db (releaseToolIds (raw.map Json.obj)))) = .ok active := by
    refine exists_mapM_eq_ok fun json hjson => ?_
    obtain ⟨entries, hentries, rfl⟩ := List.mem_map.mp hjson
    obtain ⟨out, hout, -⟩ := hkept entries hentries _
    exact ⟨out, hout⟩
  obtain ⟨active, hactive⟩ := hactive
  have hscopes : ∃ scopes, (active.filterMap id).mapM toolScope = .ok scopes := by
    refine exists_mapM_eq_ok fun tool htool => ?_
    obtain ⟨json, hjson, hstep⟩ := mem_of_mapM_eq_ok hactive (by simpa using htool)
    obtain ⟨entries, hentries, rfl⟩ := List.mem_map.mp hjson
    obtain ⟨out, hout, hor⟩ := hkept entries hentries _
    cases hout.symm.trans hstep
    rcases hor with hnone | hsome
    · cases hnone
    · cases hsome
      obtain ⟨scope, hscope⟩ := (hreadable _ hentries).scope
      exact ⟨_, bind_eq_ok.mpr ⟨_, by rw [hscope]; exact normalizeScope_toJson scope, rfl⟩⟩
  obtain ⟨scopes, hscopes⟩ := hscopes
  have hmembers : pyList ((Dict.get release.agent "members").orElse (.arr []))
      = .ok release.members := by
    obtain ⟨members, hmembers, hread⟩ := release.members_eq
    rw [hread, hmembers]
    cases members <;> rfl
  exact ⟨_, bind_eq_ok.mpr ⟨release.config, rfl, bind_eq_ok.mpr ⟨release.agent,
    releaseAgent_published release, bind_eq_ok.mpr ⟨_, hraw, bind_eq_ok.mpr ⟨active, hactive,
    bind_eq_ok.mpr ⟨scopes, hscopes, bind_eq_ok.mpr ⟨release.members, hmembers,
    bind_eq_ok.mpr ⟨release.channels, channels_published release, rfl⟩⟩⟩⟩⟩⟩⟩,
    rfl, rfl, rfl, rfl, rfl, rfl⟩

/-- A set of strings is read back as it is. -/
theorem pySet_strings (texts : List String) :
    pySet (.arr (texts.map .str)) = .ok (texts.map .str) := by
  have hlist : pyList ((Json.arr (texts.map .str)).orElse (.arr []))
      = .ok (texts.map .str) := by
    cases texts <;> rfl
  unfold pySet
  rw [hlist]
  simp [bind, Except.bind, Json.asList?, Json.asDict?, pure, Except.pure]

theorem orElse_private (value : Json) :
    (value.orElse (.str "private")).orElse (.str "private") = value.orElse (.str "private") := by
  unfold Json.orElse
  split <;> simp_all

/-- The agent that the checks are made on. -/
theorem runnerAgent_reads (db : PlatformTables) (release : PublishedRelease)
    (actorId channel : Option String) :
    ∃ context agent, buildRuntimeContext db release.row actorId channel = .ok context
      ∧ runnerAgentFromContext context = .ok agent
      ∧ Dict.get context.release "status" = .str release.status
      ∧ agent.members = release.members ∧ agent.channels = release.channels
      ∧ agent.enabled = release.enabled
      ∧ agent.ownerUserId = Dict.get release.agent "owner_user_id"
      ∧ agent.visibility = (Dict.get release.agent "visibility").orElse (.str "private") := by
  obtain ⟨context, hbuilt, hstatus, hmembers, hchannels, henabled, howner, hvisibility⟩ :=
    buildRuntimeContext_reads db release actorId channel
  obtain ⟨members, hmembersEq, -⟩ := release.members_eq
  obtain ⟨channels, hchannelsEq⟩ := release.channels_eq
  refine ⟨context, _, hbuilt, bind_eq_ok.mpr ⟨release.members, ?_, bind_eq_ok.mpr
    ⟨release.channels, ?_, rfl⟩⟩, hstatus, rfl, rfl, ?_, howner, ?_⟩
  · rw [hmembers, hmembersEq]
    exact pySet_strings members
  · rw [hchannels, hchannelsEq]
    exact pySet_strings channels
  · rw [henabled]
    rfl
  · rw [hvisibility]
    exact orElse_private _

end ControlPlane

/-- The Control Plane lets in whom the configuration lets in, to an agent that
is enabled now. -/
def ControlPlaneMayRun (db : SharedTables) (release : PublishedRelease) (actorId : String) :
    Prop :=
  release.PublicInConfig ∨ release.OwnedBy actorId ∨ release.HasMember actorId
    ∨ userHasRole db.toPlatformTables actorId platformAdminRole = true

theorem canRunAgent_iff {agent : ControlPlane.RunnerAgent} {release : PublishedRelease}
    (hmembers : agent.members = release.members)
    (howner : agent.ownerUserId = Dict.get release.agent "owner_user_id")
    (hvisibility : agent.visibility
      = (Dict.get release.agent "visibility").orElse (.str "private")) :
    ControlPlane.canRunAgent db.toPlatformTables actorId agent = true
      ↔ ControlPlaneMayRun db release actorId := by
  obtain ⟨members, heq, -⟩ := release.members_eq
  unfold ControlPlane.canRunAgent ControlPlaneMayRun PublishedRelease.PublicInConfig
    PublishedRelease.OwnedBy PublishedRelease.HasMember
  rw [hmembers, howner, hvisibility, heq]
  simp only [Bool.or_eq_true, decide_eq_true_eq, PublishedRelease.mem_map_pyStr, or_assoc]

theorem controlPlaneAdmits_iff :
    ControlPlaneAdmits db agentId releaseId actorId channel
      ↔ ∃ release, fetchAgentRelease db agentId releaseId = some release
        ∧ SharedChecks db.toPlatformTables release actorId channel
        ∧ agentIsEnabled db agentId = some true ∧ ControlPlaneMayRun db release actorId := by
  unfold ControlPlaneAdmits ControlPlane.resolveReleaseAccess
  cases hfetch : fetchAgentRelease db agentId releaseId with
  | none => simp
  | some release =>
      obtain ⟨context, agent, hbuilt, hagent, hstatus, hmembers, hchannels, henabled, howner,
        hvisibility⟩ := ControlPlane.runnerAgent_reads db.toPlatformTables release
          (some actorId) (some channel)
      have hchecks : ControlPlane.checkReleaseAccess db agentId actorId channel
          (Dict.get context.release "status") agent = .ok ()
            ↔ release.status = "published" ∧ agentIsEnabled db agentId = some true
              ∧ ControlPlaneMayRun db release actorId
              ∧ (release.enabled = true ∧ userIsActive db.toPlatformTables actorId = true)
              ∧ .str channel ∈ release.channels := by
        unfold ControlPlane.checkReleaseAccess
        rw [hstatus, henabled, hchannels]
        simp only [ite_error_eq_ok, ne_eq, not_not, Json.str.injEq, Bool.not_eq_true',
          Bool.not_eq_false, canRunAgent_iff hmembers howner hvisibility, Bool.or_eq_true,
          not_or, and_true]
      simp only [Option.some.injEq, exists_eq_left']
      constructor
      · rintro ⟨access, h⟩
        obtain ⟨_, hcontext, h⟩ := bind_eq_ok.mp h
        cases hbuilt.symm.trans (mapError_eq_ok.mp hcontext)
        obtain ⟨_, hrunner, h⟩ := bind_eq_ok.mp h
        cases hagent.symm.trans (mapError_eq_ok.mp hrunner)
        obtain ⟨scopes, hscopes, h⟩ := bind_eq_ok.mp h
        obtain ⟨_, hok, -⟩ := bind_eq_ok.mp h
        obtain ⟨hpublished, hlive, hmay, ⟨henabled', hactive⟩, hchannel⟩ := hchecks.mp hok
        exact ⟨⟨hpublished, henabled', hactive, hchannel, scopes, mapError_eq_ok.mp hscopes⟩,
          hlive, hmay⟩
      · rintro ⟨hshared, hlive, hmay⟩
        obtain ⟨scopes, hscopes⟩ := hshared.grants
        have hok := hchecks.mpr ⟨hshared.published, hlive, hmay,
          ⟨hshared.enabled, hshared.active⟩, hshared.channel⟩
        exact ⟨_, bind_eq_ok.mpr ⟨context, mapError_eq_ok.mpr hbuilt, bind_eq_ok.mpr ⟨agent,
          mapError_eq_ok.mpr hagent, bind_eq_ok.mpr ⟨scopes, mapError_eq_ok.mpr hscopes,
          bind_eq_ok.mpr ⟨(), hok, rfl⟩⟩⟩⟩⟩

end Admission

/-! ## Where the two part -/

/-- A run that passes every shared check, and that one service admits and the
other refuses. -/
inductive AdmissionGap (db : SharedTables) (agentId releaseId actorId channel : String) :
    Prop where
  /-- The Runtime runs an agent that the platform has disabled. -/
  | disabledAgent (release : PublishedRelease)
      (fetched : fetchAgentRelease db agentId releaseId = some release)
      (shared : SharedChecks db.toPlatformTables release actorId channel)
      (disabled : agentIsEnabled db agentId ≠ some true) (actor : actorId ≠ "")
      (mayRun : RuntimeMayRun db release actorId)
  /-- Of an enabled agent, the actor is neither owner nor administrator, and the
  row's visibility is not what the configuration and its members say. -/
  | visibility (release : PublishedRelease)
      (fetched : fetchAgentRelease db agentId releaseId = some release)
      (shared : SharedChecks db.toPlatformTables release actorId channel)
      (enabled : agentIsEnabled db agentId = some true) (actor : actorId ≠ "")
      (stranger : ¬ release.OwnedBy actorId)
      (ordinary : userHasRole db.toPlatformTables actorId platformAdminRole = false)
      (differs : ¬ (release.PublicForRuntime
        ↔ release.PublicInConfig ∨ release.HasMember actorId))
  /-- The Control Plane takes the empty string for an actor. -/
  | emptyActor (release : PublishedRelease)
      (fetched : fetchAgentRelease db agentId releaseId = some release)
      (shared : SharedChecks db.toPlatformTables release actorId channel)
      (enabled : agentIsEnabled db agentId = some true) (actor : actorId = "")
      (mayRun : ControlPlaneMayRun db release actorId)

/-- For every state, release, actor and channel the two services admit the same runs except in
these gaps. Each side is read as a conjunction over the rows, and the gaps are what remains of
one conjunction where the other fails. -/
theorem admissions_agree_iff {env : RuntimeEnv} {db : SharedTables}
    {agentId releaseId actorId channel : String} :
    (RuntimeAdmits env db agentId releaseId actorId channel
        ↔ ControlPlaneAdmits db agentId releaseId actorId channel)
      ↔ ¬ AdmissionGap db agentId releaseId actorId channel := by
  rw [runtimeAdmits_iff, controlPlaneAdmits_iff]
  constructor
  · intro hagree hgap
    cases hgap with
    | disabledAgent release fetched shared disabled actor mayRun =>
        obtain ⟨_, _, _, hlive, -⟩ := hagree.mp ⟨release, fetched, shared, actor, mayRun⟩
        exact disabled hlive
    | visibility release fetched shared enabled actor stranger ordinary differs =>
        refine differs ⟨fun hpublic => ?_, fun hpublic => ?_⟩
        · obtain ⟨other, hother, -, -, hmay⟩ :=
            hagree.mp ⟨release, fetched, shared, actor, Or.inl hpublic⟩
          cases fetched.symm.trans hother
          simpa [ControlPlaneMayRun, stranger, ordinary] using hmay
        · obtain ⟨other, hother, -, -, hmay⟩ := hagree.mpr ⟨release, fetched, shared, enabled,
            by unfold ControlPlaneMayRun; tauto⟩
          cases fetched.symm.trans hother
          simpa [RuntimeMayRun, stranger, ordinary] using hmay
    | emptyActor release fetched shared enabled actor mayRun =>
        obtain ⟨_, -, -, hactor, -⟩ := hagree.mpr ⟨release, fetched, shared, enabled, mayRun⟩
        exact hactor actor
  · intro hgap
    constructor
    · rintro ⟨release, fetched, shared, actor, mayRun⟩
      have hlive : agentIsEnabled db agentId = some true := by
        by_contra hdisabled
        exact hgap (.disabledAgent release fetched shared hdisabled actor mayRun)
      refine ⟨release, fetched, shared, hlive, ?_⟩
      by_contra hrefused
      simp only [ControlPlaneMayRun, not_or, Bool.not_eq_true] at hrefused
      obtain ⟨hconfig, hstranger, hmember, hordinary⟩ := hrefused
      have hpublic : release.PublicForRuntime := by
        simpa [RuntimeMayRun, hstranger, hordinary] using mayRun
      exact hgap (.visibility release fetched shared hlive actor hstranger hordinary
        (by simp [hpublic, hconfig, hmember]))
    · rintro ⟨release, fetched, shared, hlive, mayRun⟩
      have hactor : actorId ≠ "" := fun hempty =>
        hgap (.emptyActor release fetched shared hlive hempty mayRun)
      refine ⟨release, fetched, shared, hactor, ?_⟩
      by_contra hrefused
      simp only [RuntimeMayRun, not_or, Bool.not_eq_true] at hrefused
      obtain ⟨hprivate, hstranger, hordinary⟩ := hrefused
      have hpublic : release.PublicInConfig ∨ release.HasMember actorId := by
        unfold ControlPlaneMayRun at mayRun
        simpa [hstranger, hordinary] using mayRun
      exact hgap (.visibility release fetched shared hlive hactor hstranger hordinary
        (by simp [hprivate, hpublic]))

/-- A private agent of `ada` with the member `bea`, published as
`release_config_snapshot` writes it. -/
def deskRelease : PublishedRelease where
  releaseId := "rel_1"
  agentId := "agent_1"
  version := 1
  status := "published"
  config :=
    [("agent", .obj
      [("id", .str "agent_1"), ("name", .str "desk"), ("icon", .str "robot"),
       ("visibility", .str "private"), ("members", .arr [.str "bea"]),
       ("owner_user_id", .str "ada"), ("system_prompt", .str ""), ("model", .null),
       ("channels", .arr [.str "web_console"]), ("enabled", .bool true)]),
     ("tools", .arr []),
     ("runtime_policy", .obj [("release_token_enabled", .bool false)]),
     ("permission_snapshot", .obj
      [("published_by", .str "ada"), ("published_by_roles", .arr []),
       ("role_tool_scopes", .obj [])])]
  readable :=
    ⟨⟨_, rfl, ⟨["bea"], rfl⟩, ⟨["web_console"], rfl⟩⟩,
      ⟨[], rfl, fun _ htool => absurd htool List.not_mem_nil⟩, ⟨_, [], rfl, rfl⟩⟩

example : releaseConfigSnapshot [] "agent_1"
    { ownerUserId := "ada", enabled := true, name := "desk", icon := "robot",
      systemPrompt := "", model := none, visibility := "private", members := ["bea"],
      toolScopes := [], channels := ["web_console"] } "ada" [] []
    = .ok deskRelease.config := by decide

def deskTables (enabled : Bool) : SharedTables where
  users := [⟨"ada", "active"⟩, ⟨"bea", "active"⟩]
  agents := [⟨"agent_1", enabled⟩]
  releases := [deskRelease]

/-- The owner still runs the disabled agent in the Runtime; the member of the
enabled one runs it in the Control Plane only. -/
theorem admissions_disagree :
    (RuntimeAdmits { localRunner := "mcp+stdio://python" } (deskTables false)
        "agent_1" "rel_1" "ada" "web_console"
      ∧ ¬ ControlPlaneAdmits (deskTables false) "agent_1" "rel_1" "ada" "web_console")
    ∧ ¬ RuntimeAdmits { localRunner := "mcp+stdio://python" } (deskTables true)
        "agent_1" "rel_1" "bea" "web_console"
      ∧ ControlPlaneAdmits (deskTables true) "agent_1" "rel_1" "bea" "web_console" := by
  refine ⟨⟨⟨_, rfl⟩, ?_⟩, ?_, ⟨_, rfl⟩⟩
  · rintro ⟨access, h⟩
    cases h
  · rintro ⟨context, h⟩
    cases h

end Aegora
