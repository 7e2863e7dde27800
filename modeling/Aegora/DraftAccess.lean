import Aegora.ReleaseAccess

/-!
# Who may run a draft

`load_agent` reads a draft from the tables of the Control Plane, and
`resolve_agent_access` admits a run of it with the tools that are configured,
in the latest snapshot of the owner's tools, granted to the actor and active.
-/

namespace Aegora

open Py

/-! ## The tables of drafts -/

/-- A row of `agents`. -/
structure AgentDraftRow extends AgentRow where
  name : String
  icon : String := "robot"
  visibility : String := "private"
  ownerUserId : String
  systemPrompt : String := ""
  model : Option String := none
deriving DecidableEq

/-- A row of `agent_tools`. -/
structure AgentToolRow where
  agentId : String
  toolId : String
  scopeJson : Json := .obj []
  enabled : Bool := true
deriving DecidableEq

/-- A row of `agent_permission_snapshots`. -/
structure AgentSnapshotRow where
  agentId : String
  snapshotVersion : Int
  permissionJson : Json
deriving DecidableEq

/-- The shared tables, with those that only drafts use. -/
structure DraftTables extends PlatformTables where
  agents : List AgentDraftRow := []
  agentTools : List AgentToolRow := []
  snapshots : List AgentSnapshotRow := []
  channelBindings : List (String × String) := []
  agentMembers : List (String × String) := []
  releases : List PublishedRelease := []

/-- What the release paths of both services read of them. -/
def DraftTables.shared (db : DraftTables) : SharedTables where
  toPlatformTables := db.toPlatformTables
  agents := db.agents.map AgentDraftRow.toAgentRow
  releases := db.releases

/-! ## `load_agent` -/

/-- `set(x)`; a list or a dictionary in it is not hashable. -/
def setOf (value : Json) : Except ContextError (List Json) := do
  let items ← pyList value
  if items.any fun item => item.asList?.isSome || item.asDict?.isSome then
    throw (.python "TypeError")
  return items

/-- `ORDER BY snapshot_version DESC LIMIT 1`. -/
def latestSnapshot (db : DraftTables) (agentId : String) : Option AgentSnapshotRow :=
  (db.snapshots.filter fun row => row.agentId = agentId).foldl
    (fun latest row => match latest with
      | some best => if best.snapshotVersion < row.snapshotVersion then some row else some best
      | none => some row) none

/-- What `load_agent` returns, with the tools of the snapshot. -/
structure LoadedAgent extends AgentRecord where
  snapshotTools : List Json

/-- The scopes of the enabled tools of an agent. -/
def agentToolScopes (db : DraftTables) (agentId : String) :
    Except ContextError (List (String × Scope)) := do
  let rows := db.agentTools.filter fun row => row.agentId = agentId && row.enabled
  let scopes ← rows.mapM fun row => do
    let scope ← normalizeScope row.scopeJson
    return (row.toolId, scope)
  return Dict.ofEntries scopes

/-- `load_agent`. -/
def loadAgent (db : DraftTables) (agentId : String) :
    Except ContextError (Option LoadedAgent) :=
  match db.agents.find? fun row => row.id = agentId with
  | none => .ok none
  | some row => do
      let toolScopes ← agentToolScopes db agentId
      let snapshot := match latestSnapshot db agentId with
        | some snapshot => snapshot.permissionJson
        | none => strings (sortedSet (toolScopes.map Prod.fst))
      let snapshotTools ← setOf snapshot
      return some {
        ownerUserId := row.ownerUserId
        enabled := row.enabled
        name := row.name
        icon := row.icon
        systemPrompt := row.systemPrompt
        model := row.model
        visibility := row.visibility
        members := (db.agentMembers.filter fun kv => kv.1 = agentId).map Prod.snd
        toolScopes := toolScopes
        channels := (db.channelBindings.filter fun kv => kv.1 = agentId).map Prod.snd
        snapshotTools := snapshotTools }

/-! ## `resolve_agent_access` -/

namespace ControlPlane

/-- The dictionary of a draft, which has no release. -/
def draftRunner (agent : AgentRecord) : RunnerAgent where
  ownerUserId := .str agent.ownerUserId
  enabled := agent.enabled
  name := .str agent.name
  icon := .str agent.icon
  visibility := .str agent.visibility
  members := agent.members.map .str
  systemPrompt := .str agent.systemPrompt
  model := optionalStr agent.model
  toolScopes := agent.toolScopes
  channels := agent.channels.map .str
  releaseId := .null
  releaseVersion := .null

/-- The checks of `resolve_agent_access` on the agent it has read. -/
def checkAgentAccess (db : PlatformTables) (actorId channel : String) (agent : AgentRecord) :
    Except AccessError Unit :=
  if !agent.enabled || !userIsActive db actorId then
    .error (.http 403 "Agent 或创建者不可用" (some "agent or owner inactive"))
  else if !canRunAgent db actorId (draftRunner agent) then
    .error (.http 403 "当前用户不能执行该 Agent" (some "actor cannot run agent"))
  else if channel ∉ agent.channels then
    .error (.http 403 "渠道未授权" (some "channel not allowed"))
  else .ok ()

/-- The texts in a set. -/
def textsOf (items : List Json) : List String :=
  items.filterMap fun
    | .str text => some text
    | _ => none

/-- `resolve_agent_access`. -/
def resolveAgentAccess (db : DraftTables) (agentId actorId channel : String) :
    Except AccessError (LoadedAgent × List String) := do
  let loaded ← (loadAgent db agentId).mapError .ofContext
  match loaded with
  | none => throw (.http 404 "Agent 不存在")
  | some agent => do
      checkAgentAccess db.toPlatformTables actorId channel agent.toAgentRecord
      let roleScopes ← (getUserRoleToolScopes db.toPlatformTables actorId).mapError .ofContext
      let allowedTools := effectiveTools (agent.toolScopes.map Prod.fst)
        (textsOf agent.snapshotTools) (roleScopes.map Prod.fst)
      let active := activeToolIds db.toPlatformTables allowedTools
      return (agent, allowedTools.filter (· ∈ active))

end ControlPlane

end Aegora
