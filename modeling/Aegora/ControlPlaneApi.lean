import Aegora.ControlPlaneDb

/-!
# The endpoints of the Control Plane

Who a request comes from, and what each endpoint of `api.py` checks and
writes, in the order of the source. The bodies of requests have passed their
validation; the answers are left out. What an endpoint does with agents,
releases and runs is left out too: for creating and updating an agent, the
checks on those tables are an input (`checks`), because the members they let
through become users. `POST /admin/seed-roles` is no endpoint here.
-/

namespace Aegora

open Py Handlers

/-- The `Authorization` header, and what the OA service says about its token. -/
structure Caller where
  authorization : Option String := none
  oaUser : Except HttpFailure String := .error ⟨503, "OA 鉴权服务不可用"⟩

/-! ## Identity -/

/-- `extract_bearer_token`. -/
def extractBearerToken (authorization : Option String) : Option String :=
  authorization.bind fun header =>
    let token := strip (String.ofList (header.toList.drop 7))
    if (header.toList.take 7).map Char.toLower = "bearer ".toList ∧ token ≠ "" then some token
    else none

section Identity

variable (env : ControlPlaneEnv) (caller : Caller)

/-- `resolve_current_user_id`, with the failures that the API turns its exceptions into. -/
def currentUserId : ControlPlaneHandler String := do
  match extractBearerToken caller.authorization with
  | none => throw ⟨401, "缺少登录 token"⟩
  | some token =>
      match env.authMode with
      | .local => do
          let db ← get
          match db.sessionUser? env token with
          | none => throw ⟨401, "登录已失效"⟩
          | some userId => pure userId
      | .oa =>
          match caller.oaUser with
          | .error failure => throw failure
          | .ok userId => do
              ensureUserExists userId
              let db ← get
              demand (db.userIsActive userId) ⟨403, "当前用户不可用"⟩
              pure userId

/-- `require_platform_admin`. -/
def requirePlatformAdmin (actorId : String) : ControlPlaneHandler Unit := do
  let db ← get
  demand (db.userIsActive actorId ∧ db.userHasRole actorId platformAdminRole)
    ⟨403, "需要 platform_admin 角色"⟩

/-- `require_current_platform_admin`. -/
def requireCurrentPlatformAdmin : ControlPlaneHandler String := do
  let actorId ← currentUserId env caller
  requirePlatformAdmin actorId
  pure actorId

/-- `require_current_actor`. -/
def requireCurrentActor (claimedActorId : String) : ControlPlaneHandler String := do
  let actorId ← currentUserId env caller
  demand (actorId = claimedActorId) ⟨403, "请求用户与登录用户不一致"⟩
  let db ← get
  demand (db.userIsActive actorId) ⟨403, "当前用户不可用"⟩
  pure actorId

/-- What every administrator's endpoint does first, then `body` as that administrator. -/
def asPlatformAdmin (body : String → ControlPlaneHandler Unit) : ControlPlaneHandler Unit := do
  ensureSchema
  let actorId ← requireCurrentPlatformAdmin env caller
  body actorId

/-- As an administrator who is also the actor the request names. -/
def asNamedPlatformAdmin (claimedActorId : String)
    (body : String → ControlPlaneHandler Unit) : ControlPlaneHandler Unit :=
  asPlatformAdmin env caller fun actorId => do
    demand (claimedActorId = actorId) ⟨403, "请求用户与登录用户不一致"⟩
    body actorId

end Identity

/-! ## Requests -/

/-- `ToolRequest`. -/
structure ToolRequest where
  status : String := "active"
  source : String := "http"
  version : String := "dev"
  runnerToolId : Option String := none
  mcpConnectionId : Option String := none
  manifestHash : Option String := none
  fields : Dict := []

/-- `WorkflowCapabilityRequest`. -/
structure WorkflowCapabilityRequest where
  mcpConnectionId : String
  version : String := "v1"
  status : String := "active"
  fields : Dict := []

/-- `RoleUpsertRequest`. -/
structure RoleUpsertRequest where
  actorId : String
  roleId : String
  name : String
  description : String := ""
  status : String := "active"
  permissions : List (String × Json) := []

/-- `MCPConnectionRequest` with its `runtime_config()`. -/
structure McpConnectionRequest where
  name : String
  status : String := "active"
  transport : String
  runtimeConfig : Json

inductive Endpoint where
  | login (userId token : String)
  | authConfig
  | me
  | logout
  | setUser (userId status : String)
  | listMcpConnections
  | runtimeConfigEventMetrics
  | setMcpConnection (connectionId : String) (request : McpConnectionRequest)
  | discoverMcpConnectionTools (connectionId : String)
      (discovered : Except String (List ToolDefinition))
  | listTools
  | setTool (toolId : String) (request : ToolRequest)
  | setWorkflowCapability (workflowId : String) (request : WorkflowCapabilityRequest)
  | listWorkflowVersions
  | retireWorkflowVersion (workflowId version : String)
  | setToolStatus (toolId actorId status : String)
  | listRoles
  | listAdminUsers
  | listMemoryPolicies
  | setMemoryPolicy (row : PolicyRow)
  | listMemoryPreferences (userId : String)
  | setMemoryPreference (userId : String)
  | createCustomRole (request : RoleUpsertRequest)
  | updateCustomRole (roleId : String) (request : RoleUpsertRequest)
  | setUserRoles (userId actorId : String) (roles : List String)
  | createAgent (ownerUserId : String) (members : List String) (checks : Option HttpFailure)
  | listAgents
  | getAgent
  | updateAgent (actorId : String) (members : List String) (checks : Option HttpFailure)
  | setAgentStatus (actorId : String)
  | publishAgent (actorId : String)
  | listAgentReleases
  | revokeAgentRelease (actorId : String)
  | getAgentRelease
  | runAgentRelease
  | authorizeTool
  | runAgent
  | decideGatewayApproval (actorId : String)
  | listRuns
  | run

/-! ## Endpoints that write -/

section Endpoints

variable (env : ControlPlaneEnv) (caller : Caller)

def login (userId token : String) : ControlPlaneHandler Unit := do
  ensureSchema
  demand (env.authMode = .local) ⟨403, "当前环境使用 OA 登录"⟩
  let db ← get
  demand (db.userIsActive userId) ⟨403, "用户不存在或不可用"⟩
  createUserSession env token userId

def logout : ControlPlaneHandler Unit := do
  ensureSchema
  match extractBearerToken caller.authorization with
  | none => throw ⟨401, "缺少登录 token"⟩
  | some token => if env.authMode = .local then revokeUserSession env token else pure ()

def setUser (userId status : String) : ControlPlaneHandler Unit := do
  ensureSchema
  upsertUser userId status

/-- `re.fullmatch(r"[a-zA-Z0-9][a-zA-Z0-9._-]{0,99}", text)`. -/
def validIdentifier (text : String) : Bool :=
  let plain (c : Char) : Bool := c.isAlphanum
  match text.toList with
  | [] => false
  | c :: cs => plain c && cs.length ≤ 99 && cs.all fun c => plain c || c ∈ ['.', '_', '-']

def setMcpConnection (connectionId : String) (request : McpConnectionRequest) :
    ControlPlaneHandler Unit := do
  demand (validIdentifier connectionId) ⟨422, "MCP connection_id 格式不合法"⟩
  asPlatformAdmin env caller fun _ =>
    upsertMcpConnection env connectionId request.name request.status request.transport
      request.runtimeConfig

def discoverMcpConnectionTools (connectionId : String)
    (discovered : Except String (List ToolDefinition)) : ControlPlaneHandler Unit :=
  asPlatformAdmin env caller fun _ => do
    let db ← get
    match db.connection? connectionId with
    | none => throw ⟨404, "MCP 连接不存在"⟩
    | some connection =>
        match discovered with
        | .error detail => throw ⟨502, "MCP 工具发现失败: " ++ detail⟩
        | .ok tools => replaceDiscoveredMcpTools env connection tools

/-- The definition that a `ToolRequest` describes. -/
def ToolRequest.definition (toolId : String) (request : ToolRequest)
    (runnerToolId : Option String) : ToolDefinition where
  toolId := toolId
  source := request.source
  version := request.version
  status := request.status
  manifestHash := request.manifestHash.getD ""
  fields := Dict.merge request.fields
    [("runner_tool_id", ofOption runnerToolId),
      ("mcp_connection_id", ofOption request.mcpConnectionId)]
where
  /-- A nullable text. -/
  ofOption (text : Option String) : Json := (text.map Json.str).getD .null

/-- `tool_definition_from_request`, with the hash that `_upsert_tool` adds. -/
def toolDefinitionFromRequest (db : ControlPlaneTables) (toolId : String)
    (request : ToolRequest) : Except HttpFailure ToolDefinition :=
  match request.mcpConnectionId.filter (· ≠ "") with
  | none => .ok (env.hashed (request.definition toolId request.runnerToolId) none)
  | some connectionId =>
      if request.source ∉ ["mcp", "workflow"] then
        .error ⟨422, "只有 MCP/Workflow 能力可以绑定 MCP 连接"⟩
      else match db.connection? connectionId with
        | none => .error ⟨422, "MCP 连接不存在"⟩
        | some connection =>
            .ok (env.hashed (request.definition toolId (some (env.runnerToolId connection)))
              (some connection))

def setTool (toolId : String) (request : ToolRequest) : ControlPlaneHandler Unit := do
  ensureSchema
  let db ← get
  match toolDefinitionFromRequest env db toolId request with
  | .error failure => throw failure
  | .ok tool => upsertTool false tool

/-- `build_workflow_capability`. -/
def buildWorkflowCapability (workflowId : String) (request : WorkflowCapabilityRequest)
    (connection : ConnectionRow) : ToolDefinition where
  toolId := workflowId
  source := "workflow"
  version := request.version
  status := request.status
  manifestHash := ""
  fields := Dict.merge request.fields
    [("runner_tool_id", .str (env.runnerToolId connection)),
      ("mcp_connection_id", .str request.mcpConnectionId), ("read_only", .bool false),
      ("idempotent", .bool false), ("parallel_safe", .bool false),
      ("network_access", .str "internal_only"), ("layer", .str "workflow"),
      ("category", .str "workflow"), ("namespace", .str "workflow"),
      ("group_id", .str "workflow.registered"), ("group_name", .str "Registered Workflows")]

def setWorkflowCapability (workflowId : String) (request : WorkflowCapabilityRequest) :
    ControlPlaneHandler Unit := do
  demand (validIdentifier workflowId) ⟨422, "workflow_id 格式不合法"⟩
  asPlatformAdmin env caller fun actorId => do
    let db ← get
    match db.connection? request.mcpConnectionId with
    | none => throw ⟨422, "MCP 连接不存在"⟩
    | some connection => do
        let result ← runWorkflow env (some connection)
          (.publish (buildWorkflowCapability env workflowId request connection) actorId)
        match result with
        | .raised detail => throw ⟨409, detail⟩
        | _ => pure ()

def retireWorkflowVersion (workflowId version : String) : ControlPlaneHandler Unit :=
  asPlatformAdmin env caller fun actorId => do
    let result ← runWorkflow env none (.retire workflowId version actorId)
    demand (result ≠ .version none) ⟨404, "Workflow 版本不存在"⟩

def setToolStatus (toolId actorId status : String) : ControlPlaneHandler Unit :=
  asNamedPlatformAdmin env caller actorId fun _ => do
    let result ← runWorkflow env none (.toggle toolId status)
    demand (result ≠ .updated false) ⟨404, "工具不存在"⟩

def setMemoryPolicy (row : PolicyRow) : ControlPlaneHandler Unit :=
  asPlatformAdmin env caller fun actorId => upsertMemoryNamespacePolicy ⟨row, actorId⟩

/-- A column with a scope, as `dict[str, list[str]]`. -/
def scopeSchemaOf (tool : ToolDefinition) : Scope :=
  (tool.column "scope_schema").dictOrEmpty.map fun kv =>
    (kv.1, ((kv.2.asList?).getD []).map Json.pyStr)

/-- `fetch_tool_scope_schemas(…).get(tool_id)`: active tools on active connections. -/
def scopeSchema? (db : ControlPlaneTables) (toolId : String) : Option Scope := do
  let tool ← Transactions.find ToolDefinition.toolId db.tools toolId
  guard (tool.status = "active")
  match tool.mcpConnectionId with
  | none | some "" => pure ()
  | some connectionId => do
      let connection ← db.connection? connectionId
      guard (connection.status = "active")
  return scopeSchemaOf tool

/-- `normalize_role_permissions`. -/
def normalizeRolePermissions (db : ControlPlaneTables) (request : RoleUpsertRequest) :
    Except HttpFailure (List (String × Scope)) :=
  let normalized := do
    let permissions ← mergeToolScopes request.permissions
    for kv in permissions do
      let _ ← validateToolScope kv.1 kv.2.toJson (scopeSchema? db kv.1)
    return permissions
  normalized.mapError fun
    | .runtime message status => ⟨status, message⟩
    | .python kind => ⟨500, kind⟩

/-- The permissions of a role, for tools that exist. -/
def rolePermissionsFor (request : RoleUpsertRequest) :
    ControlPlaneHandler (List (String × Scope)) := do
  let db ← get
  match normalizeRolePermissions db request with
  | .error failure => throw failure
  | .ok permissions => do
      demand (∀ kv ∈ permissions, kv.1 ∈ db.tools.map ToolDefinition.toolId)
        ⟨422, "包含未注册工具"⟩
      pure permissions

def createCustomRole (request : RoleUpsertRequest) : ControlPlaneHandler Unit :=
  asNamedPlatformAdmin env caller request.actorId fun _ => do
    let db ← get
    demand ((db.role? request.roleId).isNone) ⟨409, "角色 ID 已存在"⟩
    let permissions ← rolePermissionsFor request
    createRole request.roleId request.name request.description request.status
    replaceRoleToolPermissions request.roleId permissions

def updateCustomRole (roleId : String) (request : RoleUpsertRequest) :
    ControlPlaneHandler Unit :=
  asNamedPlatformAdmin env caller request.actorId fun _ => do
    demand (request.roleId = roleId) ⟨422, "角色 ID 不允许修改"⟩
    let db ← get
    demand ((db.role? roleId).isSome) ⟨404, "角色不存在"⟩
    demand (∀ role ∈ db.role? roleId, !role.isSystem) ⟨403, "系统角色不允许编辑"⟩
    let permissions ← rolePermissionsFor request
    let updated ← updateRole roleId request.name request.description request.status
    demand updated ⟨404, "角色不存在"⟩
    replaceRoleToolPermissions roleId permissions

def setUserRoles (userId actorId : String) (roles : List String) : ControlPlaneHandler Unit :=
  asNamedPlatformAdmin env caller actorId fun _ => do
    let db ← get
    demand (∀ roleId ∈ roles, (db.role? roleId).isSome) ⟨422, "包含未注册角色"⟩
    if db.userIsActive userId then pure () else upsertUser userId "active"
    replaceUserRoles userId (sortedSet roles)

/-- `INSERT INTO users (id) …` for each member of an agent. -/
def insertMembers (members : List String) : ControlPlaneHandler Unit :=
  (sortedSet ((members.map strip).filter (· ≠ ""))).forM ensureUserExists

def createAgent (ownerUserId : String) (members : List String) (checks : Option HttpFailure) :
    ControlPlaneHandler Unit := do
  ensureSchema
  let actorId ← currentUserId env caller
  let db ← get
  demand (db.userIsActive actorId) ⟨403, "当前用户不可用"⟩
  demand (actorId = ownerUserId ∨ db.userHasRole actorId platformAdminRole)
    ⟨403, "当前用户不能代替他人创建 Agent"⟩
  demand (db.userIsActive ownerUserId) ⟨403, "创建者不可用"⟩
  match checks with
  | some failure => throw failure
  | none => insertMembers (members.filter fun member => strip member ≠ ownerUserId)

def updateAgent (actorId : String) (members : List String) (checks : Option HttpFailure) :
    ControlPlaneHandler Unit := do
  ensureSchema
  let _ ← requireCurrentActor env caller actorId
  match checks with
  | some failure => throw failure
  | none => insertMembers members

end Endpoints

/-! ## All of them -/

/-- A request, by its endpoint. First the endpoints of an administrator, then those of the user
that the request names, those of whoever is logged in, and those that do not ask who calls. -/
def serve (env : ControlPlaneEnv) (caller : Caller) : Endpoint → ControlPlaneHandler Unit
  | .login userId token => login env userId token
  | .authConfig => pure ()
  | .logout => logout env caller
  | .setUser userId status => setUser userId status
  | .setMcpConnection connectionId request => setMcpConnection env caller connectionId request
  | .discoverMcpConnectionTools connectionId discovered =>
      discoverMcpConnectionTools env caller connectionId discovered
  | .setTool toolId request => setTool env toolId request
  | .setWorkflowCapability workflowId request =>
      setWorkflowCapability env caller workflowId request
  | .retireWorkflowVersion workflowId version =>
      retireWorkflowVersion env caller workflowId version
  | .setToolStatus toolId actorId status => setToolStatus env caller toolId actorId status
  | .setMemoryPolicy row => setMemoryPolicy env caller row
  | .createCustomRole request => createCustomRole env caller request
  | .updateCustomRole roleId request => updateCustomRole env caller roleId request
  | .setUserRoles userId actorId roles => setUserRoles env caller userId actorId roles
  | .createAgent ownerUserId members checks => createAgent env caller ownerUserId members checks
  | .updateAgent actorId members checks => updateAgent env caller actorId members checks
  | .setAgentStatus actorId => asNamedPlatformAdmin env caller actorId fun _ => pure ()
  | .listMcpConnections | .runtimeConfigEventMetrics | .listWorkflowVersions | .listRoles
  | .listAdminUsers | .listMemoryPolicies => asPlatformAdmin env caller fun _ => pure ()
  | .listMemoryPreferences actorId | .setMemoryPreference actorId | .publishAgent actorId
  | .revokeAgentRelease actorId | .decideGatewayApproval actorId => do
      ensureSchema
      let _ ← requireCurrentActor env caller actorId
      pure ()
  | .me | .getAgent => do
      ensureSchema
      let _ ← currentUserId env caller
      pure ()
  | .listAgents => do
      ensureSchema
      if (caller.authorization.getD "") = "" then pure ()
      else do
        let _ ← currentUserId env caller
        pure ()
  | .listTools | .listAgentReleases | .getAgentRelease | .runAgentRelease | .authorizeTool
  | .runAgent | .listRuns | .run => ensureSchema

/-- A request to the Control Plane. -/
structure ControlPlaneRequest where
  caller : Caller := {}
  endpoint : Endpoint

/-- A request, served to its end; a failure leaves what was written before it. -/
def controlPlaneStep (env : ControlPlaneEnv) (db : ControlPlaneTables)
    (request : ControlPlaneRequest) : Option ControlPlaneTables :=
  some (after (serve env request.caller request.endpoint) db)

end Aegora
