import Aegora.Handlers
import Aegora.PlatformTables
import Aegora.ReleaseRequests
import Aegora.WorkflowVersions

/-!
# The database of the Control Plane

The tables that the administration writes, and the functions of `db.py` that
write them. Each function is a transaction of its own, so what an endpoint has
written stays when it raises afterwards. Times and the tables of agents,
releases, runs and events are left out; the columns of `tools` that no
statement asks about are carried along in `fields`.
-/

namespace Aegora

open Py Handlers

/-! ## Tables -/

/-- A row of `user_sessions`. -/
structure SessionRow where
  tokenHash : String
  userId : String
  revoked : Bool := false
deriving DecidableEq

/-- A row of `roles`. -/
structure RoleRecord where
  id : String
  name : String
  description : String
  status : String
  isSystem : Bool
deriving DecidableEq

/-- A row of `memory_namespace_policies`, with who wrote it. -/
structure PolicyRecord extends PolicyRow where
  updatedBy : String
deriving DecidableEq

structure ControlPlaneTables where
  tools : List ToolDefinition := []
  connections : List ConnectionRow := []
  workflowVersions : List WorkflowVersion := []
  roles : List RoleRecord := []
  rolePermissions : List RolePermissionRow := []
  userRoles : List (String × String) := []
  memoryPolicies : List PolicyRecord := []
  users : List UserRow := []
  sessions : List SessionRow := []

inductive SessionAuthMode where
  | local
  | oa
deriving DecidableEq

/-- The configuration and the hashes. -/
structure ControlPlaneEnv where
  authMode : SessionAuthMode
  hashSessionToken : String → String
  hashtext : String → Int
  computeToolManifestHash : ToolDefinition → Option ConnectionRow → String
  computeMcpConnectionHash : String → Json → String
  /-- `MCPConnectionDefinition.runner_tool_id`. -/
  runnerToolId : ConnectionRow → String

/-- `tool.manifest_hash or compute_tool_manifest_hash(tool)`. -/
def ControlPlaneEnv.hashed (env : ControlPlaneEnv) (tool : ToolDefinition)
    (connection : Option ConnectionRow) : ToolDefinition :=
  if tool.manifestHash = "" then
    { tool with manifestHash := env.computeToolManifestHash tool connection }
  else tool

/-- What an endpoint runs. -/
abbrev ControlPlaneHandler := Handler ControlPlaneTables HttpFailure

/-- A `ValueError`, answered with 422. -/
def valueFailure (detail : String) : HttpFailure := ⟨422, detail⟩

namespace ControlPlaneTables

variable (db : ControlPlaneTables)

/-- `user_status`. -/
def userStatus (userId : String) : Option String :=
  (Transactions.find UserRow.id db.users userId).map UserRow.status

/-- `user_is_active`. -/
def userIsActive (userId : String) : Bool := db.userStatus userId = some "active"

/-- `user_has_role`. -/
def userHasRole (userId roleId : String) : Bool := db.userRoles.contains (userId, roleId)

/-- `get_session_user`. -/
def sessionUser? (env : ControlPlaneEnv) (token : String) : Option String :=
  (db.sessions.find? fun row =>
    row.tokenHash = env.hashSessionToken token && !row.revoked && db.userIsActive row.userId).map
      SessionRow.userId

/-- `fetch_mcp_connection`. -/
def connection? (connectionId : String) : Option ConnectionRow :=
  Transactions.find ConnectionRow.id db.connections connectionId

def role? (roleId : String) : Option RoleRecord :=
  Transactions.find RoleRecord.id db.roles roleId

end ControlPlaneTables

/-! ## `ensure_schema` -/

namespace ToolDefinition

variable (tool : ToolDefinition)

def column (name : String) : Json := Dict.get tool.fields name

def mcpConnectionId : Option String :=
  match tool.column "mcp_connection_id" with
  | .str connectionId => some connectionId
  | _ => none

/-- The `UPDATE tools SET source = …` statements. -/
def migratedSource : String :=
  if tool.source = "manual" then "http"
  else if tool.source = "runner" then "workflow_agent"
  else if tool.source ∉ ["mcp", "http", "workflow", "workflow_agent", "local"] then "http"
  else tool.source

/-- The columns that say where a local tool belongs. -/
def localColumns : Dict :=
  [("layer", .str "runtime"), ("category", .str "utility"), ("namespace", .str "platform"),
    ("group_id", .str "platform.local"), ("group_name", .str "平台本地工具")]

/-- The row after the `UPDATE` statements of `ensure_schema`. -/
def migrate : ToolDefinition :=
  let tool := { tool with source := tool.migratedSource }
  if tool.toolId ∈ ["calculator", "time_now", "text_stats"] ∧ tool.source = "local"
      ∧ ∃ kv ∈ localColumns, tool.column kv.1 ≠ kv.2 then
    { tool with fields := Dict.merge tool.fields localColumns }
  else tool

end ToolDefinition

/-- What `ensure_schema` does to rows that are there already. -/
def ensureSchema : ControlPlaneHandler Unit :=
  modify fun db => { db with tools := db.tools.map ToolDefinition.migrate }

/-! ## Users and sessions -/

def validStatus (status : String) : Bool := status = "active" || status = "disabled"

/-- `upsert_user`. -/
def upsertUser (userId status : String) : ControlPlaneHandler Unit := do
  demand (validStatus status) (valueFailure "status 只能是 active 或 disabled")
  modify fun db => { db with users := Transactions.put UserRow.id db.users ⟨userId, status⟩ }

/-- `INSERT INTO users … ON CONFLICT (id) DO NOTHING`. -/
def insertUser (userId : String) (users : List UserRow) : List UserRow :=
  if (Transactions.find UserRow.id users userId).isSome then users
  else users ++ [⟨userId, "active"⟩]

/-- `ensure_user_exists`. -/
def ensureUserExists (userId : String) : ControlPlaneHandler Unit :=
  modify fun db => { db with users := insertUser userId db.users }

/-- `create_user_session`. -/
def createUserSession (env : ControlPlaneEnv) (token userId : String) :
    ControlPlaneHandler Unit :=
  modify fun db => { db with
    sessions := db.sessions ++ [{ tokenHash := env.hashSessionToken token, userId := userId }] }

/-- `revoke_user_session`. -/
def revokeUserSession (env : ControlPlaneEnv) (token : String) : ControlPlaneHandler Unit :=
  modify fun db => { db with
    sessions := db.sessions.map fun row =>
      if row.tokenHash = env.hashSessionToken token then { row with revoked := true } else row }

/-! ## Tools and connections -/

/-- The row that `_upsert_tool` writes over the one it finds. -/
def upsertedTool (preserveStatus : Bool) (tools : List ToolDefinition) (tool : ToolDefinition) :
    ToolDefinition :=
  match Transactions.find ToolDefinition.toolId tools tool.toolId with
  | some old => if preserveStatus then { tool with status := old.status } else tool
  | none => tool

/-- `_upsert_tool` with a definition that carries its hash; the column
`mcp_connection_id` is a foreign key. -/
def upsertTool (preserveStatus : Bool) (tool : ToolDefinition) : ControlPlaneHandler Unit := do
  let db ← get
  demand (∀ connectionId ∈ tool.mcpConnectionId, (db.connection? connectionId).isSome)
    databaseFailure
  modify fun db => { db with
    tools := Transactions.put ToolDefinition.toolId db.tools
      (upsertedTool preserveStatus db.tools tool) }

/-- `upsert_mcp_connection`, from a request and its `runtime_config()`. -/
def upsertMcpConnection (env : ControlPlaneEnv)
    (connectionId name status transport : String) (runtimeConfig : Json) :
    ControlPlaneHandler Unit :=
  modify fun db =>
    let configHash := env.computeMcpConnectionHash transport runtimeConfig
    let configVersion := match db.connection? connectionId with
      | none => 1
      | some old => if old.configHash = configHash then old.configVersion else old.configVersion + 1
    let row : ConnectionRow :=
      ⟨connectionId, name, status, transport, runtimeConfig, configVersion, configHash⟩
    { db with connections := Transactions.put ConnectionRow.id db.connections row }

/-- The `UPDATE` of `replace_discovered_mcp_tools` on one row. -/
def ToolDefinition.disableMissing (connectionId : String) (toolIds : List String)
    (tool : ToolDefinition) : ToolDefinition :=
  if tool.source = "mcp" ∧ tool.mcpConnectionId = some connectionId ∧ tool.toolId ∉ toolIds then
    { tool with status := "disabled" }
  else tool

/-- `replace_discovered_mcp_tools`. -/
def replaceDiscoveredMcpTools (env : ControlPlaneEnv) (connection : ConnectionRow)
    (tools : List ToolDefinition) : ControlPlaneHandler Unit := do
  demand (∀ tool ∈ tools, tool.source = "mcp" ∧ tool.mcpConnectionId = some connection.id)
    ⟨500, "发现工具与 MCP 连接不匹配"⟩
  tools.forM fun tool => upsertTool true (env.hashed tool (some connection))
  modify fun db => { db with
    tools := db.tools.map (·.disableMissing connection.id (tools.map ToolDefinition.toolId)) }

/-! ## Workflows -/

/-- A transaction that runs with no other beside it. -/
def WorkflowTxn.alone (env : WorkflowEnv) : Nat → WorkflowDb → WorkflowTxn →
    WorkflowDb × WorkflowTxn
  | 0, db, txn => (db, txn)
  | n + 1, db, txn =>
      match txn.next env db fun _ => true with
      | none => (db, txn)
      | some (db', txn') => WorkflowTxn.alone env n db' txn'

/-- One of the three workflow transactions; none has more than six statements. -/
def runWorkflow (env : ControlPlaneEnv) (connection : Option ConnectionRow)
    (request : WorkflowRequest) : ControlPlaneHandler WorkflowResult := do
  let db ← get
  let hashes : WorkflowEnv :=
    ⟨fun tool => env.computeToolManifestHash tool connection, env.hashtext⟩
  match WorkflowTxn.alone hashes 7 ⟨db.workflowVersions, db.tools⟩ request.txn with
  | (workflows, .finished result) => do
      set { db with tools := workflows.tools, workflowVersions := workflows.versions }
      return result
  | _ => throw databaseFailure

/-! ## Roles and policies -/

/-- `create_custom_role`; the identity is the primary key. -/
def createRole (roleId name description status : String) : ControlPlaneHandler Unit := do
  let db ← get
  demand ((db.role? roleId).isNone) databaseFailure
  modify fun db => { db with roles := db.roles ++ [⟨roleId, name, description, status, false⟩] }

/-- The `WHERE` of `update_custom_role`. -/
def RoleRecord.editable (roleId : String) (row : RoleRecord) : Bool :=
  row.id = roleId && !row.isSystem

/-- `update_custom_role`, with its row count. -/
def updateRole (roleId name description status : String) : ControlPlaneHandler Bool := do
  let db ← get
  modify fun db => { db with
    roles := db.roles.map fun row =>
      if row.editable roleId then
        { row with name := name, description := description, status := status }
      else row }
  return (db.roles.filter (RoleRecord.editable roleId)).length = 1

/-- `replace_role_tool_permissions`. -/
def replaceRoleToolPermissions (roleId : String) (permissions : List (String × Scope)) :
    ControlPlaneHandler Unit :=
  modify fun db => { db with
    rolePermissions := (db.rolePermissions.filter fun row => row.roleId ≠ roleId)
      ++ permissions.map fun kv => ⟨roleId, kv.1, kv.2.toJson⟩ }

/-- `replace_user_roles`. -/
def replaceUserRoles (userId : String) (roleIds : List String) : ControlPlaneHandler Unit :=
  modify fun db => { db with
    userRoles := (db.userRoles.filter fun row => row.1 ≠ userId)
      ++ roleIds.map fun roleId => (userId, roleId) }

/-- `upsert_memory_namespace_policy`. -/
def upsertMemoryNamespacePolicy (row : PolicyRecord) : ControlPlaneHandler Unit :=
  modify fun db => { db with
    memoryPolicies := Transactions.put (fun row => (row.tenantId, row.nameSpace))
      db.memoryPolicies row }

end Aegora
