import Aegora.RuntimeAuthz
import Aegora.GovernanceLookup

/-!
# The shared platform database

The tables both services read: tools and the MCP connections they run on,
users, roles and what roles grant, agents and their releases. The queries of
the Runtime are functions of one state of these tables.
-/

namespace Aegora

open Py

/-! ## Tables -/

/-- A row of `tools`, with the policy columns the Runtime refreshes. -/
structure ToolRow where
  id : String
  status : String
  mcpConnectionId : Option String := none
  readOnly : Bool := true
  idempotent : Bool := true
  parallelSafe : Bool := true
  requiresApproval : Bool := false
  sideEffectLevel : String := "none"
  dataSensitivity : String := "internal"
  networkAccess : String := "none"
  timeoutMs : Int := 8000
deriving DecidableEq

/-- A row of `mcp_connections`. -/
structure ConnectionRow where
  id : String
  name : String
  status : String
  transport : String
  configJson : Json
  configVersion : Int
  configHash : String
deriving DecidableEq

structure UserRow where
  id : String
  status : String
deriving DecidableEq

structure RoleRow where
  id : String
  status : String
deriving DecidableEq

/-- A row of `role_tool_permissions`. -/
structure RolePermissionRow where
  roleId : String
  toolId : String
  scopeJson : Json
deriving DecidableEq

structure PlatformTables where
  tools : List ToolRow := []
  connections : List ConnectionRow := []
  users : List UserRow := []
  roles : List RoleRow := []
  userRoles : List (String × String) := []
  rolePermissions : List RolePermissionRow := []
  governance : GovernanceTables := ⟨none, none⟩

def platformAdminRole : String := "platform_admin"

/-! ## Queries -/

/-- `SELECT … FROM mcp_connections WHERE id = … AND status = 'active'`. -/
def activeConnection (db : PlatformTables) (connectionId : String) :
    Option ConnectionRow :=
  db.connections.find? fun row => row.id = connectionId ∧ row.status = "active"

/-- The `WHERE` of `active_tool_ids` for one row of `tools`. -/
def toolRowActive (db : PlatformTables) (row : ToolRow) : Bool :=
  row.status = "active"
    && match row.mcpConnectionId with
      | none => true
      | some connectionId => (activeConnection db connectionId).isSome

/-- `active_tool_ids`. -/
def activeToolIds (db : PlatformTables) (toolIds : List String) : List String :=
  (db.tools.filter fun row => row.id ∈ toolIds ∧ toolRowActive db row).map ToolRow.id

/-- The `SELECT` list of `fetch_active_tool_runtime_policies`. -/
def ToolRow.policy (row : ToolRow) : Dict :=
  [("read_only", .bool row.readOnly),
   ("idempotent", .bool row.idempotent),
   ("parallel_safe", .bool row.parallelSafe),
   ("requires_approval", .bool row.requiresApproval),
   ("side_effect_level", .str row.sideEffectLevel),
   ("data_sensitivity", .str row.dataSensitivity),
   ("network_access", .str row.networkAccess),
   ("timeout_ms", .int row.timeoutMs)]

/-- `fetch_active_tool_runtime_policies(...).get(tool_id)`. -/
def activeToolPolicy (db : PlatformTables) (toolId : String) : Option Dict :=
  (db.tools.find? fun row => row.id = toolId ∧ row.status = "active").map ToolRow.policy

/-- An entry of `fetch_active_mcp_connections`. -/
def ConnectionRow.asDict (row : ConnectionRow) : Dict :=
  [("connection_id", .str row.id),
   ("name", .str row.name),
   ("status", .str row.status),
   ("transport", .str row.transport),
   ("config", row.configJson),
   ("config_version", .int row.configVersion),
   ("config_hash", .str row.configHash)]

/-- `user_is_active`. -/
def userIsActive (db : PlatformTables) (userId : String) : Bool :=
  db.users.any fun row => row.id = userId ∧ row.status = "active"

/-- `user_has_role`. -/
def userHasRole (db : PlatformTables) (userId roleId : String) : Bool :=
  db.userRoles.any fun row => row = (userId, roleId)

/-- The join of `get_user_role_tool_scopes`. -/
def userPermissionRows (db : PlatformTables) (userId : String) : List RolePermissionRow :=
  db.rolePermissions.filter fun row =>
    (userId, row.roleId) ∈ db.userRoles
      ∧ ∃ role ∈ db.roles, role.id = row.roleId ∧ role.status = "active"

/-- `get_user_role_tool_scopes`. -/
def getUserRoleToolScopes (db : PlatformTables) (userId : String) :
    Except ContextError (List (String × Scope)) :=
  mergeToolScopes ((userPermissionRows db userId).map fun row => (row.toolId, row.scopeJson))

/-! ## What roles grant -/

/-- An active role of the user grants the tool. -/
def Granted (db : PlatformTables) (userId toolId : String) : Prop :=
  ∃ row ∈ userPermissionRows db userId, row.toolId = toolId

/-- An active role of the user grants the tool with `value` allowed under `key`. -/
def GrantsValue (db : PlatformTables) (userId toolId key value : String) : Prop :=
  ∃ row ∈ userPermissionRows db userId, row.toolId = toolId
    ∧ RowAllows row.scopeJson key value

/-- The merged scopes of a user are what the active roles grant. -/
theorem getUserRoleToolScopes_spec {db : PlatformTables} {userId : String}
    {scopes : List (String × Scope)} (h : getUserRoleToolScopes db userId = .ok scopes)
    (toolId : String) :
    ((Dict.get? scopes toolId).isSome ↔ Granted db userId toolId)
      ∧ ∀ key value, value ∈ Scope.values ((Dict.get? scopes toolId).getD []) key
          ↔ GrantsValue db userId toolId key value := by
  obtain ⟨hgranted, hvalues⟩ := mergeToolScopes_spec h toolId
  refine ⟨by simpa [Granted] using hgranted, fun key value => ?_⟩
  simpa [GrantsValue] using hvalues key value

theorem mem_activeToolIds {db : PlatformTables} {toolIds : List String} {id : String} :
    id ∈ activeToolIds db toolIds
      ↔ id ∈ toolIds ∧ ∃ row ∈ db.tools, row.id = id ∧ toolRowActive db row = true := by
  simp only [activeToolIds, List.mem_map, List.mem_filter, decide_eq_true_eq]
  constructor
  · rintro ⟨row, ⟨hrow, hid, hactive⟩, rfl⟩
    exact ⟨hid, row, hrow, rfl, hactive⟩
  · rintro ⟨hid, row, hrow, rfl, hactive⟩
    exact ⟨row, ⟨hrow, hid, hactive⟩, rfl⟩

end Aegora
