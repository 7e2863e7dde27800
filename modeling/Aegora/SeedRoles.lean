import Aegora.AdminWrites
import Aegora.ConnectionVersions

/-!
# The roles of the platform

`POST /admin/seed-roles` writes the local tools, the four roles of the
platform and a few users. It asks nobody who calls, so it may come at any
time and any number of times: seeding twice is seeding once, and it leaves
alone the roles that administrators made and the users who have roles
(`seed_twice`). The roles it writes are system roles. No endpoint changes
one: the two that write roles stop at a role that is there already or is a
system role (`system_roles_kept`).

The tables `agents` and `agent_tools` are not among `ControlPlaneTables`.
Seeding also takes `search_faq` from every Agent, and the schema set-up makes
an unknown visibility of an Agent `private`.
-/

namespace Aegora

open Py Handlers

/-! ## Constants -/

/-- A definition of `LOCAL_TOOLS`. -/
def localTool (toolId name description : String) (idempotent : Bool) (inputSchema : Json)
    (action scopeDescription : String) : ToolDefinition where
  toolId := toolId
  source := "local"
  version := "local-v1"
  status := "active"
  manifestHash := ""
  fields :=
    [("name", .str name), ("description", .str description),
      ("runner_tool_id", .str ("local." ++ toolId)), ("runner_name", .null),
      ("mcp_connection_id", .null), ("read_only", .bool true),
      ("idempotent", .bool idempotent), ("parallel_safe", .bool true),
      ("requires_approval", .bool false), ("side_effect_level", .str "none"),
      ("data_sensitivity", .str "internal"), ("network_access", .str "none"),
      ("layer", .str "runtime"), ("category", .str "utility"), ("namespace", .str "platform"),
      ("group_id", .str "platform.local"), ("group_name", .str "平台本地工具"),
      ("timeout_ms", .int 8000), ("input_schema", inputSchema),
      ("scope_schema", .obj [("actions", .arr [.str action])]),
      ("scope_descriptions", .obj [("actions", .str scopeDescription)])]

/-- The schema of a tool with one text argument. -/
def textArgument (name : String) : Json :=
  .obj [("type", .str "object"), ("properties", .obj [(name, .obj [("type", .str "string")])]),
    ("required", .arr [.str name])]

/-- `LOCAL_TOOLS`. -/
def localTools : List ToolDefinition :=
  [localTool "calculator" "Calculator" "执行安全的基础算术表达式。" true
      (textArgument "expression") "calculate" "允许的计算动作。",
    localTool "time_now" "Current Time" "返回服务端当前时间。" false
      (.obj [("type", .str "object"), ("properties", .obj [])]) "read" "允许读取服务端当前时间。",
    localTool "text_stats" "Text Stats" "统计文本字符数和 token 数。" true
      (textArgument "text") "read" "允许读取并统计输入文本。"]

/-- An entry of `DEFAULT_ROLE_DEFINITIONS`. -/
structure RoleDefinition where
  id : String
  name : String
  description : String
  permissions : List (String × Scope)
deriving DecidableEq

/-- `DEFAULT_ROLE_DEFINITIONS`. -/
def defaultRoleDefinitions : List RoleDefinition :=
  [⟨platformAdminRole, "平台管理员", "管理角色、用户授权和平台配置。", []⟩,
    ⟨"office_tools", "办公工具角色", "可使用全部本地低风险办公工具。",
      [("calculator", [("actions", ["calculate"])]), ("text_stats", [("actions", ["read"])]),
        ("time_now", [("actions", ["read"])])]⟩,
    ⟨"analyst_tools", "分析工具角色", "可执行基础计算和文本统计。",
      [("calculator", [("actions", ["calculate"])]), ("text_stats", [("actions", ["read"])])]⟩,
    ⟨"time_tools", "时间查询角色", "仅可读取当前服务端时间。",
      [("time_now", [("actions", ["read"])])]⟩]

/-- `DEFAULT_DEMO_USERS`. -/
def defaultDemoUsers : List (String × List String) :=
  [("u_console", [platformAdminRole, "office_tools"]), ("u_analyst", ["analyst_tools"]),
    ("u_timekeeper", ["time_tools"]), ("u_guest", [])]

/-- The users that are seeded, each with the roles he gets if he has none. -/
def demoUsers (bootstrapAdminUsers : List String) : List (String × List String) :=
  bootstrapAdminUsers.foldl
    (fun users userId =>
      Dict.set users userId
        (sortedSet (platformAdminRole :: (Dict.get? users userId).getD [])))
    defaultDemoUsers

namespace RoleDefinition

variable (d : RoleDefinition)

/-- The row of `roles`. -/
def record : RoleRecord := ⟨d.id, d.name, d.description, "active", true⟩

/-- The rows of `role_tool_permissions`. -/
def permissionRows : List RolePermissionRow :=
  d.permissions.map fun kv => ⟨d.id, kv.1, kv.2.toJson⟩

end RoleDefinition

/-! ## `seed_roles` -/

/-- `remove_tool_everywhere`, without its `DELETE FROM agent_tools`. -/
def removeToolEverywhere (toolId : String) : ControlPlaneHandler Unit :=
  modify fun db => { db with
    rolePermissions := db.rolePermissions.filter fun row => row.toolId ≠ toolId
    tools := db.tools.filter fun tool => tool.toolId ≠ toolId }

/-- `remove_role_everywhere`. -/
def removeRoleEverywhere (roleId : String) : ControlPlaneHandler Unit :=
  modify fun db => { db with
    rolePermissions := db.rolePermissions.filter fun row => row.roleId ≠ roleId
    userRoles := db.userRoles.filter fun row => row.2 ≠ roleId
    roles := db.roles.filter fun row => row.id ≠ roleId }

/-- The row that `upsert_role` leaves; a system role stays one. -/
def upsertedRole (roles : List RoleRecord) (row : RoleRecord) : RoleRecord :=
  match Transactions.find RoleRecord.id roles row.id with
  | some old => { row with isSystem := old.isSystem || row.isSystem }
  | none => row

/-- `upsert_role`. -/
def upsertRole (row : RoleRecord) : ControlPlaneHandler Unit := do
  demand (validStatus row.status) (valueFailure "status 只能是 active 或 disabled")
  modify fun db => { db with
    roles := Transactions.put RoleRecord.id db.roles (upsertedRole db.roles row) }

/-- `get_user_roles`. -/
def ControlPlaneTables.getUserRoles (db : ControlPlaneTables) (userId : String) : List String :=
  (db.userRoles.filter fun row => row.1 = userId).map Prod.snd

/-- One pass of the loop over the roles. -/
def seedRole (d : RoleDefinition) : ControlPlaneHandler Unit := do
  upsertRole d.record
  replaceRoleToolPermissions d.id d.permissions

/-- One pass of the loop over the users. -/
def seedUser (user : String × List String) : ControlPlaneHandler Unit := do
  upsertUser user.1 "active"
  let db ← get
  if db.getUserRoles user.1 = [] then replaceUserRoles user.1 user.2 else pure ()

/-- `seed_roles`, with `bootstrap_admin_users` of the configuration. -/
def seedRoles (env : ControlPlaneEnv) (bootstrapAdminUsers : List String) :
    ControlPlaneHandler Unit := do
  ensureSchema
  removeToolEverywhere "search_faq"
  removeRoleEverywhere "faq_reader"
  localTools.forM fun tool => upsertTool false (env.hashed tool none)
  defaultRoleDefinitions.forM seedRole
  (demoUsers bootstrapAdminUsers).forM seedUser

/-! ## What seeding does to the tables -/

variable {env : ControlPlaneEnv} {admins : List String} {db u v : ControlPlaneTables}

/-- After `ensure_schema` and the two removals. -/
def ControlPlaneTables.cleared (db : ControlPlaneTables) : ControlPlaneTables :=
  { db with
    tools := (db.tools.map ToolDefinition.migrate).filter fun tool => tool.toolId ≠ "search_faq"
    roles := db.roles.filter fun row => row.id ≠ "faq_reader"
    rolePermissions := (db.rolePermissions.filter fun row => row.toolId ≠ "search_faq").filter
      fun row => row.roleId ≠ "faq_reader"
    userRoles := db.userRoles.filter fun row => row.2 ≠ "faq_reader" }

/-- The definitions that are written, with their hashes. -/
def seededTools (env : ControlPlaneEnv) : List ToolDefinition :=
  localTools.map fun tool => env.hashed tool none

/-- One pass of the loop over the tools. -/
def seededTool (db : ControlPlaneTables) (tool : ToolDefinition) : ControlPlaneTables :=
  { db with tools := Transactions.put ToolDefinition.toolId db.tools tool }

/-- One pass of the loop over the roles. -/
def seededRole (db : ControlPlaneTables) (d : RoleDefinition) : ControlPlaneTables :=
  { db with
    roles := Transactions.put RoleRecord.id db.roles d.record
    rolePermissions := (db.rolePermissions.filter fun row => row.roleId ≠ d.id)
      ++ d.permissionRows }

/-- One pass of the loop over the users. -/
def seededUser (db : ControlPlaneTables) (user : String × List String) : ControlPlaneTables :=
  let written := db.withStatus user.1 "active"
  if db.getUserRoles user.1 = [] then
    { written with
      userRoles := (db.userRoles.filter fun row => row.1 ≠ user.1)
        ++ user.2.map fun roleId => (user.1, roleId) }
  else written

/-- The tables that seeding leaves. -/
def seeded (env : ControlPlaneEnv) (admins : List String) (db : ControlPlaneTables) :
    ControlPlaneTables :=
  (demoUsers admins).foldl seededUser
    (defaultRoleDefinitions.foldl seededRole ((seededTools env).foldl seededTool db.cleared))

theorem upsertedRole_record (roles : List RoleRecord) (d : RoleDefinition) :
    upsertedRole roles d.record = d.record := by
  unfold upsertedRole
  split
  · simp only [RoleDefinition.record, Bool.or_true]
  · rfl

theorem returns_upsertTool {tool : ToolDefinition} (h : tool.mcpConnectionId = none)
    (s : ControlPlaneTables) : Returns (upsertTool false tool) s () (seededTool s tool) := by
  have hdemand : ∀ connectionId ∈ tool.mcpConnectionId,
      ((s.connection? connectionId).isSome : Prop) := by
    rw [h]
    simp
  unfold upsertTool
  refine (returns_get s).bind ?_
  rw [demand_of hdemand]
  refine (returns_pure () s).bind ⟨rfl, ?_⟩
  unfold seededTool
  rw [after_modify, upsertedTool_false]

theorem returns_seedRole (d : RoleDefinition) (s : ControlPlaneTables) :
    Returns (seedRole d) s () (seededRole s d) := by
  unfold seedRole upsertRole
  have hvalid : validStatus d.record.status = true := by
    simp only [RoleDefinition.record]
    decide
  rw [demand_of hvalid]
  refine Returns.bind ((returns_pure () s).bind (returns_modify _ s)) ⟨rfl, ?_⟩
  unfold replaceRoleToolPermissions seededRole
  rw [after_modify, upsertedRole_record]
  rfl

theorem returns_seedUser (user : String × List String) (s : ControlPlaneTables) :
    Returns (seedUser user) s () (seededUser s user) := by
  have hput : Returns (upsertUser user.1 "active") s () (s.withStatus user.1 "active") := by
    have hvalid : validStatus "active" = true := by decide
    unfold upsertUser
    rw [demand_of hvalid]
    exact (returns_pure () s).bind (returns_modify _ s)
  have hroles : (s.withStatus user.1 "active").getUserRoles user.1 = s.getUserRoles user.1 := rfl
  unfold seedUser seededUser
  refine hput.bind ((returns_get _).bind ?_)
  dsimp only
  rw [hroles]
  split
  · exact returns_modify _ _
  · exact returns_pure () _

theorem returns_clear (s : ControlPlaneTables) :
    Returns (do ensureSchema; removeToolEverywhere "search_faq"; removeRoleEverywhere "faq_reader"
      : ControlPlaneHandler Unit) s () s.cleared := by
  have hensure : Returns ensureSchema s () s.ensured := returns_modify _ s
  exact hensure.bind ((returns_modify _ _).bind (returns_modify _ _))

theorem returns_localTool {tool : ToolDefinition} (h : tool ∈ localTools)
    (s : ControlPlaneTables) :
    Returns (upsertTool false (env.hashed tool none)) s ()
      (seededTool s (env.hashed tool none)) := by
  refine returns_upsertTool ?_ s
  have hcolumn : tool.mcpConnectionId = none := by
    simp only [localTools, List.mem_cons, List.not_mem_nil, or_false] at h
    rcases h with rfl | rfl | rfl <;> rfl
  unfold ControlPlaneEnv.hashed
  split <;> exact hcolumn

theorem returns_seedRoles (s : ControlPlaneTables) :
    Returns (seedRoles env admins) s () (seeded env admins s) := by
  have htools : Returns (localTools.forM fun tool => upsertTool false (env.hashed tool none))
      s.cleared () ((seededTools env).foldl seededTool s.cleared) := by
    unfold seededTools
    rw [List.foldl_map]
    exact returns_forM (fun tool htool t => returns_localTool htool t) s.cleared
  have hroles : ∀ t, Returns (defaultRoleDefinitions.forM seedRole) t ()
      (defaultRoleDefinitions.foldl seededRole t) :=
    returns_forM fun d _ => returns_seedRole d
  have husers : ∀ t, Returns ((demoUsers admins).forM seedUser) t ()
      ((demoUsers admins).foldl seededUser t) :=
    returns_forM fun user _ => returns_seedUser user
  have hsplit : seedRoles env admins
      = ((do ensureSchema; removeToolEverywhere "search_faq"; removeRoleEverywhere "faq_reader"
          : ControlPlaneHandler Unit) >>= fun _ =>
        (localTools.forM fun tool => upsertTool false (env.hashed tool none)) >>= fun _ =>
        defaultRoleDefinitions.forM seedRole >>= fun _ => (demoUsers admins).forM seedUser) := by
    unfold seedRoles
    simp only [bind_assoc]
  rw [hsplit]
  exact (returns_clear s).bind (htools.bind ((hroles _).bind (husers _)))

/-! ## Seeding again -/

theorem ToolDefinition.migratedSource_migrate (tool : ToolDefinition) :
    ({ tool with source := tool.migratedSource } : ToolDefinition).migratedSource
      = tool.migratedSource := by
  show (if tool.migratedSource = "manual" then "http"
    else if tool.migratedSource = "runner" then "workflow_agent"
    else if tool.migratedSource ∉ ["mcp", "http", "workflow", "workflow_agent", "local"] then "http"
    else tool.migratedSource) = tool.migratedSource
  have hform : tool.migratedSource ∈ ["mcp", "http", "workflow", "workflow_agent", "local"] := by
    unfold migratedSource
    split
    · decide
    · split
      · decide
      · split
        · decide
        · rename_i hsource
          exact not_not.mp hsource
  simp only [List.mem_cons, List.not_mem_nil, or_false] at hform
  rcases hform with h | h | h | h | h <;> rw [h] <;> decide

/-- `ensure_schema` has nothing to do the second time. -/
theorem ToolDefinition.migrate_migrate (tool : ToolDefinition) :
    tool.migrate.migrate = tool.migrate := by
  have hcolumns : ∀ kv ∈ localColumns, ∀ fields, Dict.get (Dict.merge fields localColumns) kv.1
      = kv.2 := by
    intro kv hkv fields
    rw [Dict.get, Dict.get?_merge_of_mem _ (by decide) hkv]
    rfl
  conv_rhs => unfold migrate
  by_cases hmissing : tool.toolId ∈ ["calculator", "time_now", "text_stats"]
      ∧ tool.migratedSource = "local"
      ∧ ∃ kv ∈ localColumns, tool.column kv.1 ≠ kv.2
  · have hform : tool.migrate = { tool with
        source := tool.migratedSource
        fields := Dict.merge tool.fields localColumns } := if_pos hmissing
    rw [hform, if_pos (by exact hmissing)]
    unfold migrate
    rw [if_neg]
    · show ({ tool with
        source := ({ tool with source := tool.migratedSource } : ToolDefinition).migratedSource
        fields := Dict.merge tool.fields localColumns } : ToolDefinition) = _
      rw [tool.migratedSource_migrate]
    · rintro ⟨-, -, kv, hkv, hne⟩
      exact hne (hcolumns kv hkv _)
  · have hform : tool.migrate = { tool with source := tool.migratedSource } := if_neg hmissing
    rw [hform, if_neg (by exact hmissing)]
    unfold migrate
    rw [tool.migratedSource_migrate]
    exact if_neg hmissing

theorem foldl_seededTool (tools : List ToolDefinition) :
    tools.foldl seededTool db
      = { db with tools := Transactions.putAll ToolDefinition.toolId db.tools tools } := by
  induction tools generalizing db with
  | nil => rfl
  | cons tool tools ih =>
      rw [List.foldl_cons, ih]
      rfl

/-- The permissions of the roles in the loop are replaced, all others stay in place. -/
theorem foldl_seededRole {ds : List RoleDefinition} (hids : (ds.map RoleDefinition.id).Nodup) :
    ds.foldl seededRole db
      = { db with
          roles := Transactions.putAll RoleRecord.id db.roles (ds.map RoleDefinition.record)
          rolePermissions := (db.rolePermissions.filter fun row =>
              row.roleId ∉ ds.map RoleDefinition.id)
            ++ ds.flatMap RoleDefinition.permissionRows } := by
  induction ds generalizing db with
  | nil =>
      show db = { db with rolePermissions := (db.rolePermissions.filter _) ++ [] }
      rw [List.append_nil, List.filter_eq_self.mpr (by simp)]
  | cons d ds ih =>
      rw [List.map_cons, List.nodup_cons] at hids
      have hrest : ∀ row ∈ d.permissionRows, row.roleId = d.id := by
        intro row hrow
        obtain ⟨kv, -, rfl⟩ := List.mem_map.mp hrow
        rfl
      rw [List.foldl_cons, ih hids.2]
      unfold seededRole
      dsimp only
      congr 1
      rw [List.filter_append, List.filter_filter, List.flatMap_cons, ← List.append_assoc]
      congr 1
      congr 1
      · refine List.filter_congr fun row _ => ?_
        simp only [List.map_cons, List.mem_cons, not_or, Bool.decide_and, ne_eq]
        exact Bool.and_comm _ _
      · refine List.filter_eq_self.mpr fun row hrow => ?_
        rw [hrest row hrow]
        simpa using hids.1

/-- The pass for a user has nothing to do. -/
def UserSeeded (db : ControlPlaneTables) (user : String × List String) : Prop :=
  Transactions.Settled UserRow.id db.users ⟨user.1, "active"⟩
    ∧ (user.2 = [] ∨ db.getUserRoles user.1 ≠ [])

theorem getUserRoles_seededUser (user : String × List String) (userId : String) :
    (seededUser db user).getUserRoles userId
      = if userId = user.1 ∧ db.getUserRoles userId = [] then user.2
        else db.getUserRoles userId := by
  unfold seededUser
  by_cases hnone : db.getUserRoles user.1 = []
  · rw [if_pos hnone]
    unfold ControlPlaneTables.getUserRoles
    dsimp only
    rw [List.filter_append, List.filter_filter, List.map_append, List.filter_map, List.map_map]
    by_cases huser : userId = user.1
    · subst huser
      rw [if_pos ⟨rfl, hnone⟩, List.filter_eq_nil_iff.mpr (by simp), List.filter_eq_self.mpr]
      · exact (List.map_congr_left fun _ _ => rfl).trans (List.map_id _)
      · intro roleId _
        exact decide_eq_true rfl
    · have hothers : (user.2.filter ((fun row : String × String => decide (row.1 = userId)) ∘
          fun roleId => (user.1, roleId))) = [] :=
        List.filter_eq_nil_iff.mpr fun _ _ => by simpa using fun h => huser h.symm
      rw [if_neg fun h => huser h.1, hothers, List.map_nil, List.append_nil]
      congr 1
      refine List.filter_congr fun row _ => ?_
      by_cases hrow : row.1 = userId
      · simp [hrow, huser]
      · simp [hrow]
  · rw [if_neg hnone, if_neg]
    · rfl
    · rintro ⟨rfl, h⟩
      exact hnone h

theorem users_seededUser (user : String × List String) :
    (seededUser db user).users = Transactions.put UserRow.id db.users ⟨user.1, "active"⟩ := by
  unfold seededUser
  split <;> rfl

theorem userSeeded_seededUser (user : String × List String) :
    UserSeeded (seededUser db user) user := by
  refine ⟨?_, ?_⟩
  · rw [users_seededUser]
    exact Transactions.settled_put
  · rw [getUserRoles_seededUser]
    by_cases hroles : user.2 = []
    · exact .inl hroles
    · refine .inr ?_
      split
      · exact hroles
      · rename_i h
        exact fun hnone => h ⟨rfl, hnone⟩

/-- The passes for other users leave it so. -/
theorem UserSeeded.next {user : String × List String} (h : UserSeeded db user)
    (other : String × List String) : UserSeeded (seededUser db other) user := by
  refine ⟨?_, ?_⟩
  · rw [users_seededUser]
    by_cases hsame : other.1 = user.1
    · rw [hsame]
      exact Transactions.settled_put
    · exact h.1.put_of_ne hsame
  · refine h.2.imp_right fun hroles => ?_
    rw [getUserRoles_seededUser, if_neg fun hnone => hroles hnone.2]
    exact hroles

theorem userSeeded_foldl {users : List (String × List String)} {user : String × List String}
    (huser : user ∈ users) : UserSeeded (users.foldl seededUser db) user := by
  induction users generalizing db with
  | nil => cases huser
  | cons first users ih =>
      rw [List.foldl_cons]
      rcases List.mem_cons.mp huser with rfl | hlater
      · have hkeep : ∀ t, UserSeeded t user → UserSeeded (users.foldl seededUser t) user := by
          clear ih huser
          induction users with
          | nil => exact fun t h => h
          | cons other users ih => exact fun t h => ih _ (h.next other)
        exact hkeep _ (userSeeded_seededUser user)
      · exact ih hlater

theorem UserSeeded.seededUser_eq {user : String × List String} (h : UserSeeded db user) :
    seededUser db user = db := by
  have hput : db.withStatus user.1 "active" = db := by
    show { db with users := Transactions.put UserRow.id db.users ⟨user.1, "active"⟩ } = db
    rw [h.1.put_eq]
  unfold seededUser
  rw [hput]
  split
  · rename_i hnone
    have hempty : user.2 = [] := h.2.resolve_right fun hroles => hroles hnone
    rw [hempty, List.map_nil, List.append_nil, List.filter_eq_self.mpr]
    intro row hrow
    refine decide_eq_true fun hsame => ?_
    have hmem : row.2 ∈ db.getUserRoles user.1 :=
      List.mem_map.mpr ⟨row, List.mem_filter.mpr ⟨hrow, decide_eq_true hsame⟩, rfl⟩
    rw [hnone] at hmem
    cases hmem
  · rfl

theorem foldl_seededUser_eq {users : List (String × List String)}
    (h : ∀ user ∈ users, UserSeeded db user) : users.foldl seededUser db = db := by
  induction users with
  | nil => rfl
  | cons user users ih =>
      rw [List.forall_mem_cons] at h
      rw [List.foldl_cons, h.1.seededUser_eq]
      exact ih h.2

/-- Only users and their roles are written. -/
theorem sameBut_foldl_seededUser (users : List (String × List String)) :
    SameBut [.users, .userRoles] db (users.foldl seededUser db) := by
  induction users generalizing db with
  | nil => exact .refl db
  | cons user users ih =>
      refine SameBut.trans (v := seededUser db user) ?_ ih
      unfold seededUser
      split
      · exact { SameBut.refl db with
          users := fun h => absurd h (by decide)
          userRoles := fun h => absurd h (by decide) }
      · exact { SameBut.refl db with users := fun h => absurd h (by decide) }

theorem mem_userRoles_foldl_seededUser {users : List (String × List String)}
    {row : String × String} (h : row ∈ (users.foldl seededUser db).userRoles) :
    row ∈ db.userRoles ∨ ∃ user ∈ users, row.2 ∈ user.2 := by
  induction users generalizing db with
  | nil => exact .inl h
  | cons user users ih =>
      rcases ih h with hrow | ⟨other, hother, hrole⟩
      · unfold seededUser at hrow
        split at hrow
        · rcases List.mem_append.mp hrow with hold | hnew
          · exact .inl (List.mem_filter.mp hold).1
          · obtain ⟨roleId, hroleId, rfl⟩ := List.mem_map.mp hnew
            exact .inr ⟨user, List.mem_cons_self, hroleId⟩
        · exact .inl hrow
      · exact .inr ⟨other, List.mem_cons_of_mem _ hother, hrole⟩

/-- The seeded users get default roles only. -/
theorem role_of_demoUser {user : String × List String} (h : user ∈ demoUsers admins) :
    ∀ roleId ∈ user.2, roleId ∈ defaultRoleDefinitions.map RoleDefinition.id := by
  unfold demoUsers at h
  have hstart : ∀ user ∈ defaultDemoUsers, ∀ roleId ∈ user.2,
      roleId ∈ defaultRoleDefinitions.map RoleDefinition.id := by decide
  revert hstart h
  generalize defaultDemoUsers = users
  induction admins generalizing users with
  | nil => exact fun h hstart => hstart user h
  | cons userId admins ih =>
      intro h hstart
      refine ih _ h fun other hother roleId hrole => ?_
      rcases Dict.mem_set hother with rfl | hold
      · rcases List.mem_cons.mp (mem_sortedSet.mp hrole) with rfl | hdefault
        · decide
        · cases hfound : Dict.get? users userId with
          | none =>
              rw [hfound] at hdefault
              cases hdefault
          | some roles =>
              rw [hfound] at hdefault
              exact hstart (userId, roles) (Dict.mem_of_get? hfound) roleId hdefault
      · exact hstart other hold roleId hrole

/-- The tables that seeding leaves, one by one. -/
theorem seeded_eq :
    seeded env admins db = (demoUsers admins).foldl seededUser { db.cleared with
      tools := Transactions.putAll ToolDefinition.toolId db.cleared.tools (seededTools env)
      roles := Transactions.putAll RoleRecord.id db.cleared.roles
        (defaultRoleDefinitions.map RoleDefinition.record)
      rolePermissions := (db.cleared.rolePermissions.filter fun row =>
          row.roleId ∉ defaultRoleDefinitions.map RoleDefinition.id)
        ++ defaultRoleDefinitions.flatMap RoleDefinition.permissionRows } := by
  unfold seeded
  rw [foldl_seededTool, foldl_seededRole (by decide)]

section Tables

theorem tools_seeded : (seeded env admins db).tools
    = Transactions.putAll ToolDefinition.toolId db.cleared.tools (seededTools env) := by
  rw [seeded_eq]
  exact (sameBut_foldl_seededUser _).tools (by decide)

theorem roles_seeded : (seeded env admins db).roles
    = Transactions.putAll RoleRecord.id db.cleared.roles
      (defaultRoleDefinitions.map RoleDefinition.record) := by
  rw [seeded_eq]
  exact (sameBut_foldl_seededUser _).roles (by decide)

theorem rolePermissions_seeded : (seeded env admins db).rolePermissions
    = (db.cleared.rolePermissions.filter fun row =>
        row.roleId ∉ defaultRoleDefinitions.map RoleDefinition.id)
      ++ defaultRoleDefinitions.flatMap RoleDefinition.permissionRows := by
  rw [seeded_eq]
  exact (sameBut_foldl_seededUser _).rolePermissions (by decide)

theorem toolId_hashed (tool : ToolDefinition) : (env.hashed tool none).toolId = tool.toolId := by
  unfold ControlPlaneEnv.hashed
  split <;> rfl

/-- The definitions of the local tools are in the form that `ensure_schema` brings them into. -/
theorem migrate_seededTool {tool : ToolDefinition} (h : tool ∈ seededTools env) :
    tool.migrate = tool ∧ tool.toolId ≠ "search_faq" := by
  obtain ⟨first, hfirst, rfl⟩ := List.mem_map.mp h
  rw [toolId_hashed]
  unfold ControlPlaneEnv.hashed
  simp only [localTools, List.mem_cons, List.not_mem_nil, or_false] at hfirst
  refine ⟨?_, ?_⟩
  · rcases hfirst with rfl | rfl | rfl <;> split <;> rfl
  · rcases hfirst with rfl | rfl | rfl <;> decide

theorem toolIds_seededTools :
    (seededTools env).map ToolDefinition.toolId = localTools.map ToolDefinition.toolId := by
  unfold seededTools
  rw [List.map_map]
  exact List.map_congr_left fun tool _ => toolId_hashed tool

theorem nodup_seededTools : ((seededTools env).map ToolDefinition.toolId).Nodup := by
  rw [toolIds_seededTools]
  decide

end Tables

/-- After seeding there is nothing to remove and nothing to bring into form. -/
theorem cleared_seeded : (seeded env admins db).cleared = seeded env admins db := by
  have htools : ((seeded env admins db).tools.map ToolDefinition.migrate).filter
      (fun tool => tool.toolId ≠ "search_faq") = (seeded env admins db).tools := by
    have hrows : ∀ tool ∈ (seeded env admins db).tools,
        tool.migrate = tool ∧ tool.toolId ≠ "search_faq" := by
      intro tool htool
      rw [tools_seeded, Transactions.mem_putAll nodup_seededTools] at htool
      rcases htool with hnew | ⟨hold, -⟩
      · exact migrate_seededTool hnew
      · obtain ⟨hmigrated, hid⟩ := List.mem_filter.mp hold
        obtain ⟨first, -, rfl⟩ := List.mem_map.mp hmigrated
        exact ⟨first.migrate_migrate, of_decide_eq_true hid⟩
    rw [Transactions.map_eq_self.mpr fun tool htool => (hrows tool htool).1]
    exact List.filter_eq_self.mpr fun tool htool => decide_eq_true (hrows tool htool).2
  have hroles : (seeded env admins db).roles.filter (fun row => row.id ≠ "faq_reader")
      = (seeded env admins db).roles := by
    refine List.filter_eq_self.mpr fun row hrow => ?_
    rw [roles_seeded, Transactions.mem_putAll (by decide)] at hrow
    rcases hrow with hnew | ⟨hold, -⟩
    · revert row hnew
      decide
    · exact (List.mem_filter.mp hold).2
  have hpermissions : ((seeded env admins db).rolePermissions.filter
        fun row => row.toolId ≠ "search_faq").filter (fun row => row.roleId ≠ "faq_reader")
      = (seeded env admins db).rolePermissions := by
    rw [List.filter_filter]
    refine List.filter_eq_self.mpr fun row hrow => ?_
    rw [rolePermissions_seeded] at hrow
    rcases List.mem_append.mp hrow with hold | hnew
    · have hkept := (List.mem_filter.mp hold).1
      unfold ControlPlaneTables.cleared at hkept
      rw [List.filter_filter] at hkept
      exact (List.mem_filter.mp hkept).2
    · obtain ⟨d, hd, hrow⟩ := List.mem_flatMap.mp hnew
      have hall : ∀ d ∈ defaultRoleDefinitions, d.id ≠ "faq_reader"
          ∧ ∀ kv ∈ d.permissions, kv.1 ≠ "search_faq" := by decide
      obtain ⟨kv, hkv, rfl⟩ := List.mem_map.mp hrow
      simp only [Bool.and_eq_true, decide_eq_true_eq]
      exact ⟨(hall d hd).1, (hall d hd).2 kv hkv⟩
  have huserRoles : (seeded env admins db).userRoles.filter (fun row => row.2 ≠ "faq_reader")
      = (seeded env admins db).userRoles := by
    refine List.filter_eq_self.mpr fun row hrow => decide_eq_true fun hrole => ?_
    rw [seeded_eq] at hrow
    rcases mem_userRoles_foldl_seededUser hrow with hold | ⟨user, huser, hdefault⟩
    · exact of_decide_eq_true (List.mem_filter.mp hold).2 hrole
    · have hid := role_of_demoUser huser _ hdefault
      rw [hrole] at hid
      revert hid
      decide
  unfold ControlPlaneTables.cleared
  rw [htools, hroles, hpermissions, huserRoles]

theorem seeded_seeded : seeded env admins (seeded env admins db) = seeded env admins db := by
  have htools : ∀ tool ∈ seededTools env,
      Transactions.Settled ToolDefinition.toolId (seeded env admins db).tools tool := by
    rw [tools_seeded]
    exact fun tool => Transactions.settled_putAll nodup_seededTools
  have hroles : ∀ row ∈ defaultRoleDefinitions.map RoleDefinition.record,
      Transactions.Settled RoleRecord.id (seeded env admins db).roles row := by
    rw [roles_seeded]
    exact fun row => Transactions.settled_putAll (by decide)
  have hpermissions : ((seeded env admins db).rolePermissions.filter fun row =>
        row.roleId ∉ defaultRoleDefinitions.map RoleDefinition.id)
      ++ defaultRoleDefinitions.flatMap RoleDefinition.permissionRows
      = (seeded env admins db).rolePermissions := by
    have hnone : (defaultRoleDefinitions.flatMap RoleDefinition.permissionRows).filter (fun row =>
        row.roleId ∉ defaultRoleDefinitions.map RoleDefinition.id) = [] := by
      rw [List.filter_eq_nil_iff]
      intro row hrow
      obtain ⟨d, hd, hrow⟩ := List.mem_flatMap.mp hrow
      obtain ⟨kv, -, rfl⟩ := List.mem_map.mp hrow
      simpa using ⟨d, hd, rfl⟩
    rw [rolePermissions_seeded, List.filter_append, List.filter_filter, hnone, List.append_nil]
    simp only [Bool.and_self]
  have husers : ∀ user ∈ demoUsers admins, UserSeeded (seeded env admins db) user :=
    fun user huser => userSeeded_foldl huser
  conv_lhs => rw [seeded_eq, cleared_seeded, Transactions.Settled.putAll_eq htools,
    Transactions.Settled.putAll_eq hroles, hpermissions]
  exact foldl_seededUser_eq husers

/-- What seeding leaves alone: the tools, roles and grants that it does not name itself, the
roles of users who have one, and `others`, the connections, workflow versions, memory policies
and sessions. -/
structure SeedLeaves (admins : List String) (u v : ControlPlaneTables) : Prop where
  tools : ∀ tool, tool.toolId ∉ localTools.map ToolDefinition.toolId →
    tool.toolId ≠ "search_faq" → (tool ∈ v.tools ↔ tool ∈ u.tools.map ToolDefinition.migrate)
  roles : ∀ row, row.id ∉ defaultRoleDefinitions.map RoleDefinition.id →
    row.id ≠ "faq_reader" → (row ∈ v.roles ↔ row ∈ u.roles)
  rolePermissions : ∀ row, row.roleId ∉ defaultRoleDefinitions.map RoleDefinition.id →
    row.roleId ≠ "faq_reader" → row.toolId ≠ "search_faq" →
      (row ∈ v.rolePermissions ↔ row ∈ u.rolePermissions)
  userRoles : ∀ userId, userId ∉ (demoUsers admins).map Prod.fst
      ∨ (∃ roleId ∈ u.getUserRoles userId, roleId ≠ "faq_reader") →
    v.getUserRoles userId = (u.getUserRoles userId).filter fun roleId => roleId ≠ "faq_reader"
  users : ∀ userId, userId ∉ (demoUsers admins).map Prod.fst →
    v.userStatus userId = u.userStatus userId
  others : SameBut [.tools, .roles, .rolePermissions, .userRoles, .users] u v

theorem getUserRoles_cleared (userId : String) : db.cleared.getUserRoles userId
    = (db.getUserRoles userId).filter fun roleId => roleId ≠ "faq_reader" := by
  show ((db.userRoles.filter fun row => row.2 ≠ "faq_reader").filter
    fun row => row.1 = userId).map Prod.snd = _
  unfold ControlPlaneTables.getUserRoles
  rw [List.filter_map, List.filter_filter, List.filter_filter]
  congr 1
  exact List.filter_congr fun row _ => Bool.and_comm _ _

/-- A user who is not seeded, or has a role, keeps the roles that he has. -/
theorem getUserRoles_foldl_seededUser {users : List (String × List String)} {userId : String}
    (h : userId ∉ users.map Prod.fst ∨ db.getUserRoles userId ≠ []) :
    (users.foldl seededUser db).getUserRoles userId = db.getUserRoles userId := by
  induction users generalizing db with
  | nil => rfl
  | cons user users ih =>
      have hfirst : (seededUser db user).getUserRoles userId = db.getUserRoles userId := by
        rw [getUserRoles_seededUser, if_neg]
        rintro ⟨rfl, hnone⟩
        exact h.elim (fun hnot => hnot List.mem_cons_self) fun hroles => hroles hnone
      rw [List.foldl_cons, ih, hfirst]
      rw [hfirst]
      exact h.imp_left fun hnot hmem => hnot (List.mem_cons_of_mem _ hmem)

theorem userStatus_foldl_seededUser {users : List (String × List String)} {userId : String}
    (h : userId ∉ users.map Prod.fst) :
    (users.foldl seededUser db).userStatus userId = db.userStatus userId := by
  induction users generalizing db with
  | nil => rfl
  | cons user users ih =>
      rw [List.map_cons, List.mem_cons, not_or] at h
      rw [List.foldl_cons, ih h.2]
      unfold ControlPlaneTables.userStatus
      rw [users_seededUser, Transactions.find_put, if_neg h.1]

theorem seedLeaves_seeded : SeedLeaves admins db (seeded env admins db) where
  tools tool hid hfaq := by
    rw [tools_seeded, Transactions.mem_putAll nodup_seededTools, toolIds_seededTools]
    constructor
    · rintro (hnew | ⟨hold, -⟩)
      · rw [← @toolIds_seededTools env] at hid
        exact absurd (List.mem_map_of_mem hnew) hid
      · exact (List.mem_filter.mp hold).1
    · intro hold
      exact .inr ⟨List.mem_filter.mpr ⟨hold, decide_eq_true hfaq⟩, hid⟩
  roles row hid hfaq := by
    rw [roles_seeded, Transactions.mem_putAll (by decide), List.map_map]
    constructor
    · rintro (hnew | ⟨hold, -⟩)
      · obtain ⟨d, hd, rfl⟩ := List.mem_map.mp hnew
        exact absurd (List.mem_map.mpr ⟨d, hd, rfl⟩) hid
      · exact (List.mem_filter.mp hold).1
    · intro hold
      exact .inr ⟨List.mem_filter.mpr ⟨hold, decide_eq_true hfaq⟩, hid⟩
  rolePermissions row hid hfaq htool := by
    rw [rolePermissions_seeded, List.mem_append, List.mem_filter]
    constructor
    · rintro (⟨hold, -⟩ | hnew)
      · exact (List.mem_filter.mp (List.mem_filter.mp hold).1).1
      · obtain ⟨d, hd, hrow⟩ := List.mem_flatMap.mp hnew
        obtain ⟨kv, -, rfl⟩ := List.mem_map.mp hrow
        exact absurd (List.mem_map.mpr ⟨d, hd, rfl⟩) hid
    · intro hold
      refine .inl ⟨List.mem_filter.mpr ⟨List.mem_filter.mpr ⟨hold, ?_⟩, ?_⟩, decide_eq_true hid⟩
      · exact decide_eq_true htool
      · exact decide_eq_true hfaq
  userRoles userId h := by
    rw [seeded_eq]
    refine (getUserRoles_foldl_seededUser ?_).trans (getUserRoles_cleared userId)
    refine h.imp_right fun ⟨roleId, hrole, hfaq⟩ hnone => ?_
    have hmem : roleId ∈ db.cleared.getUserRoles userId := by
      rw [getUserRoles_cleared]
      exact List.mem_filter.mpr ⟨hrole, decide_eq_true hfaq⟩
    rw [show db.cleared.getUserRoles userId = [] from hnone] at hmem
    cases hmem
  users userId h := by
    rw [seeded_eq]
    exact userStatus_foldl_seededUser h
  others := by
    rw [seeded_eq]
    have husers := @sameBut_foldl_seededUser { db.cleared with
      tools := Transactions.putAll ToolDefinition.toolId db.cleared.tools (seededTools env)
      roles := Transactions.putAll RoleRecord.id db.cleared.roles
        (defaultRoleDefinitions.map RoleDefinition.record)
      rolePermissions := (db.cleared.rolePermissions.filter fun row =>
          row.roleId ∉ defaultRoleDefinitions.map RoleDefinition.id)
        ++ defaultRoleDefinitions.flatMap RoleDefinition.permissionRows } (demoUsers admins)
    exact
      { tools := fun h => absurd (by decide) h
        connections := fun _ => husers.connections (by decide)
        workflowVersions := fun _ => husers.workflowVersions (by decide)
        roles := fun h => absurd (by decide) h
        rolePermissions := fun h => absurd (by decide) h
        userRoles := fun h => absurd (by decide) h
        memoryPolicies := fun _ => husers.memoryPolicies (by decide)
        users := fun h => absurd (by decide) h
        sessions := fun _ => husers.sessions (by decide) }

/-- From any tables, seeding succeeds, a second time changes nothing, and it leaves alone what
the administrators made: their tools and roles with the permissions, and the roles of users who
have one. Every write puts constants under fixed keys, so the second one meets its own rows. -/
theorem seed_twice (env : ControlPlaneEnv) (admins : List String) (db : ControlPlaneTables) :
    Returns (seedRoles env admins) db () (seeded env admins db)
      ∧ Returns (seedRoles env admins) (seeded env admins db) () (seeded env admins db)
      ∧ SeedLeaves admins db (seeded env admins db) := by
  refine ⟨returns_seedRoles db, ?_, seedLeaves_seeded⟩
  have hagain := @returns_seedRoles env admins (seeded env admins db)
  rwa [seeded_seeded] at hagain

/-! ## System roles -/

/-- The roles `ds` are as they were seeded, and no role but the seeded ones is a system role. -/
structure SystemRoles (ds : List RoleDefinition) (db : ControlPlaneTables) : Prop where
  rows : ∀ d ∈ ds, Transactions.Settled RoleRecord.id db.roles d.record
  permissions : ∀ d ∈ ds,
    (db.rolePermissions.filter fun row => row.roleId = d.id) = d.permissionRows
  only : ∀ row ∈ db.roles, row.isSystem = true →
    row ∈ defaultRoleDefinitions.map RoleDefinition.record

section SystemRoles

variable {ds : List RoleDefinition}

theorem systemRoles_of_sameBut {written : List Table} (h : SameBut written u v)
    (hroles : Table.roles ∉ written) (hpermissions : Table.rolePermissions ∉ written)
    (hu : SystemRoles ds u) : SystemRoles ds v where
  rows := by
    rw [h.roles hroles]
    exact hu.rows
  permissions := by
    rw [h.rolePermissions hpermissions]
    exact hu.permissions
  only := by
    rw [h.roles hroles]
    exact hu.only

theorem systemRoles_frame (ds : List RoleDefinition) :
    Frame (fun _ => True) fun u v => SystemRoles ds u → SystemRoles ds v where
  refl _ h := h
  trans _ _ _ h h' hu := h' (h hu)
  inv _ _ _ _ := trivial

/-- The program keeps the seeded roles. -/
abbrev KeepsRoles {α : Type} (ds : List RoleDefinition) (m : ControlPlaneHandler α) : Prop :=
  Handlers.Keeps (fun _ => True) (fun u v => SystemRoles ds u → SystemRoles ds v) m

theorem WritesOnly.keepsRoles {written : List Table} {α : Type} {m : ControlPlaneHandler α}
    (h : WritesOnly written m) (hroles : Table.roles ∉ written)
    (hpermissions : Table.rolePermissions ∉ written) : KeepsRoles ds m :=
  fun db _ hdb => systemRoles_of_sameBut (h db trivial) hroles hpermissions hdb

/-- A role that is there is no new role. -/
theorem SystemRoles.not_mem_ids (hdb : SystemRoles ds db) {roleId : String}
    (h : (db.role? roleId).isNone) : roleId ∉ ds.map RoleDefinition.id := by
  intro hmem
  obtain ⟨d, hd, rfl⟩ := List.mem_map.mp hmem
  rw [Option.isNone_iff_eq_none] at h
  exact Transactions.find_eq_none.mp h d.record (hdb.rows d hd).1 rfl

theorem keepsRoles_createRole (roleId name description status : String) :
    KeepsRoles ds (createRole roleId name description status) := by
  intro db _ hdb
  unfold createRole
  rw [after_bind_ok (outcome_get db), after_get]
  by_cases hnew : (db.role? roleId).isNone
  · rw [demand_of hnew, after_bind_ok (outcome_pure () db), after_pure, after_modify]
    refine { rows := fun d hd => ?_, permissions := hdb.permissions, only := fun row hrow => ?_ }
    · obtain ⟨hrow, hall⟩ := hdb.rows d hd
      refine ⟨List.mem_append_left _ hrow, fun other hother hkey => ?_⟩
      rcases List.mem_append.mp hother with hold | hadded
      · exact hall other hold hkey
      · obtain rfl := List.mem_singleton.mp hadded
        exact absurd (List.mem_map.mpr ⟨d, hd, hkey.symm⟩) (hdb.not_mem_ids hnew)
    · rcases List.mem_append.mp hrow with hold | hadded
      · exact hdb.only row hold
      · obtain rfl := List.mem_singleton.mp hadded
        exact fun hsystem => nomatch hsystem
  · rw [after_bind_of_stops (stops_demand hnew _), after_demand]
    exact hdb

theorem keepsRoles_updateRole (roleId name description status : String) :
    KeepsRoles ds (updateRole roleId name description status) := by
  have hrow : ∀ row : RoleRecord, row.isSystem = true →
      (if row.editable roleId then
        { row with name := name, description := description, status := status } else row)
      = row := by
    intro row hsystem
    rw [if_neg]
    simp [RoleRecord.editable, hsystem]
  have hback : ∀ row : RoleRecord, (if row.editable roleId then
        { row with name := name, description := description, status := status } else row).isSystem
      = row.isSystem ∧ (if row.editable roleId then
        { row with name := name, description := description, status := status } else row).id
      = row.id := by
    intro row
    split <;> exact ⟨rfl, rfl⟩
  refine keeps_bind (systemRoles_frame ds) (keeps_get (systemRoles_frame ds)) fun read => ?_
  refine keeps_bind (systemRoles_frame ds) ?_ fun _ => keeps_pure (systemRoles_frame ds) _
  intro db _ hdb
  refine { rows := fun d hd => ?_, permissions := hdb.permissions, only := fun row hnew => ?_ }
  · obtain ⟨hmem, hall⟩ := hdb.rows d hd
    refine ⟨List.mem_map.mpr ⟨d.record, hmem, hrow _ rfl⟩, fun other hother hkey => ?_⟩
    obtain ⟨old, hold, rfl⟩ := List.mem_map.mp hother
    obtain rfl := hall old hold ((hback old).2.symm.trans hkey)
    exact hrow _ rfl
  · obtain ⟨old, hold, rfl⟩ := List.mem_map.mp hnew
    intro hsystem
    have hwas := (hback old).1.symm.trans hsystem
    rw [hrow old hwas]
    exact hdb.only old hold hwas

theorem keepsRoles_replaceRoleToolPermissions {roleId : String}
    (hid : roleId ∉ ds.map RoleDefinition.id) (permissions : List (String × Scope)) :
    KeepsRoles ds (replaceRoleToolPermissions roleId permissions) := by
  intro db _ hdb
  refine { rows := hdb.rows, permissions := fun d hd => ?_, only := hdb.only }
  have hne : d.id ≠ roleId := fun h => hid (List.mem_map.mpr ⟨d, hd, h⟩)
  rw [← hdb.permissions d hd]
  show ((db.rolePermissions.filter fun row => row.roleId ≠ roleId) ++ _).filter _ = _
  have hnone : (permissions.map fun kv => (⟨roleId, kv.1, kv.2.toJson⟩ : RolePermissionRow)).filter
      (fun row => row.roleId = d.id) = [] := by
    rw [List.filter_eq_nil_iff]
    intro row hrow
    obtain ⟨kv, -, rfl⟩ := List.mem_map.mp hrow
    simpa using hne.symm
  rw [List.filter_append, hnone, List.append_nil, List.filter_filter]
  refine List.filter_congr fun row _ => ?_
  by_cases hrow : row.roleId = d.id
  · simp [hrow, hne]
  · simp [hrow]

theorem keepsRoles_asNamedPlatformAdmin {env : ControlPlaneEnv} {caller : Caller}
    {claimedActorId : String} {body : String → ControlPlaneHandler Unit}
    (hbody : ∀ actorId, KeepsRoles ds (body actorId)) :
    KeepsRoles ds (asNamedPlatformAdmin env caller claimedActorId body) := by
  have hframe := systemRoles_frame ds
  have hcheck : WritesOnly [.tools, .users] (requireCurrentPlatformAdmin env caller) :=
    writesOnly_bind (writesOnly_currentUserId (by simp)) fun _ =>
      writesOnly_bind (writesOnly_read fun _ => writesOnly_demand _ _) fun _ => writesOnly_pure _
  refine keeps_bind hframe ?_ fun _ => keeps_bind hframe ?_ fun actorId => ?_
  · exact (@writesOnly_ensureSchema [.tools] (by simp)).keepsRoles (by simp) (by simp)
  · exact hcheck.keepsRoles (by simp) (by simp)
  · exact keeps_bind hframe (keeps_demand hframe _ _) fun _ => hbody actorId

theorem keepsRoles_rolePermissionsFor (request : RoleUpsertRequest) :
    KeepsRoles ds (rolePermissionsFor request) :=
  (@writesOnly_rolePermissionsFor [] request).keepsRoles (by simp) (by simp)

theorem keepsRoles_createCustomRole {caller : Caller} (request : RoleUpsertRequest) :
    KeepsRoles ds (createCustomRole env caller request) := by
  have hframe := systemRoles_frame ds
  refine keepsRoles_asNamedPlatformAdmin fun _ db _ hdb => ?_
  rw [after_bind_ok (outcome_get db), after_get]
  by_cases hnew : (db.role? request.roleId).isNone
  · rw [demand_of hnew, after_bind_ok (outcome_pure () db), after_pure]
    have hid := hdb.not_mem_ids hnew
    refine keeps_bind hframe (keepsRoles_rolePermissionsFor request) (fun permissions => ?_)
      db trivial hdb
    exact keeps_bind hframe (keepsRoles_createRole _ _ _ _) fun _ =>
      keepsRoles_replaceRoleToolPermissions hid permissions
  · rw [after_bind_of_stops (stops_demand hnew _), after_demand]
    exact hdb

/-- At a system role the endpoint stops. -/
theorem keepsRoles_updateCustomRole {caller : Caller} (roleId : String)
    (request : RoleUpsertRequest) : KeepsRoles ds (updateCustomRole env caller roleId request) := by
  have hframe := systemRoles_frame ds
  refine keepsRoles_asNamedPlatformAdmin fun _ =>
    keeps_bind hframe (keeps_demand hframe _ _) fun _ db _ hdb => ?_
  rw [after_bind_ok (outcome_get db), after_get]
  by_cases hid : roleId ∈ ds.map RoleDefinition.id
  · obtain ⟨d, hd, rfl⟩ := List.mem_map.mp hid
    have hrow := hdb.rows d hd
    have hfound : db.role? d.id = some d.record := by
      unfold ControlPlaneTables.role?
      cases hfind : Transactions.find RoleRecord.id db.roles d.id with
      | none => exact absurd rfl (Transactions.find_eq_none.mp hfind d.record hrow.1)
      | some other =>
          obtain ⟨hother, hkey⟩ := Transactions.find_spec hfind
          rw [hrow.2 other hother hkey]
    have hsystem : ¬ ∀ role ∈ db.role? d.id, (!role.isSystem) = true := by
      rw [hfound]
      exact fun h => absurd (h d.record rfl) (by simp [RoleDefinition.record])
    have hsome : (db.role? d.id).isSome := by rw [hfound, Option.isSome_some]
    rw [demand_of hsome, after_bind_ok (outcome_pure () db), after_pure,
      after_bind_of_stops (stops_demand hsystem _), after_demand]
    exact hdb
  · refine keeps_bind hframe (keeps_demand hframe _ _) (fun _ => ?_) db trivial hdb
    refine keeps_bind hframe (keeps_demand hframe _ _) fun _ => ?_
    refine keeps_bind hframe (keepsRoles_rolePermissionsFor request) fun permissions => ?_
    refine keeps_bind hframe (keepsRoles_updateRole _ _ _ _) fun _ => ?_
    exact keeps_bind hframe (keeps_demand hframe _ _) fun _ =>
      keepsRoles_replaceRoleToolPermissions hid permissions

/-- No request changes a system role. -/
theorem keepsRoles_serve (caller : Caller) (endpoint : Endpoint) :
    KeepsRoles ds (serve env caller endpoint) := by
  by_cases hroles : Table.roles ∈ endpoint.writes
  · cases endpoint with
    | createCustomRole request => exact keepsRoles_createCustomRole request
    | updateCustomRole roleId request => exact keepsRoles_updateCustomRole roleId request
    | _ => simp at hroles
  · refine (sameBut_serve env caller endpoint).keepsRoles hroles fun hpermissions => ?_
    cases endpoint with
    | createCustomRole | updateCustomRole => simp at hroles
    | _ => simp at hpermissions

end SystemRoles

/-- Seeding makes all its roles system roles. -/
theorem systemRoles_seeded {ds : List RoleDefinition} (h : SystemRoles ds db) :
    SystemRoles defaultRoleDefinitions (seeded env admins db) where
  rows d hd := by
    rw [roles_seeded]
    exact Transactions.settled_putAll (by decide) (List.mem_map_of_mem hd)
  permissions d hd := by
    rw [rolePermissions_seeded, List.filter_append, List.filter_filter,
      List.filter_eq_nil_iff.mpr, List.nil_append]
    · revert d
      decide
    · intro row _ hboth
      simp only [Bool.and_eq_true, decide_eq_true_eq] at hboth
      exact hboth.2 (hboth.1 ▸ List.mem_map_of_mem hd)
  only row hrow hsystem := by
    rw [roles_seeded, Transactions.mem_putAll (by decide)] at hrow
    rcases hrow with hnew | ⟨hold, -⟩
    · exact hnew
    · exact h.only row (List.mem_filter.mp hold).1 hsystem

/-! ## A run -/

/-- What happens to the tables: a request, or seeding with the configured administrators. -/
inductive PlatformEvent where
  | request (request : ControlPlaneRequest)
  | seed (bootstrapAdminUsers : List String)

/-- An event, to its end. -/
def platformStep (env : ControlPlaneEnv) (db : ControlPlaneTables) :
    PlatformEvent → Option ControlPlaneTables
  | .request request => controlPlaneStep env db request
  | .seed bootstrapAdminUsers => some (after (seedRoles env bootstrapAdminUsers) db)

theorem systemRoles_run {ds : List RoleDefinition} {events : List PlatformEvent}
    (hds : ds = [] ∨ ds = defaultRoleDefinitions) (hu : SystemRoles ds u)
    (h : Runs.run (platformStep env) u events = some v) : SystemRoles ds v := by
  refine Runs.run_invariant' (I := SystemRoles ds) (fun s event t hs hstep => ?_) hu h
  cases event with
  | request request =>
      cases hstep
      exact keepsRoles_serve request.caller request.endpoint s trivial hs
  | seed bootstrapAdminUsers =>
      cases hstep
      rw [(returns_seedRoles s).2]
      rcases hds with rfl | rfl
      · exact { rows := nofun, permissions := nofun, only := (systemRoles_seeded hs).only }
      · exact systemRoles_seeded hs

/-- Once the roles are seeded, they are the system roles, with their permissions, after any
requests and further seeding. The endpoints that write roles stop at a system role, and seeding
writes the same rows again. -/
theorem system_roles_kept {start : ControlPlaneTables} (hstart : start.roles = [])
    {before after : List PlatformEvent}
    (h : Runs.run (platformStep env) start (before ++ .seed admins :: after) = some db) :
    (∀ row, row ∈ db.roles ∧ row.isSystem = true
        ↔ row ∈ defaultRoleDefinitions.map RoleDefinition.record)
      ∧ ∀ d ∈ defaultRoleDefinitions, (∀ row ∈ db.roles, row.id = d.id → row = d.record)
        ∧ (db.rolePermissions.filter fun row => row.roleId = d.id) = d.permissionRows := by
  have hempty : SystemRoles [] start := by
    refine { rows := nofun, permissions := nofun, only := fun row hrow => ?_ }
    rw [hstart] at hrow
    cases hrow
  rw [Runs.run_append] at h
  obtain ⟨mid, hmid, hrest⟩ := h
  obtain ⟨next, hnext, hafter⟩ := Runs.run_cons_eq.mp hrest
  cases hnext
  have hseeded : SystemRoles defaultRoleDefinitions
      (Handlers.after (seedRoles env admins) mid) := by
    rw [(returns_seedRoles mid).2]
    exact systemRoles_seeded (systemRoles_run (.inl rfl) hempty hmid)
  have hdb := systemRoles_run (.inr rfl) hseeded hafter
  refine ⟨fun row => ⟨fun ⟨hrow, hsystem⟩ => hdb.only row hrow hsystem, fun hrow => ?_⟩,
    fun d hd => ⟨(hdb.rows d hd).2, hdb.permissions d hd⟩⟩
  obtain ⟨d, hd, rfl⟩ := List.mem_map.mp hrow
  exact ⟨(hdb.rows d hd).1, rfl⟩

section Example

/-- A request of the administrator. -/
def roleRequest (endpoint : Endpoint) : PlatformEvent :=
  .request { caller := { authorization := some "Bearer console" }, endpoint := endpoint }

/-- The administrator tries to take the permissions of a system role. -/
theorem system_roles_kept_time_tools :
    ∃ db, Runs.run (platformStep connectionEnv) consoleTables
        ([] ++ .seed [] :: [roleRequest (.updateCustomRole "time_tools"
          { roleId := "time_tools", name := "时间", actorId := "u_console" })]) = some db
      ∧ (db.rolePermissions.filter fun row => row.roleId = "time_tools").length = 1 := by
  refine ⟨_, rfl, ?_⟩
  have hall := (@system_roles_kept connectionEnv [] _ consoleTables rfl []
    [roleRequest (.updateCustomRole "time_tools"
      { roleId := "time_tools", name := "时间", actorId := "u_console" })] rfl).2
  have htools := (hall ⟨"time_tools", "时间查询角色", "仅可读取当前服务端时间。",
    [("time_now", [("actions", ["read"])])]⟩ (by decide)).2
  exact (congrArg List.length htools).trans rfl

end Example

end Aegora
