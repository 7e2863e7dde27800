import Aegora.ControlPlaneApi

/-!
# Which tables an endpoint writes

`Endpoint.writes` lists, for each endpoint, the tables that its handler has a
statement for: those of the endpoint itself, `tools` for `ensure_schema`, and
`users` for a caller who is added when the OA service knows him. A request
leaves all other tables as they are, however it ends (`sameBut_serve`).
-/

namespace Aegora

open Py Handlers

inductive Table where
  | tools
  | connections
  | workflowVersions
  | roles
  | rolePermissions
  | userRoles
  | memoryPolicies
  | users
  | sessions
deriving DecidableEq

/-- The two states differ in the written tables at most. -/
structure SameBut (written : List Table) (u v : ControlPlaneTables) : Prop where
  tools : Table.tools ∉ written → v.tools = u.tools
  connections : Table.connections ∉ written → v.connections = u.connections
  workflowVersions : Table.workflowVersions ∉ written → v.workflowVersions = u.workflowVersions
  roles : Table.roles ∉ written → v.roles = u.roles
  rolePermissions : Table.rolePermissions ∉ written → v.rolePermissions = u.rolePermissions
  userRoles : Table.userRoles ∉ written → v.userRoles = u.userRoles
  memoryPolicies : Table.memoryPolicies ∉ written → v.memoryPolicies = u.memoryPolicies
  users : Table.users ∉ written → v.users = u.users
  sessions : Table.sessions ∉ written → v.sessions = u.sessions

namespace SameBut

variable {written : List Table} {u v w : ControlPlaneTables}

theorem refl (u : ControlPlaneTables) : SameBut written u u :=
  ⟨fun _ => rfl, fun _ => rfl, fun _ => rfl, fun _ => rfl, fun _ => rfl, fun _ => rfl,
    fun _ => rfl, fun _ => rfl, fun _ => rfl⟩

theorem trans (h : SameBut written u v) (h' : SameBut written v w) : SameBut written u w where
  tools ht := (h'.tools ht).trans (h.tools ht)
  connections ht := (h'.connections ht).trans (h.connections ht)
  workflowVersions ht := (h'.workflowVersions ht).trans (h.workflowVersions ht)
  roles ht := (h'.roles ht).trans (h.roles ht)
  rolePermissions ht := (h'.rolePermissions ht).trans (h.rolePermissions ht)
  userRoles ht := (h'.userRoles ht).trans (h.userRoles ht)
  memoryPolicies ht := (h'.memoryPolicies ht).trans (h.memoryPolicies ht)
  users ht := (h'.users ht).trans (h.users ht)
  sessions ht := (h'.sessions ht).trans (h.sessions ht)

/-- `SameBut` as a frame, without an invariant. -/
theorem frame (written : List Table) : Frame (fun _ => True) (SameBut written) where
  refl := refl
  trans _ _ _ := trans
  inv _ _ _ _ := trivial

end SameBut

/-- From every state, the program writes these tables at most. -/
abbrev WritesOnly {α : Type} (written : List Table) (m : ControlPlaneHandler α) : Prop :=
  Handlers.Keeps (fun _ => True) (SameBut written) m

/-! ## Programs -/

section Programs

variable {written : List Table}

theorem writesOnly_pure {α : Type} (a : α) :
    WritesOnly written (pure a : ControlPlaneHandler α) :=
  keeps_pure (SameBut.frame written) a

theorem writesOnly_throw {α : Type} (failure : HttpFailure) :
    WritesOnly written (throw failure : ControlPlaneHandler α) :=
  keeps_throw (SameBut.frame written) failure

theorem writesOnly_get : WritesOnly written (get : ControlPlaneHandler ControlPlaneTables) :=
  keeps_get (SameBut.frame written)

theorem writesOnly_demand (c : Prop) [Decidable c] (failure : HttpFailure) :
    WritesOnly written (demand c failure) :=
  keeps_demand (SameBut.frame written) c failure

theorem writesOnly_bind {α β : Type} {m : ControlPlaneHandler α} {f : α → ControlPlaneHandler β}
    (hm : WritesOnly written m) (hf : ∀ a, WritesOnly written (f a)) :
    WritesOnly written (m >>= f) :=
  keeps_bind (SameBut.frame written) hm hf

/-- Read the tables, then go on. -/
theorem writesOnly_read {β : Type} {f : ControlPlaneTables → ControlPlaneHandler β}
    (hf : ∀ db, WritesOnly written (f db)) : WritesOnly written (get >>= f) :=
  writesOnly_bind writesOnly_get hf

/-- Check something, then go on. -/
theorem writesOnly_check {β : Type} {c : Prop} [Decidable c] {failure : HttpFailure}
    {f : Unit → ControlPlaneHandler β} (hf : WritesOnly written (f ())) :
    WritesOnly written (demand c failure >>= f) :=
  writesOnly_bind (writesOnly_demand c failure) fun _ => hf

theorem writesOnly_forM {γ : Type} {g : γ → ControlPlaneHandler Unit}
    (h : ∀ c, WritesOnly written (g c)) (cs : List γ) : WritesOnly written (cs.forM g) :=
  keeps_forM (SameBut.frame written) h cs

end Programs

/-! ## The functions of `db.py` -/

section Database

variable {written : List Table}

theorem writesOnly_ensureSchema (h : Table.tools ∈ written) : WritesOnly written ensureSchema :=
  fun db _ => { SameBut.refl db with tools := fun ht => absurd h ht }

theorem writesOnly_ensureUserExists (h : Table.users ∈ written) (userId : String) :
    WritesOnly written (ensureUserExists userId) :=
  fun db _ => { SameBut.refl db with users := fun ht => absurd h ht }

theorem writesOnly_upsertUser (h : Table.users ∈ written) (userId status : String) :
    WritesOnly written (upsertUser userId status) :=
  writesOnly_check fun db _ => { SameBut.refl db with users := fun ht => absurd h ht }

theorem writesOnly_createUserSession (h : Table.sessions ∈ written) (env : ControlPlaneEnv)
    (token userId : String) : WritesOnly written (createUserSession env token userId) :=
  fun db _ => { SameBut.refl db with sessions := fun ht => absurd h ht }

theorem writesOnly_revokeUserSession (h : Table.sessions ∈ written) (env : ControlPlaneEnv)
    (token : String) : WritesOnly written (revokeUserSession env token) :=
  fun db _ => { SameBut.refl db with sessions := fun ht => absurd h ht }

theorem writesOnly_upsertTool (h : Table.tools ∈ written) (preserveStatus : Bool)
    (tool : ToolDefinition) : WritesOnly written (upsertTool preserveStatus tool) :=
  writesOnly_read fun _ => writesOnly_check fun db _ =>
    { SameBut.refl db with tools := fun ht => absurd h ht }

theorem writesOnly_upsertMcpConnection (h : Table.connections ∈ written) (env : ControlPlaneEnv)
    (connectionId name status transport : String) (runtimeConfig : Json) :
    WritesOnly written
      (upsertMcpConnection env connectionId name status transport runtimeConfig) :=
  fun db _ => { SameBut.refl db with connections := fun ht => absurd h ht }

theorem writesOnly_replaceDiscoveredMcpTools (h : Table.tools ∈ written) (env : ControlPlaneEnv)
    (connection : ConnectionRow) (tools : List ToolDefinition) :
    WritesOnly written (replaceDiscoveredMcpTools env connection tools) := by
  refine writesOnly_check (writesOnly_bind (writesOnly_forM (fun tool => ?_) tools) fun _ => ?_)
  · exact writesOnly_upsertTool h true _
  · exact fun db _ => { SameBut.refl db with tools := fun ht => absurd h ht }

theorem writesOnly_runWorkflow (htools : Table.tools ∈ written)
    (hversions : Table.workflowVersions ∈ written) (env : ControlPlaneEnv)
    (connection : Option ConnectionRow) (request : WorkflowRequest) :
    WritesOnly written (runWorkflow env connection request) := by
  intro db _
  unfold runWorkflow
  rw [after_bind_ok (outcome_get db), after_get]
  dsimp only
  split
  · exact { SameBut.refl db with
      tools := fun ht => absurd htools ht
      workflowVersions := fun hv => absurd hversions hv }
  · exact SameBut.refl db

theorem writesOnly_createRole (h : Table.roles ∈ written)
    (roleId name description status : String) :
    WritesOnly written (createRole roleId name description status) :=
  writesOnly_read fun _ => writesOnly_check fun db _ =>
    { SameBut.refl db with roles := fun ht => absurd h ht }

theorem writesOnly_updateRole (h : Table.roles ∈ written)
    (roleId name description status : String) :
    WritesOnly written (updateRole roleId name description status) := by
  refine writesOnly_read fun _ => writesOnly_bind ?_ fun _ => writesOnly_pure _
  exact fun db _ => { SameBut.refl db with roles := fun ht => absurd h ht }

theorem writesOnly_replaceRoleToolPermissions (h : Table.rolePermissions ∈ written)
    (roleId : String) (permissions : List (String × Scope)) :
    WritesOnly written (replaceRoleToolPermissions roleId permissions) :=
  fun db _ => { SameBut.refl db with rolePermissions := fun ht => absurd h ht }

theorem writesOnly_replaceUserRoles (h : Table.userRoles ∈ written) (userId : String)
    (roleIds : List String) : WritesOnly written (replaceUserRoles userId roleIds) :=
  fun db _ => { SameBut.refl db with userRoles := fun ht => absurd h ht }

theorem writesOnly_upsertMemoryNamespacePolicy (h : Table.memoryPolicies ∈ written)
    (row : PolicyRecord) : WritesOnly written (upsertMemoryNamespacePolicy row) :=
  fun db _ => { SameBut.refl db with memoryPolicies := fun ht => absurd h ht }

end Database

/-! ## Who calls -/

section Identity

variable {written : List Table} {env : ControlPlaneEnv} {caller : Caller}

theorem writesOnly_currentUserId (h : Table.users ∈ written) :
    WritesOnly written (currentUserId env caller) := by
  unfold currentUserId
  split
  · exact writesOnly_throw _
  · split
    · refine writesOnly_read fun db => ?_
      split
      · exact writesOnly_throw _
      · exact writesOnly_pure _
    · split
      · exact writesOnly_throw _
      · refine writesOnly_bind (writesOnly_ensureUserExists h _) fun _ => ?_
        exact writesOnly_read fun _ => writesOnly_check (writesOnly_pure _)

theorem writesOnly_requireCurrentActor (h : Table.users ∈ written) (claimedActorId : String) :
    WritesOnly written (requireCurrentActor env caller claimedActorId) := by
  refine writesOnly_bind (writesOnly_currentUserId h) fun actorId => ?_
  exact writesOnly_check (writesOnly_read fun _ => writesOnly_check (writesOnly_pure _))

theorem writesOnly_asPlatformAdmin (htools : Table.tools ∈ written)
    (husers : Table.users ∈ written) {body : String → ControlPlaneHandler Unit}
    (hbody : ∀ actorId, WritesOnly written (body actorId)) :
    WritesOnly written (asPlatformAdmin env caller body) := by
  refine writesOnly_bind (writesOnly_ensureSchema htools) fun _ =>
    writesOnly_bind ?_ fun actorId => hbody actorId
  refine writesOnly_bind (writesOnly_currentUserId husers) fun actorId =>
    writesOnly_bind ?_ fun _ => writesOnly_pure _
  exact writesOnly_read fun _ => writesOnly_demand _ _

theorem writesOnly_asNamedPlatformAdmin (htools : Table.tools ∈ written)
    (husers : Table.users ∈ written) {claimedActorId : String}
    {body : String → ControlPlaneHandler Unit}
    (hbody : ∀ actorId, WritesOnly written (body actorId)) :
    WritesOnly written (asNamedPlatformAdmin env caller claimedActorId body) :=
  writesOnly_asPlatformAdmin htools husers fun actorId => writesOnly_check (hbody actorId)

theorem writesOnly_insertMembers (h : Table.users ∈ written) (members : List String) :
    WritesOnly written (insertMembers members) :=
  writesOnly_forM (writesOnly_ensureUserExists h) _

end Identity

/-! ## The endpoints -/

/-- The tables that an endpoint has statements for. -/
@[simp] def Endpoint.writes : Endpoint → List Table
  | .authConfig => []
  | .login .. | .logout => [.tools, .sessions]
  | .setMcpConnection .. => [.tools, .users, .connections]
  | .setWorkflowCapability .. | .retireWorkflowVersion .. | .setToolStatus .. =>
      [.tools, .users, .workflowVersions]
  | .setMemoryPolicy _ => [.tools, .users, .memoryPolicies]
  | .createCustomRole _ | .updateCustomRole .. => [.tools, .users, .roles, .rolePermissions]
  | .setUserRoles .. => [.tools, .users, .userRoles]
  | .setTool .. | .listTools | .listAgentReleases | .getAgentRelease | .runAgentRelease
  | .authorizeTool | .runAgent | .listRuns | .run => [.tools]
  | _ => [.tools, .users]

section Endpoints

variable {written : List Table} {env : ControlPlaneEnv} {caller : Caller}

theorem writesOnly_login (htools : Table.tools ∈ written) (hsessions : Table.sessions ∈ written)
    (userId token : String) : WritesOnly written (login env userId token) := by
  refine writesOnly_bind (writesOnly_ensureSchema htools) fun _ => writesOnly_check ?_
  exact writesOnly_read fun _ =>
    writesOnly_check (writesOnly_createUserSession hsessions env token userId)

theorem writesOnly_logout (htools : Table.tools ∈ written) (hsessions : Table.sessions ∈ written) :
    WritesOnly written (logout env caller) := by
  refine writesOnly_bind (writesOnly_ensureSchema htools) fun _ => ?_
  split
  · exact writesOnly_throw _
  · split
    · exact writesOnly_revokeUserSession hsessions env _
    · exact writesOnly_pure _

theorem writesOnly_setTool (h : Table.tools ∈ written) (toolId : String) (request : ToolRequest) :
    WritesOnly written (setTool env toolId request) := by
  refine writesOnly_bind (writesOnly_ensureSchema h) fun _ => writesOnly_read fun db => ?_
  split
  · exact writesOnly_throw _
  · exact writesOnly_upsertTool h false _

theorem writesOnly_discoverMcpConnectionTools (htools : Table.tools ∈ written)
    (husers : Table.users ∈ written) (connectionId : String)
    (discovered : Except String (List ToolDefinition)) :
    WritesOnly written (discoverMcpConnectionTools env caller connectionId discovered) := by
  refine writesOnly_asPlatformAdmin htools husers fun _ => writesOnly_read fun db => ?_
  split
  · exact writesOnly_throw _
  · split
    · exact writesOnly_throw _
    · exact writesOnly_replaceDiscoveredMcpTools htools env _ _

theorem writesOnly_setWorkflowCapability (htools : Table.tools ∈ written)
    (husers : Table.users ∈ written) (hversions : Table.workflowVersions ∈ written)
    (workflowId : String) (request : WorkflowCapabilityRequest) :
    WritesOnly written (setWorkflowCapability env caller workflowId request) := by
  refine writesOnly_check (writesOnly_asPlatformAdmin htools husers fun actorId => ?_)
  refine writesOnly_read fun db => ?_
  split
  · exact writesOnly_throw _
  · refine writesOnly_bind (writesOnly_runWorkflow htools hversions env _ _) fun result => ?_
    split
    · exact writesOnly_throw _
    · exact writesOnly_pure _

theorem writesOnly_rolePermissionsFor (request : RoleUpsertRequest) :
    WritesOnly written (rolePermissionsFor request) := by
  refine writesOnly_read fun db => ?_
  split
  · exact writesOnly_throw _
  · exact writesOnly_check (writesOnly_pure _)

theorem writesOnly_createCustomRole (htools : Table.tools ∈ written)
    (husers : Table.users ∈ written) (hroles : Table.roles ∈ written)
    (hpermissions : Table.rolePermissions ∈ written) (request : RoleUpsertRequest) :
    WritesOnly written (createCustomRole env caller request) := by
  refine writesOnly_asNamedPlatformAdmin htools husers fun _ => writesOnly_read fun db => ?_
  refine writesOnly_check (writesOnly_bind (writesOnly_rolePermissionsFor request) fun _ => ?_)
  exact writesOnly_bind (writesOnly_createRole hroles _ _ _ _) fun _ =>
    writesOnly_replaceRoleToolPermissions hpermissions _ _

theorem writesOnly_updateCustomRole (htools : Table.tools ∈ written)
    (husers : Table.users ∈ written) (hroles : Table.roles ∈ written)
    (hpermissions : Table.rolePermissions ∈ written) (roleId : String)
    (request : RoleUpsertRequest) :
    WritesOnly written (updateCustomRole env caller roleId request) := by
  refine writesOnly_asNamedPlatformAdmin htools husers fun _ => writesOnly_check ?_
  refine writesOnly_read fun db => writesOnly_check (writesOnly_check ?_)
  refine writesOnly_bind (writesOnly_rolePermissionsFor request) fun _ => ?_
  refine writesOnly_bind (writesOnly_updateRole hroles _ _ _ _) fun _ => ?_
  exact writesOnly_check (writesOnly_replaceRoleToolPermissions hpermissions _ _)

theorem writesOnly_setUserRoles (htools : Table.tools ∈ written)
    (husers : Table.users ∈ written) (huserRoles : Table.userRoles ∈ written)
    (userId actorId : String) (roles : List String) :
    WritesOnly written (setUserRoles env caller userId actorId roles) := by
  refine writesOnly_asNamedPlatformAdmin htools husers fun _ => writesOnly_read fun db => ?_
  refine writesOnly_check ?_
  dsimp only
  split
  · exact writesOnly_replaceUserRoles huserRoles _ _
  · exact writesOnly_bind (writesOnly_upsertUser husers _ _) fun _ =>
      writesOnly_replaceUserRoles huserRoles _ _

theorem writesOnly_createAgent (htools : Table.tools ∈ written) (husers : Table.users ∈ written)
    (ownerUserId : String) (members : List String) (checks : Option HttpFailure) :
    WritesOnly written (createAgent env caller ownerUserId members checks) := by
  refine writesOnly_bind (writesOnly_ensureSchema htools) fun _ => ?_
  refine writesOnly_bind (writesOnly_currentUserId husers) fun actorId => ?_
  refine writesOnly_read fun db => writesOnly_check (writesOnly_check (writesOnly_check ?_))
  split
  · exact writesOnly_throw _
  · exact writesOnly_insertMembers husers _

theorem writesOnly_updateAgent (htools : Table.tools ∈ written) (husers : Table.users ∈ written)
    (actorId : String) (members : List String) (checks : Option HttpFailure) :
    WritesOnly written (updateAgent env caller actorId members checks) := by
  refine writesOnly_bind (writesOnly_ensureSchema htools) fun _ => ?_
  refine writesOnly_bind (writesOnly_requireCurrentActor husers actorId) fun _ => ?_
  split
  · exact writesOnly_throw _
  · exact writesOnly_insertMembers husers _

/-- `ensure_schema`, then a check of the caller. -/
theorem writesOnly_identified (htools : Table.tools ∈ written) {α : Type}
    {m : ControlPlaneHandler α} (hm : WritesOnly written m) :
    WritesOnly written (do ensureSchema; let _ ← m; pure () : ControlPlaneHandler Unit) :=
  writesOnly_bind (writesOnly_ensureSchema htools) fun _ =>
    writesOnly_bind hm fun _ => writesOnly_pure _

end Endpoints

/-- A request writes the tables of its endpoint at most. -/
theorem sameBut_serve (env : ControlPlaneEnv) (caller : Caller) (endpoint : Endpoint) :
    WritesOnly endpoint.writes (serve env caller endpoint) := by
  cases endpoint with
  | login userId token => exact writesOnly_login (by simp) (by simp) userId token
  | authConfig => exact writesOnly_pure ()
  | logout => exact writesOnly_logout (by simp) (by simp)
  | setUser userId status =>
      exact writesOnly_bind (writesOnly_ensureSchema (by simp)) fun _ =>
        writesOnly_upsertUser (by simp) userId status
  | setMcpConnection connectionId request =>
      exact writesOnly_check (writesOnly_asPlatformAdmin (by simp) (by simp) fun _ =>
        writesOnly_upsertMcpConnection (by simp) env _ _ _ _ _)
  | discoverMcpConnectionTools connectionId discovered =>
      exact writesOnly_discoverMcpConnectionTools (by simp) (by simp) connectionId discovered
  | setTool toolId request => exact writesOnly_setTool (by simp) toolId request
  | setWorkflowCapability workflowId request =>
      exact writesOnly_setWorkflowCapability (by simp) (by simp) (by simp) workflowId request
  | retireWorkflowVersion workflowId version =>
      exact writesOnly_asPlatformAdmin (by simp) (by simp) fun actorId =>
        writesOnly_bind (writesOnly_runWorkflow (by simp) (by simp) env _ _) fun _ =>
          writesOnly_demand _ _
  | setToolStatus toolId actorId status =>
      exact writesOnly_asNamedPlatformAdmin (by simp) (by simp) fun _ =>
        writesOnly_bind (writesOnly_runWorkflow (by simp) (by simp) env _ _) fun _ =>
          writesOnly_demand _ _
  | setMemoryPolicy row =>
      exact writesOnly_asPlatformAdmin (by simp) (by simp) fun actorId =>
        writesOnly_upsertMemoryNamespacePolicy (by simp) _
  | createCustomRole request =>
      exact writesOnly_createCustomRole (by simp) (by simp) (by simp) (by simp) request
  | updateCustomRole roleId request =>
      exact writesOnly_updateCustomRole (by simp) (by simp) (by simp) (by simp) roleId
        request
  | setUserRoles userId actorId roles =>
      exact writesOnly_setUserRoles (by simp) (by simp) (by simp) userId actorId roles
  | createAgent ownerUserId members checks =>
      exact writesOnly_createAgent (by simp) (by simp) ownerUserId members checks
  | updateAgent actorId members checks =>
      exact writesOnly_updateAgent (by simp) (by simp) actorId members checks
  | setAgentStatus actorId =>
      exact writesOnly_asNamedPlatformAdmin (by simp) (by simp) fun _ => writesOnly_pure ()
  | listMcpConnections | runtimeConfigEventMetrics | listWorkflowVersions | listRoles
  | listAdminUsers | listMemoryPolicies =>
      exact writesOnly_asPlatformAdmin (by simp) (by simp) fun _ => writesOnly_pure ()
  | listMemoryPreferences actorId | setMemoryPreference actorId | publishAgent actorId
  | revokeAgentRelease actorId | decideGatewayApproval actorId =>
      exact writesOnly_identified (by simp) (writesOnly_requireCurrentActor (by simp) actorId)
  | me | getAgent =>
      exact writesOnly_identified (by simp) (writesOnly_currentUserId (by simp))
  | listAgents =>
      refine writesOnly_bind (writesOnly_ensureSchema (by simp)) fun _ => ?_
      split
      · exact writesOnly_pure _
      · exact writesOnly_bind (writesOnly_currentUserId (by simp)) fun _ => writesOnly_pure _
  | listTools | listAgentReleases | getAgentRelease | runAgentRelease | authorizeTool
  | runAgent | listRuns | run => exact writesOnly_ensureSchema (by simp)

end Aegora
