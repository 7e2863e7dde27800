import Aegora.ControlPlaneApi

/-!
# Writes without an administrator

What a request may change when its token is not that of an active
administrator. An endpoint that asks for `platform_admin` stops before its
body (`stops_requireCurrentPlatformAdmin`), and the others add users and
sessions only. Two endpoints write without asking who calls: `PUT
/users/{user_id}` sets the status of any user and `PUT /tools/{tool_id}` any
tool. `Harmless` is the exact condition under which a request leaves the rows
that administrators maintain (`kept_iff_harmless`).

Before it looks at its caller, a request runs `ensure_schema`, which brings
rows of `tools` into their present form. Every statement below is therefore
about what follows that (`ControlPlaneTables.ensured`).
-/

namespace Aegora

open Py Handlers

namespace ControlPlaneTables

variable {u v w : ControlPlaneTables}

/-- The rows that administrators maintain, and the status of every user. -/
structure Kept (u v : ControlPlaneTables) : Prop where
  tools : v.tools = u.tools
  connections : v.connections = u.connections
  workflowVersions : v.workflowVersions = u.workflowVersions
  roles : v.roles = u.roles
  rolePermissions : v.rolePermissions = u.rolePermissions
  userRoles : v.userRoles = u.userRoles
  memoryPolicies : v.memoryPolicies = u.memoryPolicies
  statuses : ∀ userId status, u.userStatus userId = some status →
    v.userStatus userId = some status

theorem Kept.refl (u : ControlPlaneTables) : Kept u u :=
  ⟨rfl, rfl, rfl, rfl, rfl, rfl, rfl, fun _ _ h => h⟩

theorem Kept.trans (h : Kept u v) (h' : Kept v w) : Kept u w where
  tools := h'.tools.trans h.tools
  connections := h'.connections.trans h.connections
  workflowVersions := h'.workflowVersions.trans h.workflowVersions
  roles := h'.roles.trans h.roles
  rolePermissions := h'.rolePermissions.trans h.rolePermissions
  userRoles := h'.userRoles.trans h.userRoles
  memoryPolicies := h'.memoryPolicies.trans h.memoryPolicies
  statuses userId status hstatus := h'.statuses userId status (h.statuses userId status hstatus)

/-- The primary key of `tools` and the foreign key of `user_roles`. -/
structure Sound (db : ControlPlaneTables) : Prop where
  toolKeys : (db.tools.map ToolDefinition.toolId).Nodup
  userRoles : ∀ row ∈ db.userRoles, (db.userStatus row.1).isSome

theorem Kept.sound (h : Kept u v) (hu : Sound u) : Sound v where
  toolKeys := by
    rw [h.tools]
    exact hu.toolKeys
  userRoles row hrow := by
    rw [h.userRoles] at hrow
    obtain ⟨status, hstatus⟩ := Option.isSome_iff_exists.mp (hu.userRoles row hrow)
    rw [h.statuses row.1 status hstatus]
    rfl

theorem keptFrame : Frame Sound Kept where
  refl := Kept.refl
  trans _ _ _ := Kept.trans
  inv _ _ hu h := h.sound hu

/-- What `ensure_schema` leaves. -/
def ensured (db : ControlPlaneTables) : ControlPlaneTables :=
  { db with tools := db.tools.map ToolDefinition.migrate }

/-- Every row of `tools` is in the form that `ensure_schema` brings it into. -/
def Migrated (db : ControlPlaneTables) : Prop := ∀ tool ∈ db.tools, tool.migrate = tool

instance (db : ControlPlaneTables) : Decidable db.Migrated :=
  inferInstanceAs (Decidable (∀ tool ∈ db.tools, tool.migrate = tool))

/-- What follows `ensure_schema` and keeps the rows has kept them altogether when there was
nothing to bring into form. -/
theorem kept_iff_migrated (h : Kept u.ensured v) : Kept u v ↔ u.Migrated := by
  constructor
  · intro hkept
    exact Transactions.map_eq_self.mp (h.tools.symm.trans hkept.tools)
  · intro hmigrated
    have htools : u.ensured.tools = u.tools := Transactions.map_eq_self.mpr hmigrated
    exact { h with tools := h.tools.trans htools }

end ControlPlaneTables

/-- The tables of a Control Plane, with their keys. -/
structure ControlPlaneDb extends ControlPlaneTables where
  sound : toControlPlaneTables.Sound

open ControlPlaneTables

section Unprivileged

variable {env : ControlPlaneEnv} {caller : Caller} {db : ControlPlaneTables}

@[simp] theorem after_ensureSchema : after ensureSchema db = db.ensured := rfl

theorem after_ensureSchema_bind {α : Type} (rest : Unit → ControlPlaneHandler α) :
    after (ensureSchema >>= rest) db = after (rest ()) db.ensured :=
  after_bind_ok rfl

/-! ## Who calls -/

/-- The user that the token of the request is for. -/
def Caller.tokenUser? (caller : Caller) (env : ControlPlaneEnv) (db : ControlPlaneTables) :
    Option String :=
  (extractBearerToken caller.authorization).bind fun token =>
    match env.authMode with
    | .local => db.sessionUser? env token
    | .oa => caller.oaUser.toOption

/-- The token is not that of an active administrator. -/
def Caller.Unprivileged (caller : Caller) (env : ControlPlaneEnv) (db : ControlPlaneTables) :
    Prop :=
  ∀ userId ∈ caller.tokenUser? env db,
    ¬ (db.userIsActive userId ∧ db.userHasRole userId platformAdminRole)

instance : Decidable (caller.Unprivileged env db) :=
  inferInstanceAs (Decidable (∀ _ ∈ _, _))

theorem Caller.Unprivileged.ensured (h : caller.Unprivileged env db) :
    caller.Unprivileged env db.ensured := h

/-! ## Programs that add users and sessions only -/

theorem userStatus_insertUser {userId other status : String}
    (h : db.userStatus other = some status) :
    userStatus { db with users := insertUser userId db.users } other = some status := by
  unfold userStatus at h ⊢
  unfold insertUser
  split
  · exact h
  · obtain ⟨row, hrow, hstatus⟩ := Option.map_eq_some_iff.mp h
    have hfound : Transactions.find UserRow.id (db.users ++ [⟨userId, "active"⟩]) other
        = some row := by
      unfold Transactions.find at hrow ⊢
      rw [List.find?_append, hrow, Option.some_or]
    rw [hfound, ← hstatus]
    rfl

theorem keeps_ensureUserExists (userId : String) :
    Handlers.Keeps Sound Kept (ensureUserExists userId) := by
  intro db _
  exact { Kept.refl db with statuses := fun _ _ h => userStatus_insertUser h }

theorem keeps_createUserSession (token userId : String) :
    Handlers.Keeps Sound Kept (createUserSession env token userId) :=
  fun db _ => { Kept.refl db with }

theorem keeps_revokeUserSession (token : String) :
    Handlers.Keeps Sound Kept (revokeUserSession env token) :=
  fun db _ => { Kept.refl db with }

theorem keeps_currentUserId : Handlers.Keeps Sound Kept (currentUserId env caller) := by
  unfold currentUserId
  split
  · exact keeps_throw keptFrame _
  · split
    · refine keeps_bind keptFrame (keeps_get keptFrame) fun db => ?_
      split
      · exact keeps_throw keptFrame _
      · exact keeps_pure keptFrame _
    · split
      · exact keeps_throw keptFrame _
      · refine keeps_bind keptFrame (keeps_ensureUserExists _) fun _ => ?_
        refine keeps_bind keptFrame (keeps_get keptFrame) fun db => ?_
        exact keeps_bind keptFrame (keeps_demand keptFrame _ _) fun _ => keeps_pure keptFrame _

theorem keeps_requireCurrentActor (claimedActorId : String) :
    Handlers.Keeps Sound Kept (requireCurrentActor env caller claimedActorId) := by
  refine keeps_bind keptFrame keeps_currentUserId fun actorId => ?_
  refine keeps_bind keptFrame (keeps_demand keptFrame _ _) fun _ => ?_
  refine keeps_bind keptFrame (keeps_get keptFrame) fun db => ?_
  exact keeps_bind keptFrame (keeps_demand keptFrame _ _) fun _ => keeps_pure keptFrame _

theorem keeps_insertMembers (members : List String) :
    Handlers.Keeps Sound Kept (insertMembers members) :=
  keeps_forM keptFrame keeps_ensureUserExists _

/-! ## Endpoints for administrators -/

/-- A role can only be that of a user who is there already. -/
theorem ControlPlaneTables.Kept.privileged {u v : ControlPlaneTables} {userId roleId : String}
    (h : Kept u v) (hu : u.Sound) (hv : v.userIsActive userId ∧ v.userHasRole userId roleId) :
    u.userIsActive userId ∧ u.userHasRole userId roleId := by
  obtain ⟨hactive, hrole⟩ := hv
  unfold userHasRole at hrole ⊢
  rw [h.userRoles] at hrole
  refine ⟨?_, hrole⟩
  obtain ⟨status, hstatus⟩ :=
    Option.isSome_iff_exists.mp (hu.userRoles _ (List.contains_iff_mem.mp hrole))
  have hafter := h.statuses userId status hstatus
  unfold userIsActive at hactive ⊢
  rw [hafter] at hactive
  rw [hstatus]
  exact hactive

theorem tokenUser?_of_currentUserId {userId : String}
    (h : outcome (currentUserId env caller) db = .ok userId) :
    caller.tokenUser? env db = some userId := by
  unfold currentUserId at h
  unfold Caller.tokenUser?
  cases htoken : extractBearerToken caller.authorization with
  | none =>
      rw [htoken] at h
      cases h
  | some token =>
      rw [htoken] at h
      cases hmode : env.authMode with
      | «local» =>
          simp only [hmode, Option.bind_some] at h ⊢
          rw [outcome_bind_ok (outcome_get db), after_get] at h
          cases huser : db.sessionUser? env token with
          | none =>
              rw [huser] at h
              cases h
          | some found =>
              rw [huser] at h
              cases h
              rfl
      | oa =>
          simp only [hmode, Option.bind_some] at h ⊢
          cases huser : caller.oaUser with
          | error failure =>
              rw [huser] at h
              cases h
          | ok found =>
              simp only [huser] at h
              rw [outcome_bind_ok rfl, outcome_bind_ok (outcome_get _), after_get] at h
              by_cases hactive :
                  (after (ensureUserExists found) db).userIsActive found = true
              · rw [demand_of hactive, outcome_bind_ok (outcome_pure () _)] at h
                cases h
                rfl
              · obtain ⟨failure, hfailure⟩ := stops_bind (stops_demand hactive _) fun _ =>
                  (pure found : ControlPlaneHandler String)
                rw [hfailure] at h
                cases h

/-- An endpoint that asks for the role ends there. -/
theorem stops_requireCurrentPlatformAdmin (hdb : db.Sound) (h : caller.Unprivileged env db) :
    Stops (requireCurrentPlatformAdmin env caller) db := by
  unfold requireCurrentPlatformAdmin
  cases hout : outcome (currentUserId env caller) db with
  | error failure => exact stops_bind ⟨failure, hout⟩ _
  | ok userId =>
      have hkept : Kept db (after (currentUserId env caller) db) := keeps_currentUserId db hdb
      refine stops_bind_right hout (stops_bind ?_ _)
      refine stops_bind_right (outcome_get _) (stops_demand (fun hadmin => ?_) _)
      exact h userId (tokenUser?_of_currentUserId hout) (hkept.privileged hdb hadmin)

theorem keeps_requireCurrentPlatformAdmin :
    Handlers.Keeps Sound Kept (requireCurrentPlatformAdmin env caller) := by
  refine keeps_bind keptFrame keeps_currentUserId fun actorId => ?_
  refine keeps_bind keptFrame ?_ fun _ => keeps_pure keptFrame _
  exact keeps_bind keptFrame (keeps_get keptFrame) fun _ => keeps_demand keptFrame _ _

theorem kept_asPlatformAdmin (hdb : db.ensured.Sound) (h : caller.Unprivileged env db)
    (body : String → ControlPlaneHandler Unit) :
    Kept db.ensured (after (asPlatformAdmin env caller body) db) := by
  unfold asPlatformAdmin
  rw [after_ensureSchema_bind,
    after_bind_of_stops (stops_requireCurrentPlatformAdmin hdb h.ensured)]
  exact keeps_requireCurrentPlatformAdmin _ hdb

/-! ## What a request does -/

/-- A request whose token is not that of an active administrator. -/
def ControlPlaneRequest.Unprivileged (env : ControlPlaneEnv) (db : ControlPlaneTables)
    (request : ControlPlaneRequest) : Prop :=
  request.caller.Unprivileged env db

instance (request : ControlPlaneRequest) : Decidable (request.Unprivileged env db) :=
  inferInstanceAs (Decidable (request.caller.Unprivileged env db))

/-- The definition that `PUT /tools/{tool_id}` writes, if it writes one. -/
def acceptedTool? (env : ControlPlaneEnv) (db : ControlPlaneTables) (toolId : String)
    (request : ToolRequest) : Option ToolDefinition :=
  (toolDefinitionFromRequest env db toolId request).toOption.filter fun tool =>
    ∀ connectionId ∈ tool.mcpConnectionId, (db.connection? connectionId).isSome

/-- Nothing to bring into form; the two endpoints that write for everyone write what is there
already. These two look at the identifier before they run `ensure_schema`. -/
def ControlPlaneRequest.Harmless (env : ControlPlaneEnv) (db : ControlPlaneTables)
    (request : ControlPlaneRequest) : Prop :=
  match request.endpoint with
  | .authConfig => True
  | .setMcpConnection identifier _ | .setWorkflowCapability identifier _ =>
      validIdentifier identifier = true → db.Migrated
  | .setUser userId status =>
      db.Migrated ∧ (validStatus status = true → ∀ old ∈ db.userStatus userId, status = old)
  | .setTool toolId body =>
      match acceptedTool? env db toolId body with
      | none => db.Migrated
      | some tool =>
          tool ∈ db.tools ∧ ∀ row ∈ db.tools, row.toolId ≠ tool.toolId → row.migrate = row
  | _ => db.Migrated

instance (request : ControlPlaneRequest) : Decidable (request.Harmless env db) := by
  unfold ControlPlaneRequest.Harmless
  split
  iterate 4 infer_instance
  · split <;> infer_instance
  · infer_instance

theorem ToolDefinition.migrate_toolId (tool : ToolDefinition) :
    tool.migrate.toolId = tool.toolId := by
  unfold migrate
  dsimp only
  split <;> rfl

theorem ControlPlaneTables.Sound.ensured (h : db.Sound) : db.ensured.Sound where
  toolKeys := by
    have hkeys : db.ensured.tools.map ToolDefinition.toolId
        = db.tools.map ToolDefinition.toolId := by
      refine (List.map_map ..).trans (List.map_congr_left fun tool _ => ?_)
      exact tool.migrate_toolId
    rw [hkeys]
    exact h.toolKeys
  userRoles := h.userRoles

/-- The tables with another status of a user. -/
def ControlPlaneTables.withStatus (db : ControlPlaneTables) (userId status : String) :
    ControlPlaneTables :=
  { db with users := Transactions.put UserRow.id db.users ⟨userId, status⟩ }

@[simp] theorem userStatus_withStatus (userId status other : String) :
    (db.withStatus userId status).userStatus other
      = if other = userId then some status else db.userStatus other := by
  unfold userStatus
  rw [show (db.withStatus userId status).users
    = Transactions.put UserRow.id db.users ⟨userId, status⟩ from rfl, Transactions.find_put]
  split <;> rfl

theorem setUser_kept_iff {userId status : String} :
    Kept db (after (setUser userId status) db)
      ↔ db.Migrated
        ∧ (validStatus status = true → ∀ old ∈ db.userStatus userId, status = old) := by
  unfold setUser
  rw [after_ensureSchema_bind]
  unfold upsertUser
  by_cases hvalid : validStatus status = true
  · rw [demand_of hvalid, after_bind_ok (outcome_pure () _), after_pure]
    show Kept db (db.ensured.withStatus userId status) ↔ _
    constructor
    · intro hkept
      refine ⟨Transactions.map_eq_self.mp hkept.tools, fun _ old hold => ?_⟩
      have hafter := hkept.statuses userId old hold
      rw [userStatus_withStatus, if_pos rfl] at hafter
      exact Option.some_inj.mp hafter
    · rintro ⟨hmigrated, hsame⟩
      have htools : db.ensured.tools = db.tools := Transactions.map_eq_self.mpr hmigrated
      refine { Kept.refl db with tools := htools, statuses := fun other old hold => ?_ }
      rw [userStatus_withStatus]
      split
      · rename_i hother
        subst hother
        rw [hsame hvalid old hold]
      · exact hold
  · have hstops := stops_demand (s := db.ensured) hvalid
      (valueFailure "status 只能是 active 或 disabled")
    rw [after_bind_of_stops hstops, after_demand, kept_iff_migrated (Kept.refl _)]
    simp [hvalid]

/-! ### `PUT /tools/{tool_id}` -/

theorem upsertedTool_false (tools : List ToolDefinition) (tool : ToolDefinition) :
    upsertedTool false tools tool = tool := by
  unfold upsertedTool
  split <;> rfl

theorem after_upsertTool (tool : ToolDefinition) :
    after (upsertTool false tool) db
      = if ∀ connectionId ∈ tool.mcpConnectionId, (db.connection? connectionId).isSome then
          { db with tools := Transactions.put ToolDefinition.toolId db.tools tool }
        else db := by
  unfold upsertTool
  rw [after_bind_ok (outcome_get db), after_get]
  split
  · rename_i hconnection
    rw [demand_of hconnection, after_bind_ok (outcome_pure () _), after_pure, after_modify,
      upsertedTool_false]
  · rename_i hconnection
    rw [after_bind_of_stops (stops_demand hconnection _), after_demand]

theorem setTool_kept_iff (hdb : db.Sound) {toolId : String} {body : ToolRequest} :
    Kept db (after (setTool env toolId body) db)
      ↔ match acceptedTool? env db toolId body with
        | none => db.Migrated
        | some tool =>
            tool ∈ db.tools ∧ ∀ row ∈ db.tools, row.toolId ≠ tool.toolId → row.migrate = row := by
  have hdefinition : toolDefinitionFromRequest env db.ensured toolId body
      = toolDefinitionFromRequest env db toolId body := rfl
  have hconnection : ∀ connectionId, db.ensured.connection? connectionId
      = db.connection? connectionId := fun _ => rfl
  have hnone : Kept db db.ensured ↔ db.Migrated := kept_iff_migrated (Kept.refl _)
  unfold setTool acceptedTool?
  rw [after_ensureSchema_bind, after_bind_ok (outcome_get _), after_get, hdefinition]
  cases hbody : toolDefinitionFromRequest env db toolId body with
  | error failure => exact hnone
  | ok tool =>
      simp only [Except.toOption, after_upsertTool, hconnection]
      by_cases hknown : ∀ connectionId ∈ tool.mcpConnectionId,
          (db.connection? connectionId).isSome
      · rw [if_pos hknown, Option.filter_some, if_pos (by simpa using hknown)]
        refine Iff.trans ?_ (Transactions.put_map_eq_iff hdb.toolKeys
          ToolDefinition.migrate_toolId)
        constructor
        · exact fun hkept => hkept.tools
        · intro htools
          exact { Kept.refl db with tools := htools }
      · rw [if_neg hknown, Option.filter_some, if_neg (by simpa using hknown)]
        exact hnone

/-! ## Every request -/

theorem kept_ensureSchema_bind (hdb : db.Sound) {rest : Unit → ControlPlaneHandler Unit}
    (h : Handlers.Keeps Sound Kept (rest ())) :
    Kept db.ensured (after (ensureSchema >>= rest) db) := by
  rw [after_ensureSchema_bind]
  exact h db.ensured hdb.ensured

theorem kept_login (hdb : db.Sound) (userId token : String) :
    Kept db.ensured (after (login env userId token) db) := by
  refine kept_ensureSchema_bind hdb ?_
  refine keeps_bind keptFrame (keeps_demand keptFrame _ _) fun _ => ?_
  refine keeps_bind keptFrame (keeps_get keptFrame) fun db => ?_
  refine keeps_bind keptFrame (keeps_demand keptFrame _ _) fun _ => ?_
  exact keeps_createUserSession token userId

theorem kept_logout (hdb : db.Sound) : Kept db.ensured (after (logout env caller) db) := by
  refine kept_ensureSchema_bind hdb ?_
  split
  · exact keeps_throw keptFrame _
  · split
    · exact keeps_revokeUserSession _
    · exact keeps_pure keptFrame _

theorem kept_createAgent (hdb : db.Sound) (ownerUserId : String) (members : List String)
    (checks : Option HttpFailure) :
    Kept db.ensured (after (createAgent env caller ownerUserId members checks) db) := by
  refine kept_ensureSchema_bind hdb ?_
  refine keeps_bind keptFrame keeps_currentUserId fun actorId => ?_
  refine keeps_bind keptFrame (keeps_get keptFrame) fun db => ?_
  refine keeps_bind keptFrame (keeps_demand keptFrame _ _) fun _ => ?_
  refine keeps_bind keptFrame (keeps_demand keptFrame _ _) fun _ => ?_
  refine keeps_bind keptFrame (keeps_demand keptFrame _ _) fun _ => ?_
  split
  · exact keeps_throw keptFrame _
  · exact keeps_insertMembers _

theorem kept_updateAgent (hdb : db.Sound) (actorId : String) (members : List String)
    (checks : Option HttpFailure) :
    Kept db.ensured (after (updateAgent env caller actorId members checks) db) := by
  refine kept_ensureSchema_bind hdb ?_
  refine keeps_bind keptFrame (keeps_requireCurrentActor actorId) fun _ => ?_
  split
  · exact keeps_throw keptFrame _
  · exact keeps_insertMembers _

/-- An endpoint that looks at its identifier first. -/
theorem kept_demand_asPlatformAdmin (hdb : db.Sound) (h : caller.Unprivileged env db) (c : Prop)
    [Decidable c] (failure : HttpFailure) (body : String → ControlPlaneHandler Unit) :
    Kept db (after (demand c failure >>= fun _ => asPlatformAdmin env caller body) db)
      ↔ (c → db.Migrated) := by
  by_cases hc : c
  · rw [demand_of hc, after_bind_ok (outcome_pure () _), after_pure,
      kept_iff_migrated (kept_asPlatformAdmin hdb.ensured h body)]
    simp [hc]
  · rw [after_bind_of_stops (stops_demand hc failure), after_demand]
    exact iff_of_true (Kept.refl db) fun hc' => absurd hc' hc

/-- The step lemma: what a request without an administrator's token leaves. -/
theorem kept_iff_harmless {request : ControlPlaneRequest} (hdb : db.Sound)
    (h : request.Unprivileged env db) :
    Kept db (after (serve env request.caller request.endpoint) db) ↔ request.Harmless env db := by
  obtain ⟨caller, endpoint⟩ := request
  have hadmin := kept_asPlatformAdmin hdb.ensured h
  cases endpoint with
  | authConfig => exact iff_of_true (Kept.refl db) trivial
  | setUser userId status => exact setUser_kept_iff
  | setTool toolId body => exact setTool_kept_iff hdb
  | setMcpConnection | setWorkflowCapability => exact kept_demand_asPlatformAdmin hdb h _ _ _
  | login userId token => exact kept_iff_migrated (kept_login hdb userId token)
  | logout => exact kept_iff_migrated (kept_logout hdb)
  | createAgent owner members checks =>
      exact kept_iff_migrated (kept_createAgent hdb owner members checks)
  | updateAgent actorId members checks =>
      exact kept_iff_migrated (kept_updateAgent hdb actorId members checks)
  | listTools | listAgentReleases | getAgentRelease | runAgentRelease | authorizeTool | runAgent
  | listRuns | run => exact kept_iff_migrated (Kept.refl _)
  | listMemoryPreferences actorId | setMemoryPreference actorId | publishAgent actorId
  | revokeAgentRelease actorId | decideGatewayApproval actorId =>
      refine kept_iff_migrated (kept_ensureSchema_bind hdb ?_)
      exact keeps_bind keptFrame (keeps_requireCurrentActor actorId) fun _ =>
        keeps_pure keptFrame _
  | me | getAgent =>
      refine kept_iff_migrated (kept_ensureSchema_bind hdb ?_)
      exact keeps_bind keptFrame keeps_currentUserId fun _ => keeps_pure keptFrame _
  | listAgents =>
      refine kept_iff_migrated (kept_ensureSchema_bind hdb ?_)
      dsimp only
      split
      · exact keeps_pure keptFrame _
      · exact keeps_bind keptFrame keeps_currentUserId fun _ => keeps_pure keptFrame _
  | listMcpConnections | runtimeConfigEventMetrics | discoverMcpConnectionTools
  | listWorkflowVersions | retireWorkflowVersion | setToolStatus | listRoles | listAdminUsers
  | listMemoryPolicies | setMemoryPolicy | createCustomRole | updateCustomRole | setUserRoles
  | setAgentStatus => exact kept_iff_migrated (hadmin _)

theorem controlPlaneStep_eq_some {request : ControlPlaneRequest} {after' : ControlPlaneTables} :
    controlPlaneStep env db request = some after'
      ↔ after (serve env request.caller request.endpoint) db = after' :=
  Option.some_inj

end Unprivileged

/-! ## Runs -/

/-- Requests without the token of an active administrator: each leaves the administrators' rows
and the status of every user as they are exactly when each is `Harmless`. The guarded endpoints
stop before their body, so the condition is about the two that do not ask. -/
theorem administered_rows_kept_iff (env : ControlPlaneEnv) (start : ControlPlaneDb)
    (requests : List ControlPlaneRequest)
    (h : Runs.Meets (controlPlaneStep env) (fun db request => request.Unprivileged env db)
      start.toControlPlaneTables requests) :
    (∀ before request later u v, requests = before ++ request :: later →
        Runs.run (controlPlaneStep env) start.toControlPlaneTables before = some u →
        controlPlaneStep env u request = some v → Kept u v)
      ↔ Runs.Meets (controlPlaneStep env) (fun db request => request.Harmless env db)
          start.toControlPlaneTables requests := by
  refine Runs.steps_iff_meets_under (I := Sound) (P := fun u _ v => Kept u v)
    (fun db request => ⟨_, rfl⟩) ?_ (fun u _ v hu hkept => hkept.sound hu) start.sound h
  intro db request v hdb hcaller hv
  rw [← controlPlaneStep_eq_some.mp hv]
  exact kept_iff_harmless hdb hcaller

section Example

/-- Local sessions; every hash is the text itself. -/
def exampleControlPlaneEnv : ControlPlaneEnv where
  authMode := .local
  hashSessionToken token := token
  hashtext _ := 0
  computeToolManifestHash tool _ := tool.version
  computeMcpConnectionHash transport _ := transport
  runnerToolId connection := connection.id

/-- An administrator, and a user who is logged in. -/
def exampleControlPlaneDb : ControlPlaneDb where
  tools := [⟨"orders", "http", "v1", "active", "v1", []⟩]
  userRoles := [("u_console", platformAdminRole)]
  users := [⟨"u_console", "active"⟩, ⟨"u_guest", "active"⟩]
  sessions := [{ tokenHash := "guest", userId := "u_guest" }]
  sound := ⟨by decide, by decide⟩

/-- A request with the token of `u_guest`. -/
def guestRequest (endpoint : Endpoint) : ControlPlaneRequest where
  caller := { authorization := some "Bearer guest" }
  endpoint := endpoint

/-- The guest asks for the administrator's role and for a tool; a user is put again. -/
def harmlessRequests : List ControlPlaneRequest :=
  [guestRequest (.setUserRoles "u_guest" "u_guest" [platformAdminRole]),
    guestRequest (.setToolStatus "orders" "u_guest" "disabled"),
    { endpoint := .setUser "u_guest" "active" }]

theorem administered_rows_kept_guest :
    ∃ request ∈ harmlessRequests, ∃ u v,
      controlPlaneStep exampleControlPlaneEnv u request = some v ∧ Kept u v := by
  refine ⟨_, List.mem_cons_self, exampleControlPlaneDb.toControlPlaneTables, _, rfl, ?_⟩
  exact (administered_rows_kept_iff exampleControlPlaneEnv exampleControlPlaneDb
    harmlessRequests (by decide +kernel)).mpr (by decide +kernel) [] _ _ _ _ rfl rfl rfl

/-- `PUT /users/u_console` without a token. -/
def disableConsole : ControlPlaneRequest where
  endpoint := .setUser "u_console" "disabled"

/-- Anyone disables the administrator. -/
theorem console_disabled_without_token :
    Runs.Meets (controlPlaneStep exampleControlPlaneEnv)
        (fun db request => request.Unprivileged exampleControlPlaneEnv db)
        exampleControlPlaneDb.toControlPlaneTables [disableConsole]
      ∧ ¬ ∀ before request later u v, [disableConsole] = before ++ request :: later →
          Runs.run (controlPlaneStep exampleControlPlaneEnv)
            exampleControlPlaneDb.toControlPlaneTables before = some u →
          controlPlaneStep exampleControlPlaneEnv u request = some v → Kept u v := by
  refine ⟨by decide +kernel, fun h => ?_⟩
  have hkept := h [] disableConsole [] _ _ rfl rfl rfl
  have hstatus := hkept.statuses "u_console" "active" (by decide)
  exact absurd hstatus (by decide +kernel)

end Example

end Aegora
