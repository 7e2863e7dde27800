import Aegora.AdmittedTools
import Aegora.Interleaving
import Aegora.ReleaseRequests

/-!
# Drafts between their checks and their writes

`create_agent` and `update_agent` check the tools of a draft against the roles of its owner in
one call to the database and write them in another, and other requests run between the two. A
draft that is admitted later has nothing but tools and scopes that the owner held in one and
the same state of the tables (`draft_tools_vetted`).
-/

namespace Aegora

open Py Interleaved

/-! ## The requests -/

/-- An item of `tools`, a name or an `AgentToolConfig`. -/
inductive AgentToolItem where
  | id (toolId : String)
  | config (toolId : String) (scope : Scope)

/-- The fields that `AgentCreateRequest` and `AgentUpdateRequest` share. -/
structure AgentDraftRequest where
  name : String
  icon : String := "robot"
  visibility : String := "private"
  members : List String := []
  systemPrompt : String := ""
  model : Option String := none
  tools : List AgentToolItem := []
  channels : List String := ["web_console"]

structure AgentCreateRequest extends AgentDraftRequest where
  ownerUserId : String

structure AgentUpdateRequest extends AgentDraftRequest where
  actorId : String

/-- `normalize_agent_tool_request`. -/
def normalizeAgentToolRequest (request : AgentDraftRequest) :
    Except ContextError (List (String × Scope)) :=
  mergeToolScopes (request.tools.map fun
    | .id toolId => (toolId, .obj [])
    | .config toolId scope => (toolId, scope.toJson))

/-- `normalize_agent_model`. -/
def normalizeAgentModel (model : Option String) : Option String :=
  let stripped := strip (model.getD "")
  if stripped = "" then none else some stripped

/-! ## `authz` -/

/-- `validate_configured_tools`. -/
def validateConfiguredTools (configuredTools currentCapabilities : List String) :
    Except String Unit :=
  let missing := configuredTools.filter (· ∉ currentCapabilities)
  if missing = [] then .ok ()
  else .error ("缺少工具权限: " ++ ", ".intercalate (sortedSet missing))

/-- `validate_tool_scope_subset`, of normalized scopes. -/
def validateToolScopeSubset (toolId : String) (requested : Scope) (allowed : Option Scope) :
    Except String Unit :=
  if ScopeWithin requested (allowed.getD []) then .ok ()
  else
    let keys := ", ".intercalate (sortedSet (requested.map Prod.fst))
    .error (toolId ++ " 工具 scope 超出角色授权范围: " ++ if keys = "" then "scope" else keys)

/-- The checks of a draft's tools against the tools and scopes of its owner. -/
def validateDraftTools (toolScopes ownerScopes : List (String × Scope)) : Except String Unit := do
  validateConfiguredTools (toolScopes.map Prod.fst) (ownerScopes.map Prod.fst)
  toolScopes.forM fun kv => validateToolScopeSubset kv.1 kv.2 (Dict.get? ownerScopes kv.1)

/-! ## The writes -/

namespace DraftTables

/-- What `ensure_schema` changes in these tables. -/
def migrate (db : DraftTables) : DraftTables :=
  { db with
    agents := db.agents.map fun row =>
      if row.visibility ∈ ["private", "public"] then row else { row with visibility := "private" } }

/-- `INSERT INTO users (id) … ON CONFLICT (id) DO NOTHING`. -/
def ensureUser (db : DraftTables) (userId : String) : DraftTables :=
  if db.users.any fun row => row.id = userId then db
  else { db with users := db.users ++ [⟨userId, "active"⟩] }

/-- The rows of a draft besides its row in `agents`. A tool that is gone violates a foreign key. -/
def insertDraft (db : DraftTables) (agentId : String) (members : List String)
    (toolScopes : List (String × Scope)) (channels : List String) (snapshot : AgentSnapshotRow) :
    Except AccessError DraftTables :=
  if ∀ kv ∈ toolScopes, ∃ row ∈ db.tools, row.id = kv.1 then
    let db := members.foldl ensureUser db
    .ok { db with
      agentMembers := db.agentMembers ++ members.map (agentId, ·)
      agentTools := db.agentTools
        ++ toolScopes.map fun kv => { agentId := agentId, toolId := kv.1, scopeJson := kv.2.toJson }
      channelBindings := db.channelBindings ++ (sortedSet channels).map (agentId, ·)
      snapshots := db.snapshots ++ [snapshot] }
  else .error (.http 503 "数据库不可用或未配置")

/-- `save_agent`. -/
def saveAgent (agentId : String) (request : AgentCreateRequest)
    (creatorPermissions : List String) (toolScopes : List (String × Scope)) (db : DraftTables) :
    Except AccessError DraftTables :=
  if ∃ row ∈ db.agents, row.id = agentId then .error (.http 503 "数据库不可用或未配置")
  else
    let members := sortedSet ((request.members.map strip).filter fun member =>
      member ≠ "" ∧ member ≠ request.ownerUserId)
    let row : AgentDraftRow :=
      { id := agentId
        enabled := true
        name := request.name
        icon := request.icon
        visibility := request.visibility
        ownerUserId := request.ownerUserId
        systemPrompt := request.systemPrompt
        model := normalizeAgentModel request.model }
    insertDraft { db with agents := db.agents ++ [row] } agentId
      (if request.visibility = "public" then [] else members) toolScopes request.channels
      ⟨agentId, 1, strings (sortedSet creatorPermissions)⟩

/-- `COALESCE(MAX(snapshot_version), 0) + 1`. -/
def nextSnapshotVersion (db : DraftTables) (agentId : String) : Int :=
  ((latestSnapshot db agentId).elim 0 AgentSnapshotRow.snapshotVersion) + 1

/-- `update_agent` of `db.py`. -/
def updateAgent (agentId : String) (request : AgentUpdateRequest)
    (ownerPermissions : List String) (toolScopes : List (String × Scope)) (db : DraftTables) :
    Except AccessError DraftTables :=
  if ¬ ∃ row ∈ db.agents, row.id = agentId then .error (.http 503 "数据库不可用或未配置")
  else
    let members := sortedSet ((request.members.map strip).filter (· ≠ ""))
    let row (old : AgentDraftRow) : AgentDraftRow :=
      { old with
        name := request.name
        icon := request.icon
        visibility := request.visibility
        systemPrompt := request.systemPrompt
        model := normalizeAgentModel request.model }
    insertDraft
      { db with
        agents := db.agents.map fun old => if old.id = agentId then row old else old
        agentMembers := db.agentMembers.filter fun kv => kv.1 ≠ agentId
        agentTools := db.agentTools.filter fun row => row.agentId ≠ agentId
        channelBindings := db.channelBindings.filter fun kv => kv.1 ≠ agentId }
      agentId (if request.visibility = "public" then [] else members) toolScopes request.channels
      ⟨agentId, db.nextSnapshotVersion agentId, strings (sortedSet ownerPermissions)⟩

end DraftTables

/-! ## The endpoints -/

namespace Drafts

/-- A call that reads. -/
def query {β : Type} (f : DraftTables → β) : Task DraftTables AccessError β := .read f

/-- A query that may raise in `normalize_scope`. -/
def queryScopes {β : Type} (f : DraftTables → Except ContextError β) :
    Task DraftTables AccessError β := do
  .ofExcept ((← query f).mapError .ofContext)

/-- `active_tool_ids` asks nothing when there are no tools. -/
def activeTools (configured : List String) : Task DraftTables AccessError (List String) :=
  if configured = [] then pure []
  else query fun db => activeToolIds db.toPlatformTables configured

def requireActiveTools (configured : List String) : Task DraftTables AccessError Unit := do
  let active ← activeTools configured
  .demand (sortedSet active = sortedSet configured) (.http 422 "包含未注册或已关闭工具")

def requireActive (userId : String) (failure : AccessError) :
    Task DraftTables AccessError Unit := do
  let active ← query fun db => userIsActive db.toPlatformTables userId
  .demand (active = true) failure

/-- `actor_id != owner and not user_has_role(actor_id, PLATFORM_ADMIN_ROLE)` is refused. -/
def requireOwnerOrAdmin (actorId ownerUserId : String) (failure : AccessError) :
    Task DraftTables AccessError Unit :=
  if actorId = ownerUserId then pure ()
  else do
    let admin ← query fun db => userHasRole db.toPlatformTables actorId platformAdminRole
    .demand (admin = true) failure

/-- A `PermissionError` is recorded and answered with 403. -/
def denied (message : String) : AccessError := .http 403 message (some message)

/-- `create_agent` of the user that the session names, with the drawn identifier. -/
def createAgent (agentId actorId : String) (request : AgentCreateRequest) :
    Task DraftTables AccessError (List String) := do
  let toolScopes ← .ofExcept
    ((normalizeAgentToolRequest request.toAgentDraftRequest).mapError .ofContext)
  let configuredTools := toolScopes.map Prod.fst
  .write fun db => .ok db.migrate
  requireActive actorId (.http 403 "当前用户不可用")
  requireOwnerOrAdmin actorId request.ownerUserId (.http 403 "当前用户不能代替他人创建 Agent")
  requireActive request.ownerUserId (.http 403 "创建者不可用" (some "owner inactive"))
  requireActiveTools configuredTools
  let roleScopes ← queryScopes fun db =>
    getUserRoleToolScopes db.toPlatformTables request.ownerUserId
  .demand (roleScopes ≠ []) (.http 403 "创建者缺少角色工具权限")
  .ofExcept ((validateDraftTools toolScopes roleScopes).mapError denied)
  .write (DraftTables.saveAgent agentId request (roleScopes.map Prod.fst) toolScopes)
  return sortedSet configuredTools

/-- `update_agent` of the user that the session names. -/
def updateAgent (agentId actorId : String) (request : AgentUpdateRequest) :
    Task DraftTables AccessError (List String) := do
  let toolScopes ← .ofExcept
    ((normalizeAgentToolRequest request.toAgentDraftRequest).mapError .ofContext)
  let configuredTools := toolScopes.map Prod.fst
  .write fun db => .ok db.migrate
  .demand (actorId = request.actorId) (.http 403 "请求用户与登录用户不一致")
  requireActive actorId (.http 403 "当前用户不可用")
  match ← queryScopes fun db => loadAgent db agentId with
  | none => .raised (.http 404 "Agent 不存在")
  | some agent => do
      requireOwnerOrAdmin actorId agent.ownerUserId (.http 403 "当前用户不能管理该 Agent")
      requireActiveTools configuredTools
      let ownerScopes ← queryScopes fun db =>
        getUserRoleToolScopes db.toPlatformTables agent.ownerUserId
      .ofExcept ((validateDraftTools toolScopes ownerScopes).mapError denied)
      let members := if request.visibility = "public" then []
        else request.members.filter (· ≠ agent.ownerUserId)
      .write (DraftTables.updateAgent agentId { request with members := members }
        (ownerScopes.map Prod.fst) toolScopes)
      return sortedSet configuredTools

end Drafts

inductive DraftRequest where
  | create (agentId actorId : String) (request : AgentCreateRequest)
  | update (agentId actorId : String) (request : AgentUpdateRequest)

def DraftRequest.start : DraftRequest → Task DraftTables AccessError (List String)
  | .create agentId actorId request => Drafts.createAgent agentId actorId request
  | .update agentId actorId request => Drafts.updateAgent agentId actorId request

/-- What else happens to the tables. -/
inductive DraftChange where
  /-- anything to tools, connections, users and roles -/
  | platform (tables : PlatformTables)
  /-- `update_agent_status` -/
  | setStatus (agentId : String) (enabled : Bool)
  /-- the `DELETE FROM agent_tools` of `remove_tool_everywhere` -/
  | removeTool (toolId : String)

def DraftTables.change (db : DraftTables) : DraftChange → Option DraftTables
  | .platform tables => some { db with toPlatformTables := tables }
  | .setStatus agentId enabled =>
      some { db with
        agents := db.agents.map fun row =>
          if row.id = agentId then { row with enabled := enabled } else row }
  | .removeTool toolId =>
      some { db with agentTools := db.agentTools.filter fun row => row.toolId ≠ toolId }

/-- A request arrives or makes its next call, or something else changes. -/
abbrev draftsStep := Pool.step DraftRequest.start DraftTables.change

/-! ## What the checks establish -/

/-- The roles of the owner grant the tools, with their scopes. -/
def HeldBy (db : PlatformTables) (ownerUserId : String) (toolScopes : List (String × Scope)) :
    Prop :=
  ∀ kv ∈ toolScopes, Granted db ownerUserId kv.1 ∧ WithinGrants db ownerUserId kv.1 kv.2

/-- The tools are active. -/
def AllActive (db : PlatformTables) (toolIds : List String) : Prop :=
  ∀ toolId ∈ toolIds, ∃ row ∈ db.tools, row.id = toolId ∧ toolRowActive db row = true

/-- What a draft is configured with was held and active, and the snapshot has the tools that
the owner held then. -/
structure Vetted (seen : Set DraftTables) (ownerUserId : String) (permissions : List String)
    (toolScopes : List (String × Scope)) : Prop where
  held : ∃ u ∈ seen,
    (∀ toolId, toolId ∈ permissions ↔ Granted u.toPlatformTables ownerUserId toolId)
      ∧ HeldBy u.toPlatformTables ownerUserId toolScopes
  active : toolScopes ≠ [] →
    ∃ u ∈ seen, AllActive u.toPlatformTables (toolScopes.map Prod.fst)

theorem Vetted.mono {seen more : Set DraftTables} {ownerUserId : String}
    {permissions : List String} {toolScopes : List (String × Scope)} (hsub : seen ⊆ more)
    (h : Vetted seen ownerUserId permissions toolScopes) :
    Vetted more ownerUserId permissions toolScopes where
  held := by
    obtain ⟨u, hu, hheld⟩ := h.held
    exact ⟨u, hsub hu, hheld⟩
  active := by
    intro hne
    obtain ⟨u, hu, hactive⟩ := h.active hne
    exact ⟨u, hsub hu, hactive⟩

theorem of_forM_eq_ok {ε β : Type} {f : β → Except ε Unit} {xs : List β}
    (h : xs.forM f = .ok ()) : ∀ x ∈ xs, f x = .ok () := by
  induction xs with
  | nil => exact fun x hx => (nomatch hx)
  | cons x xs ih =>
      obtain ⟨_, hx, hrest⟩ := bind_eq_ok.mp h
      exact List.forall_mem_cons.mpr ⟨hx, ih hrest⟩

/-- The checks pass only what the scopes of the owner cover. -/
theorem validateDraftTools_ok {toolScopes ownerScopes : List (String × Scope)}
    (h : validateDraftTools toolScopes ownerScopes = .ok ()) :
    ∀ kv ∈ toolScopes, kv.1 ∈ ownerScopes.map Prod.fst
      ∧ ScopeWithin kv.2 ((Dict.get? ownerScopes kv.1).getD []) := by
  obtain ⟨_, htools, hscopes⟩ := bind_eq_ok.mp h
  intro kv hkv
  constructor
  · unfold validateConfiguredTools at htools
    dsimp only at htools
    split at htools
    · rename_i hmissing
      have hin := List.filter_eq_nil_iff.mp hmissing kv.1 (List.mem_map_of_mem hkv)
      simpa using hin
    · cases htools
  · have hscope := of_forM_eq_ok hscopes kv hkv
    unfold validateToolScopeSubset at hscope
    split at hscope
    · rename_i hwithin
      exact hwithin
    · cases hscope

theorem heldBy_of_valid {db : PlatformTables} {ownerUserId : String}
    {toolScopes ownerScopes : List (String × Scope)}
    (hscopes : getUserRoleToolScopes db ownerUserId = .ok ownerScopes)
    (h : validateDraftTools toolScopes ownerScopes = .ok ()) :
    HeldBy db ownerUserId toolScopes := by
  intro kv hkv
  obtain ⟨hin, hwithin⟩ := validateDraftTools_ok h kv hkv
  refine ⟨(ControlPlane.mem_roleTools hscopes kv.1).mp hin, fun entry hentry value hvalue => ?_⟩
  exact ((getUserRoleToolScopes_spec hscopes kv.1).2 entry.1 value).mp
    (hwithin entry hentry value hvalue)

theorem vetted_of_checks {seen more : Set DraftTables} {ownerUserId : String}
    {toolScopes ownerScopes : List (String × Scope)} (hsub : seen ⊆ more)
    (hactive : toolScopes.map Prod.fst ≠ [] →
      ∃ u ∈ seen, AllActive u.toPlatformTables (toolScopes.map Prod.fst))
    (hscopes : ∃ u ∈ more, getUserRoleToolScopes u.toPlatformTables ownerUserId = .ok ownerScopes)
    (hvalid : validateDraftTools toolScopes ownerScopes = .ok ()) :
    Vetted more ownerUserId (ownerScopes.map Prod.fst) toolScopes where
  held := by
    obtain ⟨u, hu, hscopes⟩ := hscopes
    exact ⟨u, hu, ControlPlane.mem_roleTools hscopes, heldBy_of_valid hscopes hvalid⟩
  active := by
    intro hne
    obtain ⟨u, hu, hall⟩ := hactive (by simpa using hne)
    exact ⟨u, hsub hu, hall⟩

/-- A loaded agent is a row, of the same owner. -/
theorem loadAgent_row {db : DraftTables} {agentId : String} {agent : LoadedAgent}
    (h : loadAgent db agentId = .ok (some agent)) :
    ∃ row ∈ db.agents, row.id = agentId ∧ row.ownerUserId = agent.ownerUserId := by
  unfold loadAgent at h
  split at h
  · cases h
  · rename_i row hfind
    obtain ⟨_, -, h⟩ := bind_eq_ok.mp h
    obtain ⟨_, -, h⟩ := bind_eq_ok.mp h
    cases h
    exact ⟨row, List.mem_of_find?_eq_some hfind, by simpa using List.find?_some hfind, rfl⟩

/-- A write of a draft, of what was vetted in states that came before it. -/
inductive DraftWritten (seen : Set DraftTables) (db db' : DraftTables) : Prop where
  | migrated (h : db' = db.migrate)
  | saved (agentId : String) (request : AgentCreateRequest) (permissions : List String)
      (toolScopes : List (String × Scope))
      (vetted : Vetted seen request.ownerUserId permissions toolScopes)
      (h : DraftTables.saveAgent agentId request permissions toolScopes db = .ok db')
  | updated (agentId : String) (request : AgentUpdateRequest) (permissions : List String)
      (toolScopes : List (String × Scope)) (ownerUserId : String)
      (owned : ∃ u ∈ seen, ∃ row ∈ u.agents, row.id = agentId ∧ row.ownerUserId = ownerUserId)
      (vetted : Vetted seen ownerUserId permissions toolScopes)
      (h : DraftTables.updateAgent agentId request permissions toolScopes db = .ok db')

theorem DraftWritten.mono {seen more : Set DraftTables} {db db' : DraftTables}
    (hsub : seen ⊆ more) (h : DraftWritten seen db db') : DraftWritten more db db' := by
  cases h with
  | migrated h => exact .migrated h
  | saved agentId request permissions toolScopes vetted h =>
      exact .saved agentId request permissions toolScopes (vetted.mono hsub) h
  | updated agentId request permissions toolScopes ownerUserId owned vetted h =>
      obtain ⟨u, hu, howned⟩ := owned
      exact .updated agentId request permissions toolScopes ownerUserId ⟨u, hsub hu, howned⟩
        (vetted.mono hsub) h

/-! ## The calls of the endpoints -/

section Calls

open Interleaved.Task

variable {W : Set DraftTables → DraftTables → DraftTables → Prop} {seen : Set DraftTables}

theorem always_query {β : Type} (f : DraftTables → β) :
    (Drafts.query f).Always W (fun seen b => ∃ u ∈ seen, f u = b) seen :=
  always_read_seen f

theorem always_queryScopes {β : Type} (f : DraftTables → Except ContextError β) :
    (Drafts.queryScopes f).Always W (fun seen b => ∃ u ∈ seen, f u = .ok b) seen := by
  refine always_bind (always_query f) fun more result _ hresult => ?_
  obtain ⟨u, hu, rfl⟩ := hresult
  cases hf : f u with
  | ok b => exact ⟨u, hu, hf⟩
  | error e => trivial

theorem always_activeTools (configured : List String) :
    (Drafts.activeTools configured).Always W (fun seen active => configured ≠ [] →
      ∃ u ∈ seen, activeToolIds u.toPlatformTables configured = active) seen := by
  unfold Drafts.activeTools
  split
  · rename_i hnil
    exact fun hne => absurd hnil hne
  · exact fun s _ => ⟨s, Set.mem_insert s seen, rfl⟩

theorem always_requireActiveTools (configured : List String) :
    (Drafts.requireActiveTools configured).Always W (fun seen _ => configured ≠ [] →
      ∃ u ∈ seen, AllActive u.toPlatformTables configured) seen := by
  refine always_bind (always_activeTools configured) fun more active _ hactive => ?_
  refine always_demand fun hsame hne => ?_
  obtain ⟨u, hu, rfl⟩ := hactive hne
  refine ⟨u, hu, fun toolId hin => ?_⟩
  have hmem := mem_sortedSet.mpr hin
  rw [← hsame, mem_sortedSet] at hmem
  exact (mem_activeToolIds.mp hmem).2

theorem always_requireActive (userId : String) (failure : AccessError) :
    (Drafts.requireActive userId failure).Always W (fun _ _ => True) seen :=
  always_bind (always_query _) fun _ _ _ _ => always_demand fun _ => trivial

theorem always_requireOwnerOrAdmin (actorId ownerUserId : String) (failure : AccessError) :
    (Drafts.requireOwnerOrAdmin actorId ownerUserId failure).Always W (fun _ _ => True) seen := by
  unfold Drafts.requireOwnerOrAdmin
  split
  · exact trivial
  · exact always_bind (always_query _) fun _ _ _ _ => always_demand fun _ => trivial

theorem always_createAgent (agentId actorId : String) (request : AgentCreateRequest) :
    (Drafts.createAgent agentId actorId request).Always DraftWritten (fun _ _ => True) seen := by
  unfold Drafts.createAgent
  refine always_bind (always_ofExcept (Q := fun _ _ => True) fun _ _ => trivial)
    fun seen toolScopes _ _ => ?_
  refine always_bind (always_write fun s s' h => .migrated (Except.ok.inj h).symm)
    fun seen _ _ _ => ?_
  refine always_bind (always_requireActive _ _) fun seen _ _ _ => ?_
  refine always_bind (always_requireOwnerOrAdmin _ _ _) fun seen _ _ _ => ?_
  refine always_bind (always_requireActive _ _) fun seen _ _ _ => ?_
  refine always_bind (always_requireActiveTools _) fun seen₁ _ _ hactive => ?_
  refine always_bind (always_queryScopes _) fun seen₂ roleScopes hsub₂ hscopes => ?_
  refine always_bind (always_demand (Q := fun _ _ => True) fun _ => trivial)
    fun seen₃ _ hsub₃ _ => ?_
  refine always_bind
    (always_ofExcept (Q := fun _ _ => validateDraftTools toolScopes roleScopes = .ok ())
      fun _ h => mapError_eq_ok.mp h) fun seen₄ _ hsub₄ hvalid => ?_
  refine always_bind (always_write fun s s' h => ?_) fun _ _ _ _ => trivial
  have hvetted : Vetted seen₂ request.ownerUserId (roleScopes.map Prod.fst) toolScopes :=
    vetted_of_checks hsub₂ hactive hscopes hvalid
  exact .saved agentId request _ _
    (hvetted.mono (hsub₃.trans (hsub₄.trans (Set.subset_insert _ _)))) h

theorem always_updateAgent (agentId actorId : String) (request : AgentUpdateRequest) :
    (Drafts.updateAgent agentId actorId request).Always DraftWritten (fun _ _ => True) seen := by
  unfold Drafts.updateAgent
  refine always_bind (always_ofExcept (Q := fun _ _ => True) fun _ _ => trivial)
    fun seen toolScopes _ _ => ?_
  refine always_bind (always_write fun s s' h => .migrated (Except.ok.inj h).symm)
    fun seen _ _ _ => ?_
  refine always_bind (always_demand (Q := fun _ _ => True) fun _ => trivial)
    fun seen _ _ _ => ?_
  refine always_bind (always_requireActive _ _) fun seen _ _ _ => ?_
  refine always_bind (always_queryScopes _) fun seen₀ found _ hfound => ?_
  cases found with
  | none => trivial
  | some agent =>
      dsimp only
      refine always_bind (always_requireOwnerOrAdmin _ _ _) fun seen₀' _ hsub₀ _ => ?_
      refine always_bind (always_requireActiveTools _) fun seen₁ _ hsub₁ hactive => ?_
      refine always_bind (always_queryScopes _) fun seen₂ ownerScopes hsub₂ hscopes => ?_
      refine always_bind
        (always_ofExcept (Q := fun _ _ => validateDraftTools toolScopes ownerScopes = .ok ())
          fun _ h => mapError_eq_ok.mp h) fun seen₃ _ hsub₃ hvalid => ?_
      refine always_bind (always_write fun s s' h => ?_) fun _ _ _ _ => trivial
      have hvetted : Vetted seen₂ agent.ownerUserId (ownerScopes.map Prod.fst) toolScopes :=
        vetted_of_checks hsub₂ hactive hscopes hvalid
      obtain ⟨u, hu, hload⟩ := hfound
      obtain ⟨row, hrow, hid, howner⟩ := loadAgent_row hload
      have hlast := hsub₃.trans (Set.subset_insert s seen₃)
      refine .updated agentId _ _ _ agent.ownerUserId ⟨u, ?_, row, hrow, hid, howner⟩
        (hvetted.mono hlast) h
      exact hlast (hsub₂ (hsub₁ (hsub₀ hu)))

theorem always_start (request : DraftRequest) :
    request.start.Always DraftWritten (fun _ _ => True) seen := by
  cases request with
  | create agentId actorId request => exact always_createAgent agentId actorId request
  | update agentId actorId request => exact always_updateAgent agentId actorId request

end Calls

/-! ## The tables -/

/-- Each draft, with its owner. -/
def DraftTables.owners (db : DraftTables) : List (String × String) :=
  db.agents.map fun row => (row.id, row.ownerUserId)

/-- The rows of a draft are what was vetted, and its latest snapshot is of the same check. -/
def VettedDraft (seen : Set DraftTables) (db : DraftTables) (agentId ownerUserId : String) :
    Prop :=
  ∃ permissions toolScopes, Vetted seen ownerUserId permissions toolScopes
    ∧ (latestSnapshot db agentId).map AgentSnapshotRow.permissionJson
      = some (strings (sortedSet permissions))
    ∧ ∀ row ∈ db.agentTools, row.agentId = agentId →
      ∃ kv ∈ toolScopes, row.toolId = kv.1 ∧ row.scopeJson = kv.2.toJson

structure DraftsVetted (seen : Set DraftTables) (db : DraftTables) : Prop where
  ids : (db.owners.map Prod.fst).Nodup
  tools : ∀ row ∈ db.agentTools, row.agentId ∈ db.owners.map Prod.fst
  snapshots : ∀ row ∈ db.snapshots, row.agentId ∈ db.owners.map Prod.fst
  kept : ∀ u ∈ seen, u.owners ⊆ db.owners
  drafts : ∀ kv ∈ db.owners, VettedDraft seen db kv.1 kv.2

section Tables

variable {seen : Set DraftTables} {db db' : DraftTables}

/-- A change that leaves the drafts, their owners and their snapshots. -/
theorem draftsVetted_frame (h : DraftsVetted seen db) (howners : db'.owners = db.owners)
    (htools : db'.agentTools ⊆ db.agentTools) (hsnapshots : db'.snapshots = db.snapshots) :
    DraftsVetted (insert db' seen) db' where
  ids := by rw [howners]; exact h.ids
  tools := by
    rw [howners]
    exact fun row hrow => h.tools row (htools hrow)
  snapshots := by
    rw [howners, hsnapshots]
    exact h.snapshots
  kept := by
    rintro u (rfl | hu)
    · exact fun _ h => h
    · rw [howners]
      exact h.kept u hu
  drafts := by
    intro kv hkv
    rw [howners] at hkv
    obtain ⟨permissions, toolScopes, hvetted, hlatest, hrows⟩ := h.drafts kv hkv
    refine ⟨permissions, toolScopes, hvetted.mono (Set.subset_insert db' seen), ?_,
      fun row hrow => hrows row (htools hrow)⟩
    unfold latestSnapshot at hlatest ⊢
    rwa [hsnapshots]

theorem owners_map {f : AgentDraftRow → AgentDraftRow}
    (h : ∀ row, (f row).id = row.id ∧ (f row).ownerUserId = row.ownerUserId) :
    DraftTables.owners { db with agents := db.agents.map f } = db.owners := by
  unfold DraftTables.owners
  rw [List.map_map]
  exact List.map_congr_left fun row _ => Prod.ext (h row).1 (h row).2

theorem draftsVetted_change {change : DraftChange} (h : DraftsVetted seen db)
    (hchange : db.change change = some db') : DraftsVetted (insert db' seen) db' := by
  cases change with
  | platform tables =>
      cases hchange
      exact draftsVetted_frame h rfl (fun _ h => h) rfl
  | setStatus agentId enabled =>
      cases hchange
      refine draftsVetted_frame h (owners_map fun row => ?_) (fun _ h => h) rfl
      split <;> exact ⟨rfl, rfl⟩
  | removeTool toolId =>
      cases hchange
      exact draftsVetted_frame h rfl (List.filter_subset_self _) rfl

/-! ### Writing a draft -/

/-- The new snapshot is the latest of its draft, and that of no other. -/
theorem latestSnapshot_append {agentId : String} {json : Json}
    (h : db'.snapshots = db.snapshots ++ [⟨agentId, db.nextSnapshotVersion agentId, json⟩])
    (other : String) :
    (latestSnapshot db' other).map AgentSnapshotRow.permissionJson
      = if other = agentId then some json
        else (latestSnapshot db other).map AgentSnapshotRow.permissionJson := by
  unfold latestSnapshot
  rw [h, List.filter_append]
  by_cases hother : other = agentId
  · subst hother
    rw [if_pos rfl, List.filter_singleton, decide_eq_true rfl, cond_true, List.foldl_append]
    unfold DraftTables.nextSnapshotVersion latestSnapshot
    dsimp only [List.foldl_cons, List.foldl_nil]
    split
    · rename_i best hbest
      rw [hbest, Option.elim_some, if_pos (Int.lt_succ best.snapshotVersion)]
      rfl
    · rfl
  · rw [if_neg hother, List.filter_singleton, decide_eq_false (Ne.symm hother), cond_false,
      List.append_nil]

/-- A draft is written: its owner is the same or new, its tools are those vetted, and the
snapshot is the next. -/
theorem draftsVetted_written (agentId : String) {ownerUserId : String}
    {permissions : List String} {toolScopes : List (String × Scope)} (h : DraftsVetted seen db)
    (hvetted : Vetted seen ownerUserId permissions toolScopes)
    (hids : (db'.owners.map Prod.fst).Nodup) (hsub : db.owners ⊆ db'.owners)
    (hnew : ∀ kv ∈ db'.owners, kv ∈ db.owners ∨ kv = (agentId, ownerUserId))
    (hin : (agentId, ownerUserId) ∈ db'.owners)
    (htools : ∀ row ∈ db'.agentTools, row.agentId ≠ agentId ∧ row ∈ db.agentTools
      ∨ row.agentId = agentId ∧ ∃ kv ∈ toolScopes, row.toolId = kv.1 ∧ row.scopeJson = kv.2.toJson)
    (hsnapshots : db'.snapshots = db.snapshots
      ++ [⟨agentId, db.nextSnapshotVersion agentId, strings (sortedSet permissions)⟩]) :
    DraftsVetted (insert db' seen) db' where
  ids := hids
  tools := by
    intro row hrow
    rcases htools row hrow with ⟨-, hold⟩ | ⟨hid, -⟩
    · exact List.map_subset Prod.fst hsub (h.tools row hold)
    · exact hid ▸ List.mem_map_of_mem (f := Prod.fst) hin
  snapshots := by
    rw [hsnapshots]
    intro row hrow
    rcases List.mem_append.mp hrow with hold | hlast
    · exact List.map_subset Prod.fst hsub (h.snapshots row hold)
    · rw [List.mem_singleton.mp hlast]
      exact List.mem_map_of_mem (f := Prod.fst) hin
  kept := by
    rintro u (rfl | hu)
    · exact fun _ h => h
    · exact List.Subset.trans (h.kept u hu) hsub
  drafts := by
    intro kv hkv
    have hlatest := latestSnapshot_append hsnapshots kv.1
    by_cases hid : kv.1 = agentId
    · have hself : kv = (agentId, ownerUserId) :=
        List.inj_on_of_nodup_map hids hkv hin hid
      subst hself
      rw [if_pos rfl] at hlatest
      refine ⟨permissions, toolScopes, hvetted.mono (Set.subset_insert db' seen), hlatest,
        fun row hrow hrowId => ?_⟩
      rcases htools row hrow with ⟨hne, -⟩ | ⟨-, hrow⟩
      · exact absurd hrowId hne
      · exact hrow
    · rcases hnew kv hkv with hold | rfl
      · obtain ⟨others, otherScopes, hother, hbefore, hrows⟩ := h.drafts kv hold
        rw [if_neg hid, hbefore] at hlatest
        refine ⟨others, otherScopes, hother.mono (Set.subset_insert db' seen), hlatest,
          fun row hrow hrowId => ?_⟩
        rcases htools row hrow with ⟨-, hrow⟩ | ⟨hrowAgent, -⟩
        · exact hrows row hrow hrowId
        · exact absurd (hrowId.symm.trans hrowAgent) hid
      · exact absurd rfl hid

theorem ensureUsers_frame (members : List String) :
    (members.foldl DraftTables.ensureUser db).agents = db.agents
      ∧ (members.foldl DraftTables.ensureUser db).agentTools = db.agentTools
      ∧ (members.foldl DraftTables.ensureUser db).snapshots = db.snapshots := by
  induction members generalizing db with
  | nil => exact ⟨rfl, rfl, rfl⟩
  | cons member members ih =>
      obtain ⟨hagents, htools, hsnapshots⟩ := @ih (db.ensureUser member)
      rw [List.foldl_cons, hagents, htools, hsnapshots]
      unfold DraftTables.ensureUser
      split <;> exact ⟨rfl, rfl, rfl⟩

theorem insertDraft_ok {agentId : String} {members channels : List String}
    {toolScopes : List (String × Scope)} {snapshot : AgentSnapshotRow}
    (h : db.insertDraft agentId members toolScopes channels snapshot = .ok db') :
    db'.agents = db.agents ∧ db'.snapshots = db.snapshots ++ [snapshot]
      ∧ db'.agentTools = db.agentTools ++ toolScopes.map fun kv =>
        { agentId := agentId, toolId := kv.1, scopeJson := kv.2.toJson } := by
  unfold DraftTables.insertDraft at h
  split at h
  · cases h
    obtain ⟨hagents, htools, hsnapshots⟩ := @ensureUsers_frame db members
    exact ⟨hagents, congrArg (· ++ [snapshot]) hsnapshots, congrArg (· ++ _) htools⟩
  · cases h

theorem nextSnapshotVersion_of_fresh {agentId : String}
    (h : ∀ row ∈ db.snapshots, row.agentId ≠ agentId) : db.nextSnapshotVersion agentId = 1 := by
  have hnone : db.snapshots.filter (fun row => row.agentId = agentId) = [] :=
    List.filter_eq_nil_iff.mpr fun row hrow => by simpa using h row hrow
  unfold DraftTables.nextSnapshotVersion latestSnapshot
  rw [hnone]
  rfl

theorem draftsVetted_saved {agentId : String} {request : AgentCreateRequest}
    {permissions : List String} {toolScopes : List (String × Scope)} (h : DraftsVetted seen db)
    (hvetted : Vetted seen request.ownerUserId permissions toolScopes)
    (hsave : DraftTables.saveAgent agentId request permissions toolScopes db = .ok db') :
    DraftsVetted (insert db' seen) db' := by
  unfold DraftTables.saveAgent at hsave
  split at hsave
  · cases hsave
  rename_i hnew
  obtain ⟨hagents, hsnapshots, htools⟩ := insertDraft_ok hsave
  have hfresh : agentId ∉ db.owners.map Prod.fst := by
    unfold DraftTables.owners
    rw [List.map_map]
    intro hin
    obtain ⟨row, hrow, hid⟩ := List.mem_map.mp hin
    exact hnew ⟨row, hrow, hid⟩
  have howners : db'.owners = db.owners ++ [(agentId, request.ownerUserId)] := by
    unfold DraftTables.owners
    rw [hagents, List.map_append]
    rfl
  refine draftsVetted_written agentId h hvetted ?_ ?_ ?_ ?_ (fun row hrow => ?_) ?_
  · rw [howners, List.map_append, List.nodup_append]
    refine ⟨h.ids, List.nodup_singleton _, ?_⟩
    rintro a ha b hb rfl
    rw [List.mem_singleton.mp hb] at ha
    exact hfresh ha
  · rw [howners]
    exact List.subset_append_left _ _
  · rw [howners]
    intro kv hkv
    exact (List.mem_append.mp hkv).imp_right List.mem_singleton.mp
  · rw [howners]
    exact List.mem_append_right _ (List.mem_singleton.mpr rfl)
  · rw [htools] at hrow
    rcases List.mem_append.mp hrow with hold | hadded
    · exact .inl ⟨fun hid => hfresh (hid ▸ h.tools row hold), hold⟩
    · obtain ⟨kv, hkv, rfl⟩ := List.mem_map.mp hadded
      exact .inr ⟨rfl, kv, hkv, rfl, rfl⟩
  · have hversion := @nextSnapshotVersion_of_fresh db agentId fun row hrow hid => by
      rw [← hid] at hfresh
      exact hfresh (h.snapshots row hrow)
    rw [hversion]
    exact hsnapshots

theorem draftsVetted_updated {agentId ownerUserId : String} {request : AgentUpdateRequest}
    {permissions : List String} {toolScopes : List (String × Scope)} (h : DraftsVetted seen db)
    (howned : ∃ u ∈ seen, ∃ row ∈ u.agents, row.id = agentId ∧ row.ownerUserId = ownerUserId)
    (hvetted : Vetted seen ownerUserId permissions toolScopes)
    (hupdate : DraftTables.updateAgent agentId request permissions toolScopes db = .ok db') :
    DraftsVetted (insert db' seen) db' := by
  unfold DraftTables.updateAgent at hupdate
  split at hupdate
  · cases hupdate
  obtain ⟨hagents, hsnapshots, htools⟩ := insertDraft_ok hupdate
  have howners : db'.owners = db.owners := by
    refine Eq.trans (congrArg (List.map _) hagents) (owners_map fun row => ?_)
    split <;> exact ⟨rfl, rfl⟩
  refine draftsVetted_written agentId h hvetted ?_ ?_ ?_ ?_ (fun row hrow => ?_) hsnapshots
  · rw [howners]
    exact h.ids
  · rw [howners]
    exact fun _ h => h
  · rw [howners]
    exact fun kv hkv => .inl hkv
  · obtain ⟨u, hu, row, hrow, rfl, rfl⟩ := howned
    rw [howners]
    exact h.kept u hu (List.mem_map_of_mem hrow)
  · rw [htools] at hrow
    rcases List.mem_append.mp hrow with hold | hadded
    · obtain ⟨hold, hne⟩ := List.mem_filter.mp hold
      exact .inl ⟨by simpa using hne, hold⟩
    · obtain ⟨kv, hkv, rfl⟩ := List.mem_map.mp hadded
      exact .inr ⟨rfl, kv, hkv, rfl, rfl⟩

theorem draftsVetted_write (h : DraftsVetted seen db) (hwrite : DraftWritten seen db db') :
    DraftsVetted (insert db' seen) db' := by
  cases hwrite with
  | migrated hmigrated =>
      subst hmigrated
      refine draftsVetted_frame h (owners_map fun row => ?_) (fun _ h => h) rfl
      split <;> exact ⟨rfl, rfl⟩
  | saved agentId request permissions toolScopes vetted hsave =>
      exact draftsVetted_saved h vetted hsave
  | updated agentId request permissions toolScopes ownerUserId owned vetted hupdate =>
      exact draftsVetted_updated h owned vetted hupdate

end Tables

/-- In every order of the calls of any requests, with anything done to users, roles, tools and
connections in between. -/
theorem draftsVetted_run {platform : PlatformTables}
    {turns : List (Interleaved.Turn DraftRequest DraftChange)}
    {p : Pool DraftTables AccessError (List String)}
    (h : Runs.run draftsStep ⟨{ toPlatformTables := platform }, []⟩ turns = some p) :
    DraftsVetted
      (Seen DraftRequest.start DraftTables.change ⟨{ toPlatformTables := platform }, []⟩ turns)
      p.state := by
  refine pool_invariant (fun _ _ _ _ hsub hwrite => hwrite.mono hsub)
    (fun _ request => always_start request) draftsVetted_write draftsVetted_change ?_ h
  refine ⟨List.nodup_nil, fun row hrow => (nomatch hrow), fun row hrow => (nomatch hrow), ?_,
    fun kv hkv => (nomatch hkv)⟩
  rintro u rfl
  exact fun _ h => h

/-! ## What admission makes of it -/

section Admission

variable {db : DraftTables} {agentId : String} {agent : LoadedAgent}

theorem setOf_strings (texts : List String) : setOf (strings texts) = .ok (texts.map .str) := by
  unfold setOf
  have hplain : ((texts.map Json.str).any fun item =>
      item.asList?.isSome || item.asDict?.isSome) = false := by
    rw [List.any_map, List.any_eq_false]
    exact fun text _ => Bool.false_ne_true
  show (if (texts.map Json.str).any _ then _ else _) = _
  rw [hplain]
  rfl

/-- What `load_agent` reads besides the row. -/
theorem loadAgent_reads (h : loadAgent db agentId = .ok (some agent)) :
    agentToolScopes db agentId = .ok agent.toolScopes
      ∧ ∀ json, (latestSnapshot db agentId).map AgentSnapshotRow.permissionJson = some json →
        setOf json = .ok agent.snapshotTools := by
  unfold loadAgent at h
  split at h
  · cases h
  · obtain ⟨toolScopes, hscopes, h⟩ := bind_eq_ok.mp h
    obtain ⟨snapshotTools, hsnapshot, h⟩ := bind_eq_ok.mp h
    cases h
    refine ⟨hscopes, fun json hjson => ?_⟩
    obtain ⟨latest, hlatest, rfl⟩ := Option.map_eq_some_iff.mp hjson
    rw [hlatest] at hsnapshot
    exact hsnapshot

theorem mem_of_mem_ofEntries {β : Type} {entries : List (String × β)} {kv : String × β}
    (h : kv ∈ Dict.ofEntries entries) : kv ∈ entries := by
  have hget : Dict.get? (Dict.ofEntries entries) kv.1 = some kv.2 :=
    (lookup_eq_some_iff_mem (Dict.nodup_keys_ofEntries entries)).mpr h
  rw [Dict.get?_ofEntries] at hget
  exact List.mem_reverse.mp (Dict.mem_of_get? hget)

/-- A scope that is loaded is that of an enabled row. -/
theorem mem_agentToolScopes {toolScopes : List (String × Scope)}
    (h : agentToolScopes db agentId = .ok toolScopes) {kv : String × Scope}
    (hkv : kv ∈ toolScopes) : ∃ row ∈ db.agentTools, row.agentId = agentId ∧ row.toolId = kv.1
      ∧ normalizeScope row.scopeJson = .ok kv.2 := by
  obtain ⟨scopes, hscopes, h⟩ := bind_eq_ok.mp h
  cases h
  obtain ⟨row, hrow, hscope⟩ := mem_of_mapM_eq_ok hscopes (mem_of_mem_ofEntries hkv)
  obtain ⟨scope, hnormal, hscope⟩ := bind_eq_ok.mp hscope
  cases hscope
  obtain ⟨hrow, hwhere⟩ := List.mem_filter.mp hrow
  rw [Bool.and_eq_true, decide_eq_true_eq] at hwhere
  exact ⟨row, hrow, hwhere.1, rfl, hnormal⟩

theorem heldBy_sorted {platform : PlatformTables} {ownerUserId : String}
    {toolScopes loaded : List (String × Scope)} (h : HeldBy platform ownerUserId toolScopes)
    (hloaded : ∀ kv ∈ loaded, ∃ old ∈ toolScopes, kv.1 = old.1
      ∧ kv.2 = old.2.map fun entry => (entry.1, sortedSet entry.2)) :
    HeldBy platform ownerUserId loaded := by
  intro kv hkv
  obtain ⟨old, hold, hid, hscope⟩ := hloaded kv hkv
  obtain ⟨hgranted, hwithin⟩ := h old hold
  rw [hid, hscope]
  refine ⟨hgranted, fun entry hentry value hvalue => ?_⟩
  obtain ⟨raw, hraw, rfl⟩ := List.mem_map.mp hentry
  exact hwithin raw hraw value (mem_sortedSet.mp hvalue)

/-- A draft that is loaded after a run: its tools and scopes were held by its owner in one of
the states of the run and active in one, and its snapshot does not leave any of them out. -/
theorem loaded_draft_vetted {seen : Set DraftTables} (h : DraftsVetted seen db)
    (hload : loadAgent db agentId = .ok (some agent)) :
    (∃ u ∈ seen, HeldBy u.toPlatformTables agent.ownerUserId agent.toolScopes)
      ∧ (agent.toolScopes ≠ [] →
        ∃ u ∈ seen, AllActive u.toPlatformTables (agent.toolScopes.map Prod.fst))
      ∧ ∀ kv ∈ agent.toolScopes, .str kv.1 ∈ agent.snapshotTools := by
  obtain ⟨row, hrow, rfl, howner⟩ := loadAgent_row hload
  obtain ⟨hscopes, hsnapshot⟩ := loadAgent_reads hload
  obtain ⟨permissions, toolScopes, hvetted, hlatest, hrows⟩ :=
    h.drafts _ (List.mem_map_of_mem (f := fun row => (row.id, row.ownerUserId)) hrow)
  have hloaded : ∀ kv ∈ agent.toolScopes, ∃ old ∈ toolScopes, kv.1 = old.1
      ∧ kv.2 = old.2.map fun entry => (entry.1, sortedSet entry.2) := by
    intro kv hkv
    obtain ⟨toolRow, htoolRow, hagent, hid, hnormal⟩ := mem_agentToolScopes hscopes hkv
    obtain ⟨old, hold, htool, hjson⟩ := hrows toolRow htoolRow hagent
    rw [hjson, normalizeScope_toJson] at hnormal
    exact ⟨old, hold, hid.symm.trans htool, (Except.ok.inj hnormal).symm⟩
  obtain ⟨u, hu, hpermissions, hheld⟩ := hvetted.held
  rw [howner] at hpermissions hheld
  refine ⟨⟨u, hu, heldBy_sorted hheld hloaded⟩, fun hne => ?_, fun kv hkv => ?_⟩
  · obtain ⟨kv, hkv⟩ := List.exists_mem_of_ne_nil _ hne
    obtain ⟨old, hold, -⟩ := hloaded kv hkv
    obtain ⟨w, hw, hactive⟩ := hvetted.active (List.ne_nil_of_mem hold)
    refine ⟨w, hw, fun toolId htool => ?_⟩
    obtain ⟨kv, hkv, rfl⟩ := List.mem_map.mp htool
    obtain ⟨old, hold, hid, -⟩ := hloaded kv hkv
    exact hid ▸ hactive old.1 (List.mem_map_of_mem hold)
  · have hread := hsnapshot _ hlatest
    rw [setOf_strings] at hread
    obtain ⟨old, hold, hid, -⟩ := hloaded kv hkv
    rw [← Except.ok.inj hread]
    refine List.mem_map_of_mem (mem_sortedSet.mpr ?_)
    rw [hid]
    exact (hpermissions old.1).mpr (hheld old hold).1

end Admission

/-- After any order of the calls of any requests, and of what else happens to the tables, a draft
that is admitted has tools and scopes that its owner held together in one of the states gone
through, and it runs with those of them that are active and granted to the actor now: the
snapshot takes none away. -/
theorem draft_tools_vetted {platform : PlatformTables}
    {turns : List (Interleaved.Turn DraftRequest DraftChange)}
    {p : Pool DraftTables AccessError (List String)}
    (h : Runs.run draftsStep ⟨{ toPlatformTables := platform }, []⟩ turns = some p)
    {agentId actorId channel : String} {agent : LoadedAgent} {allowed : List String}
    (hresolve : ControlPlane.resolveAgentAccess p.state agentId actorId channel
      = .ok (agent, allowed)) :
    let seen := Seen DraftRequest.start DraftTables.change
      ⟨{ toPlatformTables := platform }, []⟩ turns
    (∃ u ∈ seen, HeldBy u.toPlatformTables agent.ownerUserId agent.toolScopes)
      ∧ (agent.toolScopes ≠ [] →
        ∃ u ∈ seen, AllActive u.toPlatformTables (agent.toolScopes.map Prod.fst))
      ∧ ∀ toolId, toolId ∈ allowed ↔ toolId ∈ agent.toolScopes.map Prod.fst
        ∧ Granted p.state.toPlatformTables actorId toolId
        ∧ ∃ row ∈ p.state.tools, row.id = toolId
          ∧ toolRowActive p.state.toPlatformTables row = true := by
  intro seen
  have hload := (ControlPlane.resolveAgentAccess_ok.mp ⟨allowed, hresolve⟩).1
  obtain ⟨hheld, hactive, hsnapshot⟩ := loaded_draft_vetted (draftsVetted_run h) hload
  refine ⟨hheld, hactive, fun toolId => ?_⟩
  rw [ControlPlane.mem_agentTools hresolve]
  constructor
  · exact fun hoffers => ⟨hoffers.configured, hoffers.granted, hoffers.active⟩
  · rintro ⟨hconfigured, hgranted, hnow⟩
    obtain ⟨kv, hkv, rfl⟩ := List.mem_map.mp hconfigured
    exact ⟨hconfigured, hsnapshot kv hkv, hgranted, hnow⟩

section Example

/-- `ada` may calculate. -/
def deskPlatform : PlatformTables where
  tools := [{ id := "calculator", status := "active" }]
  users := [⟨"ada", "active"⟩]
  roles := [⟨"analyst", "active"⟩]
  userRoles := [("ada", "analyst")]
  rolePermissions := [⟨"analyst", "calculator", Scope.toJson [("actions", ["calculate"])]⟩]

def deskRequest : AgentCreateRequest where
  name := "desk"
  tools := [.config "calculator" [("actions", ["calculate"])]]
  ownerUserId := "ada"

/-- The role is taken from `ada` after it was checked, and given back after the draft is there. -/
def deskTurns : List (Interleaved.Turn DraftRequest DraftChange) :=
  [.arrive (.create "agent_1" "ada" deskRequest), .turn 0, .turn 0, .turn 0, .turn 0, .turn 0,
    .other (.platform { deskPlatform with userRoles := [] }), .turn 0,
    .other (.platform deskPlatform)]

theorem draft_tools_vetted_desk :
    ∃ p agent, Runs.run draftsStep ⟨{ toPlatformTables := deskPlatform }, []⟩ deskTurns = some p
      ∧ ControlPlane.resolveAgentAccess p.state "agent_1" "ada" "web_console"
        = .ok (agent, ["calculator"])
      ∧ ∃ u : DraftTables, HeldBy u.toPlatformTables agent.ownerUserId agent.toolScopes := by
  have hdesk : ((Runs.run draftsStep ⟨{ toPlatformTables := deskPlatform }, []⟩ deskTurns).map
      fun p => (ControlPlane.resolveAgentAccess p.state "agent_1" "ada" "web_console").map
        Prod.snd) = some (.ok ["calculator"]) := by decide +kernel
  obtain ⟨p, hp, hresolve⟩ := Option.map_eq_some_iff.mp hdesk
  obtain ⟨⟨agent, allowed⟩, haccess, rfl⟩ := map_eq_ok.mp hresolve
  obtain ⟨u, -, hheld⟩ := (draft_tools_vetted hp haccess).1
  exact ⟨p, agent, hp, haccess, u, hheld⟩

end Example

end Aegora
