import Aegora.AdmittedTools

/-!
# Revoking never admits

The tools of a runtime context are those that pass every bound in the state the
context is built from. The bounds of the release do not depend on the state,
and the others only ask for something to be there: an active row, an active
connection, a grant with a value. So a state with fewer of them admits fewer
tools.

The snapshot of the publisher is the one filter that widens on absence, and it
belongs to the release.
-/

namespace Aegora

open Py

/-! ## States with less in them -/

/-- What `narrow` admits for the actor is there in `wide`: its active tools and
connections, the tools granted, and their values. -/
structure Narrower (actorId : Option String) (narrow wide : PlatformTables) : Prop where
  tools : ∀ row ∈ narrow.tools, toolRowActive narrow row = true →
    ∃ old ∈ wide.tools, old.id = row.id ∧ toolRowActive wide old = true
  connections : ∀ connectionId, (activeConnection narrow connectionId).isSome = true →
    (activeConnection wide connectionId).isSome = true
  grants : ∀ actor, actorId = some actor → ∀ toolId, Granted narrow actor toolId →
    Granted wide actor toolId
  scopes : ∀ actor, actorId = some actor → ∀ toolId key value,
    GrantsValue narrow actor toolId key value → GrantsValue wide actor toolId key value

/-- The same by the rows of the tables: what is active or granted in `narrow`
has a row in `wide`, and a grant has a scope that allows as much. -/
structure FewerRows (narrow wide : PlatformTables) : Prop where
  tools : ∀ row ∈ narrow.tools, row.status = "active" →
    ∃ old ∈ wide.tools, old.id = row.id ∧ old.status = "active"
      ∧ old.mcpConnectionId = row.mcpConnectionId
  connections : ∀ row ∈ narrow.connections, row.status = "active" →
    ∃ old ∈ wide.connections, old.id = row.id ∧ old.status = "active"
  roles : ∀ role ∈ narrow.roles, role.status = "active" →
    ∃ old ∈ wide.roles, old.id = role.id ∧ old.status = "active"
  userRoles : narrow.userRoles ⊆ wide.userRoles
  permissions : ∀ row ∈ narrow.rolePermissions, ∃ old ∈ wide.rolePermissions,
    old.roleId = row.roleId ∧ old.toolId = row.toolId
      ∧ ∀ key value, RowAllows row.scopeJson key value → RowAllows old.scopeJson key value

section Tables

variable {actorId : Option String} {narrow wide widest : PlatformTables}

theorem Narrower.refl (actorId : Option String) (db : PlatformTables) :
    Narrower actorId db db where
  tools row hrow hactive := ⟨row, hrow, rfl, hactive⟩
  connections _ h := h
  grants _ _ _ h := h
  scopes _ _ _ _ _ h := h

theorem Narrower.trans (h : Narrower actorId narrow wide) (h' : Narrower actorId wide widest) :
    Narrower actorId narrow widest where
  tools row hrow hactive := by
    obtain ⟨old, hold, hid, hactive⟩ := h.tools row hrow hactive
    obtain ⟨oldest, holdest, hid', hactive⟩ := h'.tools old hold hactive
    exact ⟨oldest, holdest, hid'.trans hid, hactive⟩
  connections connectionId hactive := h'.connections _ (h.connections _ hactive)
  grants actor hactor toolId hgranted := h'.grants _ hactor _ (h.grants _ hactor _ hgranted)
  scopes actor hactor toolId key value hvalue :=
    h'.scopes _ hactor _ _ _ (h.scopes _ hactor _ _ _ hvalue)

theorem activeConnection_isSome {db : PlatformTables} {connectionId : String} :
    (activeConnection db connectionId).isSome = true
      ↔ ∃ row ∈ db.connections, row.id = connectionId ∧ row.status = "active" := by
  simp [activeConnection, List.find?_isSome]

theorem FewerRows.connection (h : FewerRows narrow wide) {connectionId : String}
    (hactive : (activeConnection narrow connectionId).isSome = true) :
    (activeConnection wide connectionId).isSome = true := by
  obtain ⟨row, hrow, rfl, hstatus⟩ := activeConnection_isSome.mp hactive
  obtain ⟨old, hold, hid, hstatus⟩ := h.connections row hrow hstatus
  exact activeConnection_isSome.mpr ⟨old, hold, hid, hstatus⟩

/-- A row that counts for the user in `narrow` has one that counts in `wide`. -/
theorem FewerRows.permission (h : FewerRows narrow wide) {actor : String}
    {row : RolePermissionRow} (hrow : row ∈ userPermissionRows narrow actor) :
    ∃ old ∈ userPermissionRows wide actor, old.toolId = row.toolId
      ∧ ∀ key value, RowAllows row.scopeJson key value → RowAllows old.scopeJson key value := by
  simp only [userPermissionRows, List.mem_filter, decide_eq_true_eq] at hrow ⊢
  obtain ⟨hrow, hassigned, role, hrole, hroleId, hstatus⟩ := hrow
  obtain ⟨old, hold, holdRole, htool, hscope⟩ := h.permissions row hrow
  obtain ⟨oldRole, holdRole', hid, hstatus⟩ := h.roles role hrole hstatus
  refine ⟨old, ⟨hold, ?_, oldRole, holdRole', ?_, hstatus⟩, htool, hscope⟩
  · rw [holdRole]
    exact h.userRoles hassigned
  · rw [hid, hroleId, holdRole]

theorem FewerRows.narrower (h : FewerRows narrow wide) (actorId : Option String) :
    Narrower actorId narrow wide where
  tools row hrow hactive := by
    unfold toolRowActive at hactive
    rw [Bool.and_eq_true, decide_eq_true_eq] at hactive
    obtain ⟨hstatus, hconnection⟩ := hactive
    obtain ⟨old, hold, hid, holdStatus, hsame⟩ := h.tools row hrow hstatus
    refine ⟨old, hold, hid, ?_⟩
    unfold toolRowActive
    rw [Bool.and_eq_true, decide_eq_true_eq, hsame]
    refine ⟨holdStatus, ?_⟩
    cases hnamed : row.mcpConnectionId with
    | none => rfl
    | some connectionId =>
        rw [hnamed] at hconnection
        exact h.connection hconnection
  connections _ hactive := h.connection hactive
  grants actor _ toolId hgranted := by
    obtain ⟨row, hrow, rfl⟩ := hgranted
    obtain ⟨old, hold, htool, -⟩ := h.permission hrow
    exact ⟨old, hold, htool⟩
  scopes actor _ toolId key value hvalue := by
    obtain ⟨row, hrow, rfl, hallows⟩ := hvalue
    obtain ⟨old, hold, htool, hscope⟩ := h.permission hrow
    exact ⟨old, hold, htool, hscope key value hallows⟩

end Tables

/-! ## What a state admits -/

/-- The tools of the release inside all bounds for the actor. -/
def Admitted (db : PlatformTables) (release : ReleaseRow) (actorId : Option String) :
    Set String :=
  {toolId | ∃ actor entries scope, actorId = some actor ∧ actor ≠ ""
    ∧ PassesCurrent db release actor entries toolId scope ∧ InPublished release toolId scope}

section Admission

variable {actorId channel : Option String} {narrow wide db : PlatformTables}
  {release : ReleaseRow}

theorem Connected.mono (h : Narrower actorId narrow wide) {connectionId : Json}
    (hconnected : Connected narrow connectionId) : Connected wide connectionId :=
  fun htruthy => h.connections _ (hconnected htruthy)

theorem PassesCurrent.mono {actor toolId : String} {entries : Dict} {scope : Scope}
    (h : Narrower (some actor) narrow wide)
    (hpasses : PassesCurrent narrow release actor entries toolId scope) :
    PassesCurrent wide release actor entries toolId scope where
  entry := hpasses.entry
  id := hpasses.id
  released := hpasses.released
  configured := hpasses.configured
  active := by
    obtain ⟨row, hrow, rfl, hactive⟩ := hpasses.active
    exact h.tools row hrow hactive
  connected := hpasses.connected.mono h
  granted := h.grants actor rfl toolId hpasses.granted
  within kv hkv value hvalue := h.scopes actor rfl _ _ _ (hpasses.within kv hkv value hvalue)

theorem admitted_mono (h : Narrower actorId narrow wide) :
    Admitted narrow release actorId ⊆ Admitted wide release actorId := by
  rintro toolId ⟨actor, entries, scope, rfl, hactor, hpasses, hpublished⟩
  exact ⟨actor, entries, scope, rfl, hactor, hpasses.mono h, hpublished⟩

/-- The context of a release has the tools that its state admits. Only a context with an actor
has a tool at all. -/
theorem mem_toolIds_admitted {env : RuntimeEnv} {context : RuntimeContext}
    (h : buildRuntimeContext env db release actorId channel = .ok context) (toolId : String) :
    toolId ∈ context.toolIds ↔ toolId ∈ Admitted db release actorId := by
  constructor
  · intro hmem
    have htool : ∃ tool ∈ context.tools, Dict.get tool "tool_id" = .str toolId := by
      obtain ⟨_, _, _, _, _, -, -, -, -, -, -, hids⟩ := buildRuntimeContext_ok h
      rw [hids, mem_sortedSet, context_ids h] at hmem
      exact hmem
    obtain ⟨tool, htool, -⟩ := htool
    obtain ⟨actor, _, _, _, rfl, hactor, -⟩ := context_tool h htool
    obtain ⟨entries, scope, hpasses, hpublished⟩ := (mem_toolIds_iff h hactor toolId).mp hmem
    exact ⟨actor, entries, scope, rfl, hactor, hpasses, hpublished⟩
  · rintro ⟨actor, entries, scope, rfl, hactor, hpasses, hpublished⟩
    exact (mem_toolIds_iff h hactor toolId).mpr ⟨entries, scope, hpasses, hpublished⟩

/-- With less active and less granted, a release has no tool that it did not have. Every
bound that looks at the state asks for a row or a grant to be there, and each of them is
monotone by itself. -/
theorem tool_ids_monotone {env env' : RuntimeEnv} {channel' : Option String}
    {context context' : RuntimeContext} (h : Narrower actorId narrow wide)
    (hwide : buildRuntimeContext env wide release actorId channel = .ok context)
    (hnarrow : buildRuntimeContext env' narrow release actorId channel' = .ok context') :
    context'.toolIds ⊆ context.toolIds := by
  intro toolId hmem
  rw [mem_toolIds_admitted hwide]
  exact admitted_mono h ((mem_toolIds_admitted hnarrow toolId).mp hmem)

end Admission

/-! ## A tool that is switched off -/

/-- Two tools of a till, which the role of `u1` grants. -/
def tillTables (refundStatus : String) : PlatformTables where
  tools := [{ id := "pay", status := "active" }, { id := "refund", status := refundStatus }]
  roles := [⟨"cashier", "active"⟩]
  userRoles := [("u1", "cashier")]
  rolePermissions := [⟨"cashier", "pay", .obj []⟩, ⟨"cashier", "refund", .obj []⟩]

def tillRelease : ReleaseRow where
  releaseId := "rel_1"
  agentId := "agent_1"
  version := 1
  status := "published"
  configJson := .obj
    [("agent", .obj [("id", .str "agent_1")]),
     ("tools", .arr [.obj [("tool_id", .str "pay")], .obj [("tool_id", .str "refund")]])]

theorem tillTables_fewerRows : FewerRows (tillTables "disabled") (tillTables "active") where
  tools row hrow hactive := by
    simp only [tillTables, List.mem_cons, List.not_mem_nil, or_false] at hrow
    rcases hrow with rfl | rfl
    · exact ⟨_, List.mem_cons_self, rfl, rfl, rfl⟩
    · exact absurd hactive (by decide)
  connections _ hrow := absurd hrow List.not_mem_nil
  roles role hrole hactive := ⟨role, hrole, rfl, hactive⟩
  userRoles := List.Subset.refl _
  permissions row hrow := ⟨row, hrow, rfl, rfl, fun _ _ h => h⟩

theorem tool_ids_monotone_till :
    ∃ context context',
      buildRuntimeContext { localRunner := "mcp+stdio://python" } (tillTables "active")
        tillRelease (some "u1") none = .ok context
      ∧ buildRuntimeContext { localRunner := "mcp+stdio://python" } (tillTables "disabled")
        tillRelease (some "u1") none = .ok context'
      ∧ context'.toolIds = ["pay"] ∧ context'.toolIds ⊆ context.toolIds := by
  have hwide : (buildRuntimeContext { localRunner := "mcp+stdio://python" }
      (tillTables "active") tillRelease (some "u1") none).map RuntimeContext.toolIds
      = .ok ["pay", "refund"] := by decide +kernel
  have hnarrow : (buildRuntimeContext { localRunner := "mcp+stdio://python" }
      (tillTables "disabled") tillRelease (some "u1") none).map RuntimeContext.toolIds
      = .ok ["pay"] := by decide +kernel
  obtain ⟨context, hcontext, -⟩ := map_eq_ok.mp hwide
  obtain ⟨context', hcontext', hids⟩ := map_eq_ok.mp hnarrow
  exact ⟨context, context', hcontext, hcontext', hids,
    tool_ids_monotone (tillTables_fewerRows.narrower _) hcontext hcontext'⟩

end Aegora
