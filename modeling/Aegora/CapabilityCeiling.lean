import Aegora.RuntimeContext

/-!
# The capability ceiling of a release

A tool of a runtime context should lie inside everything that bounds it: the
release, the live tool and connection, the grants its publisher had, the
grants the actor has now (`ContextBounded`). The filters compose to that
intersection except that a snapshot which grants nothing is taken for no
snapshot, and then the current grants alone decide.
-/

namespace Aegora

open Py

/-! ## The bounds -/

/-- `config_json["tools"]` where it is a list. -/
def releaseTools (release : ReleaseRow) : List Json :=
  ((Dict.get release.configJson.dictOrEmpty "tools").asList?).getD []

/-- The `role_tool_scopes` mapping of the release's permission snapshot. -/
def snapshotMapping (release : ReleaseRow) : Option Dict :=
  (Dict.get (Dict.get release.configJson.dictOrEmpty "permission_snapshot").dictOrEmpty
    "role_tool_scopes").asDict?

/-- The configured tool `entries`, of id `toolId` and scope `scope`, passes the
bounds that hold now: it is released, its row and its connections are active,
and the actor's active roles grant it with its scope. -/
structure PassesCurrent (db : PlatformTables) (release : ReleaseRow) (actor : String)
    (entries : Dict) (toolId : String) (scope : Scope) : Prop where
  entry : .obj entries ∈ releaseTools release
  id : Dict.get entries "tool_id" = .str toolId
  released : toolId ∈ releaseToolIds (releaseTools release)
  configured : normalizeScope (dictOrNone (Dict.get entries "scope")) = .ok scope
  active : ∃ row ∈ db.tools, row.id = toolId ∧ toolRowActive db row = true
  connected : Connected db (Dict.get entries "mcp_connection_id")
  granted : Granted db actor toolId
  within : ∀ kv ∈ scope, ∀ value ∈ kv.2, GrantsValue db actor toolId kv.1 value

/-- The snapshot has the tool, with a scope that contains this one. -/
def InSnapshot (mapping : Dict) (toolId : String) (scope : Scope) : Prop :=
  ∃ raw created, Dict.get? mapping toolId = some raw
    ∧ normalizeScope (dictOrNone raw) = .ok created ∧ ScopeWithin scope created

/-- Every tool of the context is inside all bounds, and `tool_ids` and
`tool_scopes` name exactly those tools. -/
structure ContextBounded (db : PlatformTables) (release : ReleaseRow)
    (context : RuntimeContext) : Prop where
  tools : ∀ tool ∈ context.tools, ∃ actor entries toolId scope,
    context.actorId = some actor ∧ PassesCurrent db release actor entries toolId scope
      ∧ toolIdentity tool
        = (.str toolId, scope.toJson, Dict.get entries "mcp_connection_id")
      ∧ ∀ mapping, snapshotMapping release = some mapping → InSnapshot mapping toolId scope
  toolIds : ∀ toolId, toolId ∈ context.toolIds
    ↔ ∃ tool ∈ context.tools, Dict.get tool "tool_id" = .str toolId
  toolScopes : ∀ toolId, toolId ∈ context.toolScopes.map Prod.fst
    ↔ ∃ tool ∈ context.tools, Dict.get tool "tool_id" = .str toolId

/-- The snapshot is absent or grants something, or nothing the actor may use
now is left for it to exclude. -/
def SnapshotDecides (db : PlatformTables) (release : ReleaseRow)
    (actorId : Option String) : Prop :=
  snapshotMapping release = some [] →
    ∀ actor entries toolId scope, actorId = some actor → actor ≠ "" →
      ¬ PassesCurrent db release actor entries toolId scope

/-! ## The filters and the bounds -/

section Built

variable {env : RuntimeEnv} {db : PlatformTables} {release : ReleaseRow}
  {actorId channel : Option String} {context : RuntimeContext}

theorem rawTools_ok {config : Dict} {raw : List Json} (h : rawTools config = .ok raw) :
    raw = ((Dict.get config "tools").asList?).getD [] := by
  unfold rawTools Json.orElse at h
  cases htools : Dict.get config "tools" with
  | arr items =>
      rw [htools] at h
      cases items with
      | nil => exact (Except.ok.inj h).symm
      | cons _ _ => exact (Except.ok.inj h).symm
  | _ =>
      rw [htools] at h
      split at h
      · rename_i items heq
        split at heq
        · cases heq
        · cases heq
          cases h
          rfl
      · cases h

theorem releaseConfig_ok {config : Dict} (h : releaseConfig release = .ok config) :
    release.configJson.dictOrEmpty = config := by
  unfold releaseConfig at h
  split at h
  · rename_i entries hentries
    cases h
    rw [hentries]
    rfl
  · cases h

/-- What reaches authorization passes the bounds before it. -/
theorem connected_tool {config : Dict} {raw : List Json} {active : List (Option Dict)}
    (hconfig : releaseConfig release = .ok config) (hraw : rawTools config = .ok raw)
    (hactive : raw.mapM (activeToolConfig env.localRunner
      (activeToolIds db (releaseToolIds raw))) = .ok active) {tool : Dict}
    (htool : tool ∈ connectedTools db active) :
    ∃ entries toolId scope, .obj entries ∈ releaseTools release
      ∧ Dict.get entries "tool_id" = .str toolId
      ∧ toolId ∈ activeToolIds db (releaseToolIds (releaseTools release))
      ∧ normalizeScope (dictOrNone (Dict.get entries "scope")) = .ok scope
      ∧ Connected db (Dict.get entries "mcp_connection_id")
      ∧ toolIdentity tool
        = (.str toolId, scope.toJson, Dict.get entries "mcp_connection_id") := by
  have hraw' : raw = releaseTools release := by
    rw [rawTools_ok hraw, releaseTools, releaseConfig_ok hconfig]
  subst hraw'
  obtain ⟨configured, hmem, hconnected⟩ := mem_connectedTools.mp htool
  obtain ⟨json, hjson, hkept⟩ := mem_of_mapM_eq_ok hactive hmem
  obtain ⟨entries, toolId, rfl, hid, hin, hnormal⟩ := activeToolConfig_some hkept
  obtain ⟨scope, hscope, hidentity⟩ := normalizeToolConfig_identity hnormal
  obtain ⟨hsame, hconnection⟩ := refreshConnection_some hconnected
  rw [refreshPolicy_identity, hidentity] at hsame
  refine ⟨entries, toolId, scope, hjson, hid, hin, hscope, ?_, by rw [hsame, hid]; rfl⟩
  have hfield : Dict.get (refreshPolicy db configured).1 "mcp_connection_id"
      = Dict.get entries "mcp_connection_id" := by
    have h := (refreshPolicy_identity db configured).trans hidentity
    exact congrArg (fun identity => identity.2.2) h
  rw [← hfield]
  exact hconnection

/-- A configured tool that passes those bounds reaches authorization. -/
theorem tool_connected {config : Dict} {raw : List Json} {active : List (Option Dict)}
    (hconfig : releaseConfig release = .ok config) (hraw : rawTools config = .ok raw)
    (hactive : raw.mapM (activeToolConfig env.localRunner
      (activeToolIds db (releaseToolIds raw))) = .ok active) {actor : String}
    {entries : Dict} {toolId : String} {scope : Scope}
    (h : PassesCurrent db release actor entries toolId scope) :
    ∃ tool ∈ connectedTools db active, Dict.get tool "tool_id" = .str toolId
      ∧ Dict.get tool "scope" = scope.toJson := by
  have hraw' : raw = releaseTools release := by
    rw [rawTools_ok hraw, releaseTools, releaseConfig_ok hconfig]
  subst hraw'
  obtain ⟨out, hout, hkept⟩ := mapM_eq_ok_mem hactive h.entry
  obtain ⟨configured, rfl, hnormal⟩ := activeToolConfig_active hkept h.id
    (mem_activeToolIds.mpr ⟨h.released, h.active⟩)
  obtain ⟨found, hfound, hidentity⟩ := normalizeToolConfig_identity hnormal
  cases h.configured.symm.trans hfound
  have hrefreshed := (refreshPolicy_identity db configured).trans hidentity
  have hfield : Dict.get (refreshPolicy db configured).1 "mcp_connection_id"
      = Dict.get entries "mcp_connection_id" :=
    congrArg (fun identity => identity.2.2) hrefreshed
  obtain ⟨tool, htool⟩ := refreshConnection_isSome (hfield ▸ h.connected)
  have hsame := (refreshConnection_some htool).1.trans hrefreshed
  refine ⟨tool, mem_connectedTools.mpr ⟨configured, hout, htool⟩, ?_, ?_⟩
  · have hid := congrArg Prod.fst hsame
    rw [h.id] at hid
    exact hid
  · exact congrArg (fun identity => identity.2.1) hsame

/-- The scopes of the snapshot, normalized one by one. -/
theorem snapshotRoleToolScopes_ok {snapshot : Dict} {created : List (String × Scope)}
    (h : snapshotRoleToolScopes snapshot = .ok created) :
    (created = [] ↔ (Dict.get snapshot "role_tool_scopes").dictOrEmpty = [])
      ∧ ∀ toolId scope, Dict.get? created toolId = some scope →
          ∃ raw, Dict.get? (Dict.get snapshot "role_tool_scopes").dictOrEmpty toolId
              = some raw
            ∧ normalizeScope (dictOrNone raw) = .ok scope := by
  unfold snapshotRoleToolScopes at h
  split at h
  · rename_i entries hentries
    rw [hentries]
    have hall := mapM_eq_ok.mp h
    clear h hentries
    show (created = [] ↔ entries = []) ∧ ∀ toolId scope, Dict.get? created toolId = some scope →
      ∃ raw, Dict.get? entries toolId = some raw ∧ normalizeScope (dictOrNone raw) = .ok scope
    induction hall with
    | nil => simp
    | cons hentry _ ih =>
        obtain ⟨scope, hscope, hentry⟩ := bind_eq_ok.mp hentry
        cases hentry
        refine ⟨by simp, fun toolId found hfound => ?_⟩
        rw [Dict.get?_cons] at hfound ⊢
        split at hfound
        · rename_i hkey
          cases hfound
          exact ⟨_, by rw [if_pos hkey], hscope⟩
        · rename_i hkey
          rw [if_neg hkey]
          exact ih.2 toolId found hfound
  · rename_i hnone
    cases h
    have hempty : (Dict.get snapshot "role_tool_scopes").dictOrEmpty = [] := by
      cases hjson : Dict.get snapshot "role_tool_scopes" with
      | obj entries => exact absurd hjson (hnone entries)
      | _ => rfl
    simp [hempty]

/-- No scope of the snapshot is left out. -/
theorem get?_snapshotRoleToolScopes {snapshot : Dict} {created : List (String × Scope)}
    (h : snapshotRoleToolScopes snapshot = .ok created) {toolId : String} {raw : Json}
    (hraw : Dict.get? (Dict.get snapshot "role_tool_scopes").dictOrEmpty toolId = some raw) :
    ∃ scope, Dict.get? created toolId = some scope
      ∧ normalizeScope (dictOrNone raw) = .ok scope := by
  unfold snapshotRoleToolScopes at h
  split at h
  · rename_i entries hentries
    rw [hentries] at hraw
    have hall := mapM_eq_ok.mp h
    clear h hentries
    change Dict.get? entries toolId = some raw at hraw
    induction hall with
    | nil => cases hraw
    | cons hentry _ ih =>
        obtain ⟨scope, hscope, hentry⟩ := bind_eq_ok.mp hentry
        cases hentry
        rw [Dict.get?_cons] at hraw ⊢
        split at hraw
        · rename_i hkey
          cases hraw
          exact ⟨scope, if_pos hkey, hscope⟩
        · rename_i hkey
          rw [if_neg hkey]
          exact ih hraw
  · rename_i hnone
    have hempty : (Dict.get snapshot "role_tool_scopes").dictOrEmpty = [] := by
      cases hjson : Dict.get snapshot "role_tool_scopes" with
      | obj entries => exact absurd hjson (hnone entries)
      | _ => rfl
    rw [hempty] at hraw
    cases hraw

/-- `tool_ids` and the keys of `tool_scopes` are the ids of the tools. -/
theorem toolScopes_keys {tools : List Dict} {scopes : List (String × Scope)}
    (h : (tools.mapM fun tool => do
        let scope ← normalizeScope (dictOrNone (Dict.get tool "scope"))
        return ((Dict.get tool "tool_id").pyStr, scope)) = .ok scopes)
    (toolId : String) :
    toolId ∈ (Dict.ofEntries scopes).map Prod.fst
      ↔ ∃ tool ∈ tools, (Dict.get tool "tool_id").pyStr = toolId := by
  rw [Dict.mem_keys_ofEntries]
  constructor
  · intro hmem
    obtain ⟨kv, hkv, rfl⟩ := List.mem_map.mp hmem
    obtain ⟨tool, htool, hentry⟩ := mem_of_mapM_eq_ok h hkv
    obtain ⟨scope, -, hentry⟩ := bind_eq_ok.mp hentry
    cases hentry
    exact ⟨tool, htool, rfl⟩
  · rintro ⟨tool, htool, rfl⟩
    obtain ⟨kv, hkv, hentry⟩ := mapM_eq_ok_mem h htool
    obtain ⟨scope, -, hentry⟩ := bind_eq_ok.mp hentry
    cases hentry
    exact List.mem_map.mpr ⟨_, hkv, rfl⟩

/-- The grants that authorization compares with are what the roles grant. -/
theorem withinCurrent_iff {actor toolId : String} {current : List (String × Scope)}
    {scope : Scope} (h : getUserRoleToolScopes db actor = .ok current) :
    WithinCurrent current toolId scope
      ↔ Granted db actor toolId
        ∧ ∀ kv ∈ scope, ∀ value ∈ kv.2, GrantsValue db actor toolId kv.1 value := by
  obtain ⟨hgranted, hvalues⟩ := getUserRoleToolScopes_spec h toolId
  rw [WithinCurrent, hgranted, ScopeWithin]
  simp only [hvalues]

theorem snapshotMapping_eq {config : Dict} (h : releaseConfig release = .ok config) :
    snapshotMapping release
      = (Dict.get (Dict.get config "permission_snapshot").dictOrEmpty
          "role_tool_scopes").asDict? := by
  rw [snapshotMapping, releaseConfig_ok h]

/-- The tools of a context: what passes the current bounds and, when the
snapshot grants anything, the snapshot. -/
theorem context_tool (h : buildRuntimeContext env db release actorId channel = .ok context)
    {tool : Dict} (htool : tool ∈ context.tools) :
    ∃ actor entries toolId scope, actorId = some actor ∧ actor ≠ ""
      ∧ PassesCurrent db release actor entries toolId scope
      ∧ toolIdentity tool
        = (.str toolId, scope.toJson, Dict.get entries "mcp_connection_id")
      ∧ ∀ mapping, snapshotMapping release = some mapping → mapping ≠ [] →
          InSnapshot mapping toolId scope := by
  obtain ⟨config, raw, active, policy, scopes, hconfig, hraw, hactive, hauthz, -, -, -⟩ :=
    buildRuntimeContext_ok h
  rcases applyRuntimeToolAuthz_ok hauthz with ⟨-, hnone⟩ |
    ⟨actor, current, created, hactor, hnonempty, hcurrent, hcreated, hallowed⟩
  · simp [hnone] at htool
  · obtain ⟨hconnected, hverdict⟩ := (hallowed tool).mp htool
    obtain ⟨entries, toolId, scope, hentry, hid, hin, hscope, hconnection, hidentity⟩ :=
      connected_tool hconfig hraw hactive hconnected
    obtain ⟨hreleased, hrow⟩ := mem_activeToolIds.mp hin
    obtain ⟨hwithinCreated, hwithinCurrent⟩ := (authorizeTool_allowed_iff
      (congrArg Prod.fst hidentity) (congrArg (fun identity => identity.2.1) hidentity)).mp
      hverdict
    obtain ⟨hgranted, hwithin⟩ := (withinCurrent_iff hcurrent).mp hwithinCurrent
    refine ⟨actor, entries, toolId, scope, hactor, hnonempty,
      ⟨hentry, hid, hreleased, hscope, hrow, hconnection, hgranted, hwithin⟩, hidentity, ?_⟩
    intro mapping hmapping hne
    rw [snapshotMapping_eq hconfig] at hmapping
    obtain ⟨hempty, hfound⟩ := snapshotRoleToolScopes_ok hcreated
    have hdict : (Dict.get (Dict.get config "permission_snapshot").dictOrEmpty
        "role_tool_scopes").dictOrEmpty = mapping := by
      rw [Json.dictOrEmpty, hmapping]
      rfl
    rw [hdict] at hempty hfound
    rcases hwithinCreated with hnil | ⟨hsome, hscoped⟩
    · exact absurd (hempty.mp hnil) hne
    · obtain ⟨allowed, hget⟩ := Option.isSome_iff_exists.mp hsome
      obtain ⟨json, hjson, hnormal⟩ := hfound toolId allowed hget
      rw [hget, Option.getD_some] at hscoped
      exact ⟨json, allowed, hjson, hnormal, hscoped⟩

/-- With an empty snapshot, whatever passes the current bounds is in the
context. -/
theorem tool_context (h : buildRuntimeContext env db release actorId channel = .ok context)
    (hsnapshot : snapshotMapping release = some []) {actor : String}
    (hactor : actorId = some actor) (hnonempty : actor ≠ "") {entries : Dict}
    {toolId : String} {scope : Scope}
    (hpasses : PassesCurrent db release actor entries toolId scope) :
    ∃ tool ∈ context.tools, Dict.get tool "tool_id" = .str toolId := by
  obtain ⟨config, raw, active, policy, scopes, hconfig, hraw, hactive, hauthz, -, -, -⟩ :=
    buildRuntimeContext_ok h
  obtain ⟨tool, hconnected, hid, hscope⟩ := tool_connected hconfig hraw hactive hpasses
  rcases applyRuntimeToolAuthz_ok hauthz with ⟨hnone, -⟩ |
    ⟨other, current, created, hother, -, hcurrent, hcreated, hallowed⟩
  · rcases hnone with hnone | hnone <;> rw [hnone] at hactor <;> cases hactor
    exact absurd rfl hnonempty
  · cases hactor.symm.trans hother
    rw [snapshotMapping_eq hconfig] at hsnapshot
    have hnil : created = [] :=
      (snapshotRoleToolScopes_ok hcreated).1.mpr (by rw [Json.dictOrEmpty, hsnapshot]; rfl)
    refine ⟨tool, (hallowed tool).mpr ⟨hconnected, ?_⟩, hid⟩
    exact (authorizeTool_allowed_iff hid hscope).mpr ⟨Or.inl hnil,
      (withinCurrent_iff hcurrent).mpr ⟨hpasses.granted, hpasses.within⟩⟩

theorem context_actorId
    (h : buildRuntimeContext env db release actorId channel = .ok context) :
    context.actorId = actorId := by
  obtain ⟨_, -, h⟩ := bind_eq_ok.mp h
  obtain ⟨_, -, h⟩ := bind_eq_ok.mp h
  obtain ⟨_, -, h⟩ := bind_eq_ok.mp h
  obtain ⟨_, -, h⟩ := bind_eq_ok.mp h
  obtain ⟨_, -, h⟩ := bind_eq_ok.mp h
  obtain ⟨_, -, h⟩ := bind_eq_ok.mp h
  obtain ⟨_, -, h⟩ := bind_eq_ok.mp h
  cases h
  rfl

/-- The ids of a context are those of its tools. -/
theorem context_ids (h : buildRuntimeContext env db release actorId channel = .ok context)
    (toolId : String) :
    toolId ∈ context.toolScopes.map Prod.fst
      ↔ ∃ tool ∈ context.tools, Dict.get tool "tool_id" = .str toolId := by
  obtain ⟨_, _, _, _, scopes, -, -, -, -, hscopes, hkeys, -⟩ := buildRuntimeContext_ok h
  rw [hkeys, toolScopes_keys hscopes]
  refine exists_congr fun tool => and_congr_right fun htool => ?_
  obtain ⟨_, _, id, _, -, -, -, hidentity, -⟩ := context_tool h htool
  have hid : Dict.get tool "tool_id" = .str id := congrArg Prod.fst hidentity
  rw [hid, Json.pyStr_str, Json.str.injEq]

end Built

/-- The tools of a runtime context are inside all their bounds exactly when
its snapshot decides: no empty `role_tool_scopes` meets a tool that the current
grants let through. -/
theorem context_bounded_iff {env : RuntimeEnv} {db : PlatformTables} {release : ReleaseRow}
    {actorId channel : Option String} {context : RuntimeContext}
    (h : buildRuntimeContext env db release actorId channel = .ok context) :
    ContextBounded db release context ↔ SnapshotDecides db release actorId := by
  constructor
  · intro hbounded hempty actor entries toolId scope hactor hnonempty hpasses
    obtain ⟨tool, htool, -⟩ := tool_context h hempty hactor hnonempty hpasses
    obtain ⟨_, _, _, _, -, -, -, hsnapshot⟩ := hbounded.tools tool htool
    obtain ⟨raw, _, hraw, -, -⟩ := hsnapshot [] hempty
    cases hraw
  · intro hdecides
    refine ⟨fun tool htool => ?_, fun toolId => ?_, context_ids h⟩
    · obtain ⟨actor, entries, toolId, scope, hactor, hnonempty, hpasses, hidentity,
        hsnapshot⟩ := context_tool h htool
      refine ⟨actor, entries, toolId, scope, by rw [context_actorId h, hactor], hpasses,
        hidentity, fun mapping hmapping => hsnapshot mapping hmapping ?_⟩
      rintro rfl
      exact hdecides hmapping actor entries toolId scope hactor hnonempty hpasses
    · obtain ⟨_, _, _, _, _, -, -, -, -, -, -, hids⟩ := buildRuntimeContext_ok h
      rw [hids, mem_sortedSet]
      exact context_ids h toolId

/-- One active tool, which the role of `u1` grants. -/
def payTables : PlatformTables where
  tools := [{ id := "pay", status := "active" }]
  users := [⟨"u1", "active"⟩]
  roles := [⟨"cashier", "active"⟩]
  userRoles := [("u1", "cashier")]
  rolePermissions := [⟨"cashier", "pay", .obj []⟩]

/-- A release with that tool, published by a user with the grants `published`. -/
def payRelease (published : Dict) : ReleaseRow where
  releaseId := "rel_1"
  agentId := "agent_1"
  version := 1
  status := "published"
  configJson := .obj
    [("agent", .obj [("id", .str "agent_1"), ("channels", .arr [.str "web_console"])]),
     ("tools", .arr [.obj [("tool_id", .str "pay")]]),
     ("permission_snapshot", .obj [("role_tool_scopes", .obj published)])]

theorem context_bounded_iff_payRelease :
    ∃ context, buildRuntimeContext { localRunner := "mcp+stdio://python" } payTables
        (payRelease [("pay", .obj [])]) (some "u1") (some "web_console") = .ok context
      ∧ context.toolIds = ["pay"]
      ∧ (ContextBounded payTables (payRelease [("pay", .obj [])]) context
          ↔ SnapshotDecides payTables (payRelease [("pay", .obj [])]) (some "u1")) := by
  have hids : (buildRuntimeContext { localRunner := "mcp+stdio://python" } payTables
      (payRelease [("pay", .obj [])]) (some "u1") (some "web_console")).map
      RuntimeContext.toolIds = .ok ["pay"] := by decide
  cases h : buildRuntimeContext { localRunner := "mcp+stdio://python" } payTables
      (payRelease [("pay", .obj [])]) (some "u1") (some "web_console") with
  | error _ => rw [h] at hids; cases hids
  | ok context =>
      rw [h] at hids
      exact ⟨context, rfl, Except.ok.inj hids, context_bounded_iff h⟩

/-- The publisher had no grant at all, and the actor still gets the tool. -/
theorem empty_snapshot_not_bounding :
    ∃ context, buildRuntimeContext { localRunner := "mcp+stdio://python" } payTables
        (payRelease []) (some "u1") (some "web_console") = .ok context
      ∧ context.toolIds = ["pay"] ∧ snapshotMapping (payRelease []) = some []
      ∧ ¬ ContextBounded payTables (payRelease []) context := by
  have hids : (buildRuntimeContext { localRunner := "mcp+stdio://python" } payTables
      (payRelease []) (some "u1") (some "web_console")).map
      RuntimeContext.toolIds = .ok ["pay"] := by decide
  cases h : buildRuntimeContext { localRunner := "mcp+stdio://python" } payTables
      (payRelease []) (some "u1") (some "web_console") with
  | error _ => rw [h] at hids; cases hids
  | ok context =>
      rw [h] at hids
      have hpay : context.toolIds = ["pay"] := Except.ok.inj hids
      refine ⟨context, rfl, hpay, rfl, fun hbounded => ?_⟩
      obtain ⟨tool, htool, -⟩ := (hbounded.toolIds "pay").mp (by simp [hpay])
      obtain ⟨_, _, _, _, -, -, -, hsnapshot⟩ := hbounded.tools tool htool
      obtain ⟨_, _, hraw, -, -⟩ := hsnapshot [] rfl
      cases hraw

end Aegora
