import Aegora.AdminWrites
import Aegora.McpToolIds

/-!
# What a discovery changes

`replace_discovered_mcp_tools` upserts the discovered tools by their id and
disables the connection's other MCP tools. The second statement looks at
the source and the connection of a row, the first one only at its id.
-/

namespace Aegora

open Py Handlers

/-- A row that discovery on the connection may change. -/
def ToolDefinition.OfConnection (connectionId : String) (tool : ToolDefinition) : Prop :=
  tool.source = "mcp" ∧ tool.mcpConnectionId = some connectionId

instance (connectionId : String) (tool : ToolDefinition) :
    Decidable (tool.OfConnection connectionId) :=
  inferInstanceAs (Decidable (_ ∧ _))

/-- From the rows `before` to the rows `after`, only rows of the connection changed. -/
structure OnlyConnection (connectionId : String) (before after : List ToolDefinition) : Prop where
  kept : ∀ tool ∈ before, ¬ tool.OfConnection connectionId → tool ∈ after
  new : ∀ tool ∈ after, tool ∉ before → tool.OfConnection connectionId

/-- Every active row of the connection was discovered. -/
def ActiveDiscovered (connectionId : String) (toolIds : List String)
    (after : List ToolDefinition) : Prop :=
  ∀ tool ∈ after, tool.OfConnection connectionId → tool.status = "active" → tool.toolId ∈ toolIds

/-- No row that was disabled is active. -/
def DisabledKept (before after : List ToolDefinition) : Prop :=
  ∀ tool ∈ before, tool.status = "disabled" →
    ∀ tool' ∈ after, tool'.toolId = tool.toolId → tool'.status ≠ "active"

/-- No row of another source or connection has the id of a discovered tool. -/
def IdsFree (connectionId : String) (toolIds : List String) (rows : List ToolDefinition) : Prop :=
  ∀ tool ∈ rows, tool.toolId ∈ toolIds → tool.OfConnection connectionId

/-! ## The upserts -/

section

variable {env : ControlPlaneEnv} {connection : ConnectionRow} {db : ControlPlaneTables}
  {tool : ToolDefinition} {tools : List ToolDefinition}

theorem upsertedTool_same (rows : List ToolDefinition) (tool : ToolDefinition) :
    (upsertedTool true rows tool).source = tool.source
      ∧ (upsertedTool true rows tool).mcpConnectionId = tool.mcpConnectionId
      ∧ (upsertedTool true rows tool).toolId = tool.toolId := by
  obtain ⟨hconnection, hid⟩ := mcpConnectionId_upsertedTool true rows tool
  refine ⟨?_, hconnection, hid⟩
  unfold upsertedTool
  split
  · rfl
  · rfl

/-- The status of a row that is there is preserved. -/
theorem status_upsertedTool {rows : List ToolDefinition} {old : ToolDefinition}
    (hkeys : (rows.map ToolDefinition.toolId).Nodup) (hold : old ∈ rows)
    (hid : old.toolId = tool.toolId) : (upsertedTool true rows tool).status = old.status := by
  unfold upsertedTool
  rw [(Transactions.find_eq_some hkeys).mpr ⟨hold, hid⟩]
  rfl

theorem ofConnection_hashed (htool : tool.OfConnection connection.id) :
    (env.hashed tool (some connection)).OfConnection connection.id := by
  refine ⟨?_, (hashed_same env tool (some connection)).1.trans htool.2⟩
  unfold ControlPlaneEnv.hashed
  split
  · exact htool.1
  · exact htool.1

/-- What the upserts leave: the rows with other ids, and rows of the connection under the
discovered ids, with the status of the rows that were there. -/
structure Upserted (connectionId : String) (toolIds : List String)
    (before after : List ToolDefinition) : Prop where
  keys : (after.map ToolDefinition.toolId).Nodup
  others : ∀ tool, tool.toolId ∉ toolIds → (tool ∈ after ↔ tool ∈ before)
  discovered : ∀ tool ∈ after, tool.toolId ∈ toolIds → tool.OfConnection connectionId
  ids : ∀ old ∈ before, ∃ tool ∈ after, tool.toolId = old.toolId
  status : ∀ tool ∈ after, ∀ old ∈ before, old.toolId = tool.toolId → tool.status = old.status

theorem upserted_one (hkeys : (db.tools.map ToolDefinition.toolId).Nodup)
    (htool : tool.OfConnection connection.id) (h : outcome (upsertTool true tool) db = .ok ()) :
    Upserted connection.id [tool.toolId] db.tools (after (upsertTool true tool) db).tools := by
  obtain ⟨hsource, hconnection, hid⟩ := upsertedTool_same db.tools tool
  rw [tools_upsertTool h]
  refine ⟨Transactions.nodup_put hkeys, ?_, ?_, ?_, ?_⟩
  · intro other hother
    rw [List.mem_singleton] at hother
    rw [Transactions.mem_put, hid]
    constructor
    · rintro (rfl | ⟨hmem, -⟩)
      · exact absurd hid hother
      · exact hmem
    · exact fun hmem => .inr ⟨hmem, hother⟩
  · intro other hmem hother
    rw [List.mem_singleton] at hother
    rcases Transactions.mem_put.mp hmem with rfl | ⟨-, hne⟩
    · exact ⟨hsource.trans htool.1, hconnection.trans htool.2⟩
    · exact absurd (hother.trans hid.symm) hne
  · intro old hold
    by_cases hsame : old.toolId = tool.toolId
    · exact ⟨_, Transactions.mem_put.mpr (.inl rfl), hid.trans hsame.symm⟩
    · exact ⟨old, Transactions.mem_put.mpr (.inr ⟨hold, fun h => hsame (h.trans hid)⟩), rfl⟩
  · intro other hmem old hold hsame
    rcases Transactions.mem_put.mp hmem with rfl | ⟨hmem, -⟩
    · exact status_upsertedTool hkeys hold (hsame.trans hid)
    · rw [List.inj_on_of_nodup_map hkeys hold hmem hsame]

theorem upserted_all (hkeys : (db.tools.map ToolDefinition.toolId).Nodup)
    (htools : ∀ tool ∈ tools, tool.OfConnection connection.id)
    (h : outcome (tools.forM fun tool => upsertTool true (env.hashed tool (some connection))) db
      = .ok ()) :
    Upserted connection.id (tools.map ToolDefinition.toolId) db.tools
      (after (tools.forM fun tool => upsertTool true (env.hashed tool (some connection)))
        db).tools := by
  induction tools generalizing db with
  | nil =>
      refine ⟨hkeys, fun _ _ => Iff.rfl, fun _ _ hid => absurd hid List.not_mem_nil,
        fun old hold => ⟨old, hold, rfl⟩, ?_⟩
      intro tool htool old hold hid
      rw [List.inj_on_of_nodup_map hkeys hold htool hid]
  | cons tool rest ih =>
      change outcome (upsertTool true (env.hashed tool (some connection)) >>= fun _ =>
        rest.forM fun tool => upsertTool true (env.hashed tool (some connection))) db = _ at h
      obtain ⟨⟨⟩, hfirst, hrest, hafter⟩ := bind_returned h
      have hone := upserted_one hkeys
        (ofConnection_hashed (htools tool List.mem_cons_self)) hfirst
      rw [(hashed_same env tool (some connection)).2] at hone
      have hmore := ih hone.keys (fun other hother => htools other (List.mem_cons_of_mem _ hother))
        hrest
      change Upserted _ _ _ (after (upsertTool true (env.hashed tool (some connection)) >>= fun _ =>
        rest.forM fun tool => upsertTool true (env.hashed tool (some connection))) db).tools
      rw [hafter]
      refine ⟨hmore.keys, ?_, ?_, ?_, ?_⟩
      · intro other hother
        rw [List.map_cons, List.mem_cons, not_or] at hother
        rw [hmore.others other hother.2, hone.others other (by simpa using hother.1)]
      · intro other hmem hother
        by_cases hlater : other.toolId ∈ rest.map ToolDefinition.toolId
        · exact hmore.discovered other hmem hlater
        · rw [List.map_cons, List.mem_cons] at hother
          have hsame := hother.resolve_right hlater
          exact hone.discovered other ((hmore.others other hlater).mp hmem)
            (List.mem_singleton.mpr hsame)
      · intro old hold
        obtain ⟨mid, hmid, hmidId⟩ := hone.ids old hold
        obtain ⟨last, hlast, hlastId⟩ := hmore.ids mid hmid
        exact ⟨last, hlast, hlastId.trans hmidId⟩
      · intro other hmem old hold hsame
        obtain ⟨mid, hmid, hmidId⟩ := hone.ids old hold
        rw [hmore.status other hmem mid hmid (hmidId.trans hsame),
          hone.status mid hmid old hold hmidId.symm]

/-! ## The discovery -/

theorem disableMissing_cases (connectionId : String) (toolIds : List String)
    (tool : ToolDefinition) :
    (tool.OfConnection connectionId ∧ tool.toolId ∉ toolIds
        ∧ tool.disableMissing connectionId toolIds = { tool with status := "disabled" })
      ∨ (¬ (tool.OfConnection connectionId ∧ tool.toolId ∉ toolIds)
        ∧ tool.disableMissing connectionId toolIds = tool) := by
  unfold ToolDefinition.disableMissing
  split
  · rename_i h
    exact .inl ⟨⟨h.1, h.2.1⟩, h.2.2, rfl⟩
  · rename_i h
    exact .inr ⟨fun hmissing => h ⟨hmissing.1.1, hmissing.1.2, hmissing.2⟩, rfl⟩

theorem replaced_tools (h : outcome (replaceDiscoveredMcpTools env connection tools) db = .ok ()) :
    (∀ tool ∈ tools, tool.OfConnection connection.id)
      ∧ ∃ db', outcome (tools.forM fun tool =>
            upsertTool true (env.hashed tool (some connection))) db = .ok ()
        ∧ after (tools.forM fun tool =>
            upsertTool true (env.hashed tool (some connection))) db = db'
        ∧ (after (replaceDiscoveredMcpTools env connection tools) db).tools
          = db'.tools.map (·.disableMissing connection.id (tools.map ToolDefinition.toolId)) := by
  unfold replaceDiscoveredMcpTools at h ⊢
  by_cases htools : ∀ tool ∈ tools, tool.source = "mcp" ∧ tool.mcpConnectionId = some connection.id
  · obtain ⟨⟨⟩, -, hrest, hafter⟩ := bind_returned h
    rw [after_demand] at hrest hafter
    obtain ⟨⟨⟩, hupserts, -, hafter'⟩ := bind_returned hrest
    refine ⟨htools, _, hupserts, rfl, ?_⟩
    rw [hafter, hafter', after_modify]
  · obtain ⟨e, he⟩ := stops_bind (stops_demand htools _) _
    rw [he] at h
    cases h

/-- A discovery changes only rows of its connection exactly if no row of another source or
connection has the id of a discovered tool. In any case it leaves no other active row of the
connection and activates no disabled row. -/
theorem discovery_frame_iff (hkeys : (db.tools.map ToolDefinition.toolId).Nodup)
    (h : outcome (replaceDiscoveredMcpTools env connection tools) db = .ok ()) :
    (OnlyConnection connection.id db.tools
          (after (replaceDiscoveredMcpTools env connection tools) db).tools
        ∧ ActiveDiscovered connection.id (tools.map ToolDefinition.toolId)
          (after (replaceDiscoveredMcpTools env connection tools) db).tools
        ∧ DisabledKept db.tools (after (replaceDiscoveredMcpTools env connection tools) db).tools)
      ↔ IdsFree connection.id (tools.map ToolDefinition.toolId) db.tools := by
  obtain ⟨htools, db', hupserts, rfl, hafter⟩ := replaced_tools h
  have hupserted := upserted_all hkeys htools hupserts
  rw [hafter]
  generalize (after (tools.forM fun tool => upsertTool true (env.hashed tool (some connection)))
    db).tools = rows at hupserted
  generalize tools.map ToolDefinition.toolId = ids at hupserted
  constructor
  · rintro ⟨hframe, -, -⟩ tool htool hid
    by_contra hforeign
    obtain ⟨row, hrow, hsame⟩ := List.mem_map.mp (hframe.kept tool htool hforeign)
    rcases disableMissing_cases connection.id ids row with ⟨-, hmissing, heq⟩ | ⟨-, heq⟩
    · rw [← hsame, heq] at hid
      exact hmissing hid
    · rw [← hsame, heq] at hid hforeign
      exact hforeign (hupserted.discovered row hrow hid)
  · intro hfree
    refine ⟨⟨?_, ?_⟩, ?_, ?_⟩
    · intro tool htool hforeign
      have hid : tool.toolId ∉ ids := fun hid => hforeign (hfree tool htool hid)
      refine List.mem_map.mpr ⟨tool, (hupserted.others tool hid).mpr htool, ?_⟩
      rcases disableMissing_cases connection.id ids tool with ⟨hof, -, -⟩ | ⟨-, heq⟩
      · exact absurd hof hforeign
      · exact heq
    · intro tool htool hnew
      obtain ⟨row, hrow, rfl⟩ := List.mem_map.mp htool
      rcases disableMissing_cases connection.id ids row with ⟨hof, -, heq⟩ | ⟨-, heq⟩
      · rw [heq]
        exact hof
      · rw [heq] at hnew ⊢
        by_cases hid : row.toolId ∈ ids
        · exact hupserted.discovered row hrow hid
        · exact absurd ((hupserted.others row hid).mp hrow) hnew
    · intro tool htool hof hactive
      obtain ⟨row, hrow, rfl⟩ := List.mem_map.mp htool
      rcases disableMissing_cases connection.id ids row with ⟨-, -, heq⟩ | ⟨hfound, heq⟩
      · rw [heq] at hactive
        have hstatus : "disabled" = "active" := hactive
        exact absurd hstatus (by decide)
      · rw [heq] at hof ⊢
        by_contra hid
        exact hfound ⟨hof, hid⟩
    · intro old hold hdisabled tool htool hsame hactive
      obtain ⟨row, hrow, rfl⟩ := List.mem_map.mp htool
      rcases disableMissing_cases connection.id ids row with ⟨-, -, heq⟩ | ⟨-, heq⟩
      · rw [heq] at hactive
        have hstatus : "disabled" = "active" := hactive
        exact absurd hstatus (by decide)
      · rw [heq] at hactive hsame
        rw [hupserted.status row hrow old hold hsame.symm, hdisabled] at hactive
        exact absurd hactive (by decide)

end

/-! ## A tool under the id of another one -/

def mapsConnection : ConnectionRow where
  id := "maps"
  name := "maps"
  status := "active"
  transport := "streamable_http"
  configJson := .obj []
  configVersion := 1
  configHash := "sha256:v1"

def mapsTables : ControlPlaneTables where
  connections := [mapsConnection]

/-- Someone registers an HTTP tool. -/
def registers (toolId : String) : ControlPlaneRequest where
  endpoint := .setTool toolId {}

/-- What discovery makes of a remote tool `geo`. -/
def geoTools : List ToolDefinition :=
  [⟨"mcp.maps.geo", "mcp", "mcp-v1", "active", "",
    [("runner_name", .str "geo"), ("mcp_connection_id", .str "maps")]⟩]

/-- The tables after the registration. -/
def registered (toolId : String) : ControlPlaneTables :=
  ((controlPlaneStep exampleControlPlaneEnv mapsTables (registers toolId)).getD mapsTables)

/-- The tables after the discovery. -/
def rediscovered (db : ControlPlaneTables) : ControlPlaneTables :=
  after (replaceDiscoveredMcpTools exampleControlPlaneEnv mapsConnection geoTools) db

theorem discovery_frame_iff_orders :
    (OnlyConnection "maps" (registered "orders").tools (rediscovered (registered "orders")).tools
        ∧ ActiveDiscovered "maps" (geoTools.map ToolDefinition.toolId)
          (rediscovered (registered "orders")).tools
        ∧ DisabledKept (registered "orders").tools (rediscovered (registered "orders")).tools)
      ↔ IdsFree "maps" (geoTools.map ToolDefinition.toolId) (registered "orders").tools :=
  @discovery_frame_iff exampleControlPlaneEnv mapsConnection (registered "orders") geoTools
    (by decide +kernel) (by decide +kernel)

theorem discoverTools_geo (sha256 : String → String) :
    discoverTools sha256 mapsConnection [("geo", [])] = .ok geoTools := by
  have hplain : sanitised "geo" = "geo".toList := by decide +kernel
  have hstrip : strip "geo" = "geo" := by decide +kernel
  have hid : mcpToolId sha256 "maps" "geo" = "mcp.maps.geo" := by
    unfold mcpToolId safeName
    rw [if_neg (not_not.mpr hplain)]
    decide +kernel
  have hbuilt : [("geo", ([] : Dict))].mapM (fun remote =>
      remoteToolToDefinition sha256 mapsConnection (strip remote.1) remote.2) = .ok geoTools := by
    simp only [List.mapM_cons, List.mapM_nil, hstrip, remoteToolToDefinition]
    rw [if_neg (show ¬ "geo" = "" by decide), show mapsConnection.id = "maps" from rfl, hid]
    rfl
  unfold discoverTools
  rw [hbuilt]
  rfl

/-- The registered HTTP tool becomes an MCP tool of the connection. -/
theorem discovery_takes_over_tool :
    Runs.run (controlPlaneStep exampleControlPlaneEnv) mapsTables [registers "mcp.maps.geo"]
        = some (registered "mcp.maps.geo")
      ∧ (∀ sha256, discoverTools sha256 mapsConnection [("geo", [])] = .ok geoTools)
      ∧ ((registered "mcp.maps.geo").tools.map fun tool => (tool.toolId, tool.source))
        = [("mcp.maps.geo", "http")]
      ∧ ((rediscovered (registered "mcp.maps.geo")).tools.map fun tool =>
          (tool.toolId, tool.source)) = [("mcp.maps.geo", "mcp")]
      ∧ ¬ OnlyConnection "maps" (registered "mcp.maps.geo").tools
        (rediscovered (registered "mcp.maps.geo")).tools := by
  refine ⟨rfl, discoverTools_geo, by decide +kernel, by decide +kernel, fun hframe => ?_⟩
  have hlost : ∃ tool ∈ (registered "mcp.maps.geo").tools, ¬ tool.OfConnection "maps"
      ∧ tool ∉ (rediscovered (registered "mcp.maps.geo")).tools := by decide +kernel
  obtain ⟨tool, htool, hforeign, hgone⟩ := hlost
  exact hgone (hframe.kept tool htool hforeign)

end Aegora
