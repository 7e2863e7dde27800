import Aegora.ControlPlaneApi

/-!
# The ids of discovered MCP tools

`mcp_discovery.py` names a tool `mcp.<connection>.<name>`. A connection id may
contain dots, and so may a name that needs no sanitising; one that does is
given the first digits of its digest behind another dot. So one text may be
read as an id in several ways.

`dotted_eq_iff` lists the ways two dotted texts agree, `toolId_ne_iff` which
of them the ids of two tools can have, and `discovery_keeps_row_iff` what
that means for the rows that `replace_discovered_mcp_tools` finds.
-/

namespace Aegora

open Py Handlers

/-! ## `_tool_id` -/

/-- `[a-zA-Z0-9._-]`. -/
def isIdChar (c : Char) : Bool := c.isAlphanum || c == '.' || c == '_' || c == '-'

/-- `re.sub(r"[^…]+", "_", …)`; the flag says that a run is being replaced. -/
def replaceRuns (keep : Char → Bool) : Bool → List Char → List Char
  | _, [] => []
  | inRun, c :: cs =>
      if keep c then c :: replaceRuns keep false cs
      else if inRun then replaceRuns keep true cs
      else '_' :: replaceRuns keep true cs

/-- The name as it can stand in an id. -/
def sanitised (remoteName : String) : List Char :=
  let cleaned := stripOf ['.', '_', '-'] (replaceRuns isIdChar false remoteName.toList)
  if cleaned = [] then ['t', 'o', 'o', 'l'] else cleaned

/-- `hexdigest()[:8]`. -/
def nameDigest (sha256 : String → String) (remoteName : String) : List Char :=
  (sha256 remoteName).toList.take 8

def safeName (sha256 : String → String) (remoteName : String) : List Char :=
  if sanitised remoteName ≠ remoteName.toList then
    sanitised remoteName ++ '.' :: nameDigest sha256 remoteName
  else remoteName.toList

/-- `_tool_id`. -/
def mcpToolId (sha256 : String → String) (connectionId remoteName : String) : String :=
  "mcp." ++ connectionId ++ "." ++ String.ofList (safeName sha256 remoteName)

/-! ## When two ids are the same -/

/-- The ways two dotted texts agree. -/
theorem dotted_eq_iff {α : Type*} {dot : α} {a b x y : List α} :
    a ++ dot :: x = b ++ dot :: y
      ↔ (a = b ∧ x = y) ∨ (∃ m, b = a ++ dot :: m ∧ x = m ++ dot :: y)
        ∨ ∃ m, a = b ++ dot :: m ∧ y = m ++ dot :: x := by
  constructor
  · intro h
    rcases List.append_eq_append_iff.mp h with ⟨m, hb, hx⟩ | ⟨m, ha, hy⟩
    · cases m with
      | nil => exact Or.inl ⟨by rw [hb, List.append_nil], (List.cons.inj hx).2⟩
      | cons c m =>
          obtain ⟨rfl, hrest⟩ := List.cons.inj hx
          exact Or.inr (Or.inl ⟨m, hb, hrest⟩)
    · cases m with
      | nil => exact Or.inl ⟨by rw [ha, List.append_nil], (List.cons.inj hy).2.symm⟩
      | cons c m =>
          obtain ⟨rfl, hrest⟩ := List.cons.inj hy
          exact Or.inr (Or.inr ⟨m, ha, hrest⟩)
  · rintro (⟨rfl, rfl⟩ | ⟨m, rfl, rfl⟩ | ⟨m, rfl, rfl⟩) <;> simp

/-- A tool as its connection knows it. -/
structure RemoteTool where
  connectionId : String
  name : String
deriving DecidableEq

namespace RemoteTool

/-- A name that needs no sanitising. -/
def Plain (t : RemoteTool) : Prop := sanitised t.name = t.name.toList

instance (t : RemoteTool) : Decidable t.Plain := inferInstanceAs (Decidable (_ = _))

/-- What the id shows of a name that was sanitised. -/
def shown (sha256 : String → String) (t : RemoteTool) : List Char :=
  sanitised t.name ++ '.' :: nameDigest sha256 t.name

/-- The plain name of `p` makes up for the difference to `q`: for the longer part of a
connection id, or for a sanitised name and its digest. -/
inductive Imitates (sha256 : String → String) (p q : RemoteTool) : Prop
  | split (m : List Char) (hp : p.Plain) (hq : q.Plain)
      (hconnection : q.connectionId.toList = p.connectionId.toList ++ '.' :: m)
      (hname : p.name.toList = m ++ '.' :: q.name.toList)
  | same (hp : p.Plain) (hq : ¬ q.Plain) (hconnection : p.connectionId = q.connectionId)
      (hname : p.name.toList = q.shown sha256)
  | longer (m : List Char) (hp : p.Plain) (hq : ¬ q.Plain)
      (hconnection : q.connectionId.toList = p.connectionId.toList ++ '.' :: m)
      (hname : p.name.toList = m ++ '.' :: q.shown sha256)
  | shorter (m : List Char) (hp : p.Plain) (hq : ¬ q.Plain)
      (hconnection : p.connectionId.toList = q.connectionId.toList ++ '.' :: m)
      (hname : q.shown sha256 = m ++ '.' :: p.name.toList)

/-- One of the two names imitates the other tool. -/
def Clash (sha256 : String → String) (p q : RemoteTool) : Prop :=
  Imitates sha256 p q ∨ Imitates sha256 q p

variable {sha256 : String → String} {p q : RemoteTool}

theorem safeName_plain (h : p.Plain) : safeName sha256 p.name = p.name.toList :=
  if_neg (not_not.mpr h)

theorem safeName_sanitised (h : ¬ p.Plain) : safeName sha256 p.name = p.shown sha256 :=
  if_pos h

theorem toolId_eq_iff :
    mcpToolId sha256 p.connectionId p.name = mcpToolId sha256 q.connectionId q.name
      ↔ (p.connectionId = q.connectionId ∧ safeName sha256 p.name = safeName sha256 q.name)
        ∨ (∃ m, q.connectionId.toList = p.connectionId.toList ++ '.' :: m
            ∧ safeName sha256 p.name = m ++ '.' :: safeName sha256 q.name)
        ∨ ∃ m, p.connectionId.toList = q.connectionId.toList ++ '.' :: m
            ∧ safeName sha256 q.name = m ++ '.' :: safeName sha256 p.name := by
  have hdot : ".".toList = ['.'] := by decide
  unfold mcpToolId
  rw [← String.toList_inj]
  simp only [String.toList_append, String.toList_ofList, hdot, List.append_assoc,
    List.singleton_append, List.append_right_inj]
  rw [dotted_eq_iff, String.toList_inj]

/-- Two sanitised names differ in their digests. -/
theorem shown_ne (hdot : ∀ text, '.' ∉ (sha256 text).toList)
    (hdigest : nameDigest sha256 p.name = nameDigest sha256 q.name → p.name = q.name)
    (before : List Char) (h : p.shown sha256 = before ++ q.shown sha256) :
    p.name = q.name ∧ before = [] := by
  have hplain : ∀ t : RemoteTool, '.' ∉ nameDigest sha256 t.name := fun t hmem =>
    hdot t.name (List.mem_of_mem_take hmem)
  unfold shown at h
  rw [← List.append_assoc] at h
  obtain ⟨hname, hsame⟩ := append_cons_inj_last (hplain p) (hplain q) h
  have hnames := hdigest hsame
  rw [hnames] at hname
  exact ⟨hnames, List.self_eq_append_left.mp hname⟩

/-- A tool that imitates another one has its id. -/
theorem toolId_eq_of_imitates (h : Imitates sha256 p q) :
    mcpToolId sha256 p.connectionId p.name = mcpToolId sha256 q.connectionId q.name := by
  rw [toolId_eq_iff]
  cases h with
  | split m hp hq hconnection hname =>
      rw [safeName_plain hp, safeName_plain hq]
      exact Or.inr (Or.inl ⟨m, hconnection, hname⟩)
  | same hp hq hconnection hname =>
      rw [safeName_plain hp, safeName_sanitised hq]
      exact Or.inl ⟨hconnection, hname⟩
  | longer m hp hq hconnection hname =>
      rw [safeName_plain hp, safeName_sanitised hq]
      exact Or.inr (Or.inl ⟨m, hconnection, hname⟩)
  | shorter m hp hq hconnection hname =>
      rw [safeName_plain hp, safeName_sanitised hq]
      exact Or.inr (Or.inr ⟨m, hconnection, hname⟩)

/-- A plain name against a sanitised one. -/
theorem imitates_of_toolId_eq (hp : p.Plain) (hq : ¬ q.Plain)
    (h : mcpToolId sha256 p.connectionId p.name = mcpToolId sha256 q.connectionId q.name) :
    Imitates sha256 p q := by
  rw [toolId_eq_iff, safeName_plain hp, safeName_sanitised hq] at h
  rcases h with ⟨hconnection, hname⟩ | ⟨m, hconnection, hname⟩ | ⟨m, hconnection, hname⟩
  · exact .same hp hq hconnection hname
  · exact .longer m hp hq hconnection hname
  · exact .shorter m hp hq hconnection hname

/-- The ids of two tools agree only where one imitates the other. -/
theorem toolId_eq_iff_clash (hdot : ∀ text, '.' ∉ (sha256 text).toList)
    (hdigest : nameDigest sha256 p.name = nameDigest sha256 q.name → p.name = q.name)
    (hne : p ≠ q) :
    mcpToolId sha256 p.connectionId p.name = mcpToolId sha256 q.connectionId q.name
      ↔ Clash sha256 p q := by
  have hdistinct : ¬ (p.connectionId = q.connectionId ∧ p.name = q.name) := fun ⟨h, h'⟩ =>
    hne (congrArg₂ RemoteTool.mk h h')
  refine ⟨fun h => ?_, fun h => h.elim toolId_eq_of_imitates fun h =>
    (toolId_eq_of_imitates h).symm⟩
  by_cases hp : p.Plain <;> by_cases hq : q.Plain
  · rw [toolId_eq_iff, safeName_plain hp, safeName_plain hq] at h
    rcases h with ⟨hconnection, hname⟩ | ⟨m, hconnection, hname⟩ | ⟨m, hconnection, hname⟩
    · exact absurd ⟨hconnection, String.toList_inj.mp hname⟩ hdistinct
    · exact Or.inl (.split m hp hq hconnection hname)
    · exact Or.inr (.split m hq hp hconnection hname)
  · exact Or.inl (imitates_of_toolId_eq hp hq h)
  · exact Or.inr (imitates_of_toolId_eq hq hp h.symm)
  · rw [toolId_eq_iff, safeName_sanitised hp, safeName_sanitised hq] at h
    rcases h with ⟨hconnection, hname⟩ | ⟨m, -, hname⟩ | ⟨m, -, hname⟩
    · exact absurd ⟨hconnection, (shown_ne hdot hdigest [] hname).1⟩ hdistinct
    · rw [List.append_cons] at hname
      exact absurd (shown_ne hdot hdigest _ hname).2 (by simp)
    · rw [List.append_cons] at hname
      exact absurd (shown_ne hdot (fun h => (hdigest h.symm).symm) _ hname).2 (by simp)

/-- For any two tools: their ids differ exactly when neither imitates the other. Two dotted
texts agree in few ways (`dotted_eq_iff`), and the form of a sanitised name leaves fewer. -/
theorem tool_ids_differ_iff (hdot : ∀ text, '.' ∉ (sha256 text).toList)
    (hdigest : nameDigest sha256 p.name = nameDigest sha256 q.name → p.name = q.name)
    (hne : p ≠ q) :
    mcpToolId sha256 p.connectionId p.name ≠ mcpToolId sha256 q.connectionId q.name
      ↔ ¬ Clash sha256 p q :=
  not_congr (toolId_eq_iff_clash hdot hdigest hne)

/-- Connection ids without a dot keep their tools apart. -/
theorem not_clash_of_undotted (hp : '.' ∉ p.connectionId.toList) (hq : '.' ∉ q.connectionId.toList)
    (hne : p.connectionId ≠ q.connectionId) : ¬ Clash sha256 p q := by
  have hlonger : ∀ (a b : RemoteTool) (m : List Char), '.' ∉ b.connectionId.toList →
      b.connectionId.toList ≠ a.connectionId.toList ++ '.' :: m := fun a b m hdot h =>
    hdot (h ▸ List.mem_append_right _ List.mem_cons_self)
  have hno : ∀ a b : RemoteTool, '.' ∉ a.connectionId.toList → '.' ∉ b.connectionId.toList →
      a.connectionId ≠ b.connectionId → ¬ Imitates sha256 a b := by
    intro a b ha hb hab h
    cases h with
    | split m _ _ hconnection _ => exact hlonger a b m hb hconnection
    | same _ _ hconnection _ => exact hab hconnection
    | longer m _ _ hconnection _ => exact hlonger a b m hb hconnection
    | shorter m _ _ hconnection _ => exact hlonger b a m ha hconnection
  exact fun h => h.elim (hno p q hp hq hne) (hno q p hq hp hne.symm)

/-- Two accepted connections and a name for each, as the test of discovery has one. -/
def publicSearch : RemoteTool := ⟨"search.public", "web-search"⟩

def spacedSearch : RemoteTool := ⟨"search", "web search"⟩

/-- The digests of the two names. -/
def searchDigest (name : String) : String :=
  if name = "web search" then "185474f7f1463b9178418fb733da6e9600d84d954606a3022e6fa20259cc4e71"
  else "c324229582e9a1160cd7a0364c47465cfce9e0f8c3661e944bdeccb21d5b7592"

theorem tool_ids_differ_search :
    mcpToolId searchDigest spacedSearch.connectionId spacedSearch.name
        ≠ mcpToolId searchDigest publicSearch.connectionId publicSearch.name
      ↔ ¬ Clash searchDigest spacedSearch publicSearch :=
  tool_ids_differ_iff
    (by
      intro text
      unfold searchDigest
      split <;> decide +kernel)
    (by decide +kernel) (by decide)

end RemoteTool

/-- Two accepted connections whose tools have one id. -/
theorem tool_ids_collide :
    validIdentifier "search" = true ∧ validIdentifier "search.public" = true
      ∧ ∀ sha256, mcpToolId sha256 "search" "public.query"
        = mcpToolId sha256 "search.public" "query" := by
  refine ⟨by decide, by decide, fun sha256 => ?_⟩
  have hlong : sanitised "public.query" = "public.query".toList := by decide +kernel
  have hshort : sanitised "query" = "query".toList := by decide +kernel
  unfold mcpToolId safeName
  rw [if_neg (not_not.mpr hlong), if_neg (not_not.mpr hshort)]
  decide +kernel

/-! ## Discovery -/

/-- `remote_tool_to_definition` of a stripped name; the other columns are given. -/
def remoteToolToDefinition (sha256 : String → String) (connection : ConnectionRow)
    (remoteName : String) (columns : Dict) : Except String ToolDefinition :=
  if remoteName = "" then .error "MCP 工具缺少 name"
  else .ok
    { toolId := mcpToolId sha256 connection.id remoteName
      source := "mcp"
      version := "mcp-v" ++ toString connection.configVersion
      status := "active"
      manifestHash := ""
      fields := Dict.merge columns [("runner_name", .str remoteName),
        ("mcp_connection_id", .str connection.id)] }

/-- `discover_tools`, from the names and columns that the server lists. -/
def discoverTools (sha256 : String → String) (connection : ConnectionRow)
    (remotes : List (String × Dict)) : Except String (List ToolDefinition) := do
  let tools ← remotes.mapM fun remote =>
    remoteToolToDefinition sha256 connection (strip remote.1) remote.2
  if ¬ (tools.map ToolDefinition.toolId).Nodup then .error "MCP tools/list 包含重复工具名称"
  else .ok tools

/-- A row that discovery on a connection made of a remote name. -/
structure ToolDefinition.MadeOf (sha256 : String → String) (row : ToolDefinition)
    (t : RemoteTool) : Prop where
  id : row.toolId = mcpToolId sha256 t.connectionId t.name
  connection : row.mcpConnectionId = some t.connectionId

theorem madeOf_definition {sha256 : String → String} {connection : ConnectionRow}
    {remoteName : String} {columns : Dict} {tool : ToolDefinition}
    (h : remoteToolToDefinition sha256 connection remoteName columns = .ok tool) :
    tool.MadeOf sha256 ⟨connection.id, remoteName⟩ := by
  unfold remoteToolToDefinition at h
  obtain ⟨-, h⟩ := ite_error_eq_ok.mp h
  cases h
  refine ⟨rfl, ?_⟩
  simp [ToolDefinition.mcpConnectionId, ToolDefinition.column, Dict.get, Dict.get?_merge,
    Dict.get?_cons]

/-- The tools that were discovered are those of the listed names. -/
theorem madeOf_discovered {sha256 : String → String} {connection : ConnectionRow}
    {remotes : List (String × Dict)} {tools : List ToolDefinition}
    (h : discoverTools sha256 connection remotes = .ok tools) :
    (∀ tool ∈ tools, ∃ remote ∈ remotes, tool.MadeOf sha256 ⟨connection.id, strip remote.1⟩)
      ∧ ∀ remote ∈ remotes, ∃ tool ∈ tools,
        tool.MadeOf sha256 ⟨connection.id, strip remote.1⟩ := by
  unfold discoverTools at h
  obtain ⟨built, hbuilt, h⟩ := bind_eq_ok.mp h
  obtain ⟨-, h⟩ := ite_error_eq_ok.mp h
  cases h
  constructor
  · intro tool htool
    obtain ⟨remote, hremote, hdefinition⟩ := mem_of_mapM_eq_ok hbuilt htool
    exact ⟨remote, hremote, madeOf_definition hdefinition⟩
  · intro remote hremote
    obtain ⟨tool, htool, hdefinition⟩ := mapM_eq_ok_mem hbuilt hremote
    exact ⟨tool, htool, madeOf_definition hdefinition⟩

section

variable {env : ControlPlaneEnv} {connection : ConnectionRow} {db : ControlPlaneTables}
  {row tool : ToolDefinition} {tools : List ToolDefinition}

theorem mcpConnectionId_upsertedTool (preserveStatus : Bool) (rows : List ToolDefinition)
    (tool : ToolDefinition) :
    (upsertedTool preserveStatus rows tool).mcpConnectionId = tool.mcpConnectionId
      ∧ (upsertedTool preserveStatus rows tool).toolId = tool.toolId := by
  unfold upsertedTool
  split
  · split <;> exact ⟨rfl, rfl⟩
  · exact ⟨rfl, rfl⟩

theorem hashed_same (env : ControlPlaneEnv) (tool : ToolDefinition)
    (connection : Option ConnectionRow) :
    (env.hashed tool connection).mcpConnectionId = tool.mcpConnectionId
      ∧ (env.hashed tool connection).toolId = tool.toolId := by
  unfold ControlPlaneEnv.hashed
  split <;> exact ⟨rfl, rfl⟩

theorem tools_upsertTool (h : outcome (upsertTool true tool) db = .ok ()) :
    (after (upsertTool true tool) db).tools
      = Transactions.put ToolDefinition.toolId db.tools (upsertedTool true db.tools tool) := by
  unfold upsertTool at h ⊢
  obtain ⟨db', hget, h, hafter⟩ := bind_returned h
  cases hget
  obtain ⟨⟨⟩, -, -, hafter'⟩ := bind_returned h
  rw [hafter, hafter', after_get, after_demand, after_modify]

/-- An upsert leaves a row of another connection where it has another id. -/
theorem mem_upsertTool (hrow : row.mcpConnectionId ≠ tool.mcpConnectionId)
    (h : outcome (upsertTool true tool) db = .ok ()) :
    row ∈ (after (upsertTool true tool) db).tools ↔ row ∈ db.tools ∧ row.toolId ≠ tool.toolId := by
  obtain ⟨hconnection, hid⟩ := mcpConnectionId_upsertedTool true db.tools tool
  have hother : row ≠ upsertedTool true db.tools tool := by
    rintro rfl
    exact hrow hconnection
  rw [tools_upsertTool h, Transactions.mem_put, hid]
  simp only [hother, false_or]

theorem mem_upserts (hrow : row.mcpConnectionId ≠ some connection.id)
    (htools : ∀ tool ∈ tools, tool.mcpConnectionId = some connection.id)
    (h : outcome (tools.forM fun tool => upsertTool true (env.hashed tool (some connection))) db
      = .ok ()) :
    row ∈ (after (tools.forM fun tool =>
        upsertTool true (env.hashed tool (some connection))) db).tools
      ↔ row ∈ db.tools ∧ row.toolId ∉ tools.map ToolDefinition.toolId := by
  induction tools generalizing db with
  | nil => simp [List.forM]
  | cons tool tools ih =>
      obtain ⟨hconnection, hid⟩ := hashed_same env tool (some connection)
      have hforeign : row.mcpConnectionId
          ≠ (env.hashed tool (some connection)).mcpConnectionId := by
        rw [hconnection, htools tool List.mem_cons_self]
        exact hrow
      change outcome (upsertTool true (env.hashed tool (some connection)) >>= fun _ =>
        tools.forM fun tool => upsertTool true (env.hashed tool (some connection))) db = _ at h
      change row ∈ (after (upsertTool true (env.hashed tool (some connection)) >>= fun _ =>
        tools.forM fun tool => upsertTool true (env.hashed tool (some connection))) db).tools ↔ _
      obtain ⟨⟨⟩, hfirst, hrest, hafter⟩ := bind_returned h
      rw [hafter, ih (fun other hother => htools other (List.mem_cons_of_mem _ hother)) hrest,
        mem_upsertTool hforeign hfirst, hid, List.map_cons, List.mem_cons, not_or, and_assoc]

/-- What discovery on one connection leaves of the others' rows: a tool of theirs stays as it is
exactly when no discovered tool clashes with it. -/
theorem discovery_keeps_row_iff {sha256 : String → String} {remotes : List (String × Dict)}
    (hdot : ∀ text, '.' ∉ (sha256 text).toList)
    (hdiscover : discoverTools sha256 connection remotes = .ok tools)
    (hreplace : outcome (replaceDiscoveredMcpTools env connection tools) db = .ok ())
    (hrow : row ∈ db.tools) {t : RemoteTool} (hmade : row.MadeOf sha256 t)
    (hother : t.connectionId ≠ connection.id)
    (hdigest : ∀ remote ∈ remotes, nameDigest sha256 (strip remote.1) = nameDigest sha256 t.name →
      strip remote.1 = t.name) :
    row ∈ (after (replaceDiscoveredMcpTools env connection tools) db).tools
      ↔ ∀ remote ∈ remotes, ¬ RemoteTool.Clash sha256 ⟨connection.id, strip remote.1⟩ t := by
  obtain ⟨hmadeOf, hlisted⟩ := madeOf_discovered hdiscover
  have hforeign : row.mcpConnectionId ≠ some connection.id := by
    rw [hmade.connection]
    exact fun h => hother (Option.some.inj h)
  have hclash : ∀ remote ∈ remotes, row.toolId = mcpToolId sha256 connection.id (strip remote.1)
      ↔ RemoteTool.Clash sha256 ⟨connection.id, strip remote.1⟩ t := by
    intro remote hremote
    rw [hmade.id, eq_comm]
    exact RemoteTool.toolId_eq_iff_clash (p := ⟨connection.id, strip remote.1⟩) hdot
      (hdigest remote hremote) fun h => hother (congrArg RemoteTool.connectionId h).symm
  have hids : row.toolId ∉ tools.map ToolDefinition.toolId
      ↔ ∀ remote ∈ remotes, ¬ RemoteTool.Clash sha256 ⟨connection.id, strip remote.1⟩ t := by
    rw [List.mem_map]
    constructor
    · intro hmiss remote hremote h
      obtain ⟨tool, htool, hof⟩ := hlisted remote hremote
      exact hmiss ⟨tool, htool, hof.id.trans ((hclash remote hremote).mpr h).symm⟩
    · rintro hnone ⟨tool, htool, hid⟩
      obtain ⟨remote, hremote, hof⟩ := hmadeOf tool htool
      exact hnone remote hremote ((hclash remote hremote).mp (hid.symm.trans hof.id))
  unfold replaceDiscoveredMcpTools at hreplace ⊢
  obtain ⟨⟨⟩, -, hreplace, hafter⟩ := bind_returned hreplace
  obtain ⟨⟨⟩, hupserts, -, hafter'⟩ := bind_returned hreplace
  have hmem := mem_upserts hforeign (fun tool htool => by
    obtain ⟨remote, -, hof⟩ := hmadeOf tool htool
    exact hof.connection) hupserts
  rw [after_demand] at hafter hafter' hmem
  rw [hafter, hafter', after_modify, ← hids, List.mem_map]
  constructor
  · rintro ⟨old, hold, hsame⟩
    unfold ToolDefinition.disableMissing at hsame
    split at hsame
    · rename_i hremoved
      have hconnection := hremoved.2.1
      rw [← hsame] at hforeign
      exact absurd hconnection hforeign
    · rw [hsame] at hold
      exact (hmem.mp hold).2
  · intro hmiss
    refine ⟨row, hmem.mpr ⟨hrow, hmiss⟩, ?_⟩
    unfold ToolDefinition.disableMissing
    rw [if_neg fun h => hforeign h.2.1]

end

end Aegora
