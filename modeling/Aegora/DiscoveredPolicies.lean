import Aegora.McpToolIds
import Aegora.Occurrences

/-!
# The policies of discovered MCP tools

What `remote_tool_to_definition` makes of the annotations and the name of a
tool. Without a `readOnlyHint` the words of the name decide whether the tool
reads or writes, and from that follow its safety columns
(`columns_definition`). A word never contains the `_` of `take_taxi`, so that
this entry of `WRITE_NAME_TOKENS` keeps no tool from being read-only.
-/

namespace Aegora

open Py Occurrences

/-! ## `_infer_read_only` -/

/-- `READ_ONLY_NAME_TOKENS`. -/
def readOnlyNameTokens : List String :=
  ["around", "distance", "direction", "fetch", "geo", "geocode", "get", "ip_location", "list",
    "lookup", "query", "read", "regeocode", "route", "search", "text_search", "weather"]

/-- `WRITE_NAME_TOKENS`. -/
def writeNameTokens : List String :=
  ["book", "cancel", "create", "delete", "modify", "post", "publish", "remove", "send",
    "take_taxi", "update", "write"]

/-- `[^a-zA-Z0-9]`. -/
def separatesWords (c : Char) : Bool := !c.isAlphanum

/-- `_name_tokens`; cutting at every separator only adds empty pieces. -/
def nameTokens (lower : String → String) (remoteName : String) : List String :=
  (((lower remoteName).toList.splitOnP separatesWords).filter (· ≠ [])).map String.ofList

/-- `_infer_read_only`. -/
def inferReadOnly (lower : String → String) (remoteName : String) (annotations : Dict) : Bool :=
  match Dict.get? annotations "readOnlyHint" with
  | some hint => hint = .bool true
  | none =>
      let tokens := nameTokens lower remoteName
      if writeNameTokens.any (· ∈ tokens) then false else readOnlyNameTokens.any (· ∈ tokens)

/-! ## `remote_tool_to_definition` -/

/-- `str.lower`, SHA-256 and `MCPConnectionDefinition.runner_tool_id`. -/
structure DiscoveryEnv where
  lower : String → String
  sha256 : String → String
  runnerToolId : ConnectionRow → String

/-- `_tool_payload`; another object is what its `model_dump` returns. -/
def toolPayload : Json → Except String Dict
  | .obj payload => .ok payload
  | _ => .error "MCP tools/list 返回了无法识别的工具"

def remoteNameOf (payload : Dict) : String :=
  strip ((Dict.get payload "name").orElse (.str "")).pyStr

def annotationsOf (payload : Dict) : Dict := (Dict.get payload "annotations").dictOrEmpty

def sideEffectLevel (readOnly destructive openWorld : Bool) : String :=
  if readOnly then if openWorld then "external_read" else "none"
  else if destructive then "destructive"
  else if openWorld then "external_write"
  else "internal_write"

/-- The columns of the definition, less those that `remoteToolToDefinition` sets. -/
def definitionColumns (env : DiscoveryEnv) (connection : ConnectionRow) (payload : Dict) :
    Except String Dict := do
  let remoteName := remoteNameOf payload
  let annotations := annotationsOf payload
  let readOnly := inferReadOnly env.lower remoteName annotations
  let idempotent : Bool := Dict.get annotations "idempotentHint" = .bool true || readOnly
  let destructive : Bool := Dict.getD annotations "destructiveHint" (.bool !readOnly) ≠ .bool false
  let openWorld : Bool := Dict.getD annotations "openWorldHint" (.bool true) ≠ .bool false
  let timeoutMs ← ((Dict.get connection.configJson.dictOrEmpty "call_timeout_ms").orElse
    (.int 30000)).pyInt
  return [
    ("name", .str ((Dict.get payload "title").orElse (.str remoteName)).pyStr),
    ("description", .str ((Dict.get payload "description").orElse (.str "")).pyStr),
    ("runner_tool_id", .str (env.runnerToolId connection)),
    ("mcp_connection", .obj connection.asDict),
    ("read_only", .bool readOnly),
    ("idempotent", .bool idempotent),
    ("parallel_safe", .bool (readOnly && idempotent)),
    ("requires_approval", .bool !readOnly),
    ("side_effect_level", .str (sideEffectLevel readOnly destructive openWorld)),
    ("data_sensitivity", .str "internal"),
    ("network_access", .str (if openWorld then "external" else "internal_only")),
    ("layer", .str "integration"),
    ("category", .str "mcp_tool"),
    ("namespace", .str connection.id),
    ("group_id", .str ("mcp." ++ connection.id)),
    ("group_name", .str connection.name),
    ("timeout_ms", .int timeoutMs),
    ("input_schema", .obj (Dict.get payload "inputSchema").dictOrEmpty)]

/-- `remote_tool_to_definition`. -/
def remoteToolDefinition (env : DiscoveryEnv) (connection : ConnectionRow) (remoteTool : Json) :
    Except String ToolDefinition := do
  let payload ← toolPayload remoteTool
  let remoteName := remoteNameOf payload
  if remoteName = "" then .error "MCP 工具缺少 name"
  else do
    let columns ← definitionColumns env connection payload
    remoteToolToDefinition env.sha256 connection remoteName columns

/-! ## Words of a name -/

section

variable {lower : String → String} {remoteName token : String} {annotations : Dict}

/-- The name, in lower case, has the token between separators. -/
def Mentions (lower : String → String) (remoteName token : String) : Prop :=
  Delimited separatesWords token.toList (lower remoteName).toList

def OneWord (token : String) : Prop := ∀ c ∈ token.toList, separatesWords c = false

instance (token : String) : Decidable (OneWord token) :=
  List.decidableBAll _ _

theorem mem_nameTokens_iff :
    token ∈ nameTokens lower remoteName
      ↔ token ≠ "" ∧ OneWord token ∧ Mentions lower remoteName token := by
  have hempty : token.toList = [] ↔ token = "" := String.toList_eq_nil_iff
  unfold nameTokens
  rw [List.mem_map]
  constructor
  · rintro ⟨word, hword, rfl⟩
    obtain ⟨hmem, hne⟩ := List.mem_filter.mp hword
    rw [decide_eq_true_eq, ← String.toList_ofList (l := word)] at hne
    rw [← String.toList_ofList (l := word)] at hmem
    exact ⟨fun h => hne (hempty.mpr h), mem_splitOnP_iff.mp hmem⟩
  · rintro ⟨hne, hmem⟩
    refine ⟨token.toList, List.mem_filter.mpr ⟨mem_splitOnP_iff.mpr hmem, ?_⟩,
      String.ofList_toList⟩
    rw [decide_eq_true_eq]
    exact fun h => hne (hempty.mp h)

/-- Which tokens of a set are words of the name. -/
theorem any_nameTokens_iff {tokens : List String} (hne : "" ∉ tokens) :
    tokens.any (· ∈ nameTokens lower remoteName) = true
      ↔ ∃ token ∈ tokens, OneWord token ∧ Mentions lower remoteName token := by
  simp only [List.any_eq_true, decide_eq_true_eq, mem_nameTokens_iff]
  constructor
  · rintro ⟨token, htoken, -, hword⟩
    exact ⟨token, htoken, hword⟩
  · rintro ⟨token, htoken, hword⟩
    exact ⟨token, htoken, fun h => hne (h ▸ htoken), hword⟩

theorem inferReadOnly_eq_false_iff (hhint : Dict.get? annotations "readOnlyHint" = none) :
    inferReadOnly lower remoteName annotations = false
      ↔ (∃ token ∈ writeNameTokens, OneWord token ∧ Mentions lower remoteName token)
        ∨ ∀ token ∈ readOnlyNameTokens, OneWord token → ¬ Mentions lower remoteName token := by
  have hread : readOnlyNameTokens.any (· ∈ nameTokens lower remoteName) = true ↔ _ :=
    any_nameTokens_iff (by decide)
  unfold inferReadOnly
  rw [hhint]
  dsimp only
  rw [← any_nameTokens_iff (by decide)]
  split
  · rename_i hwrite
    simp [hwrite]
  · rename_i hwrite
    rw [← Bool.not_eq_true, hread]
    simp only [hwrite, Bool.false_eq_true, false_or, not_exists, not_and]

/-- `take_taxi` is the only token of several words. -/
theorem mentions_write_iff :
    (∃ token ∈ writeNameTokens, Mentions lower remoteName token)
      ↔ (∃ token ∈ writeNameTokens, OneWord token ∧ Mentions lower remoteName token)
        ∨ Mentions lower remoteName "take_taxi" := by
  have htokens : ∀ token ∈ writeNameTokens, OneWord token ∨ token = "take_taxi" := by
    decide +kernel
  constructor
  · rintro ⟨token, htoken, hmentions⟩
    rcases htokens token htoken with hword | rfl
    · exact Or.inl ⟨token, htoken, hword, hmentions⟩
    · exact Or.inr hmentions
  · rintro (⟨token, htoken, -, hmentions⟩ | hmentions)
    · exact ⟨token, htoken, hmentions⟩
    · exact ⟨"take_taxi", by decide, hmentions⟩

end

/-! ## Safety columns -/

section

variable {env : DiscoveryEnv} {connection : ConnectionRow} {remoteTool : Json} {payload : Dict}
  {tool : ToolDefinition}

/-- The tool runs alone and after an approval. -/
def NeedsApproval (tool : ToolDefinition) : Prop :=
  tool.column "read_only" = .bool false ∧ tool.column "parallel_safe" = .bool false
    ∧ tool.column "requires_approval" = .bool true

/-- The safety columns follow from whether the tool only reads. -/
theorem columns_definition (h : remoteToolDefinition env connection (.obj payload) = .ok tool) :
    tool.column "read_only"
        = .bool (inferReadOnly env.lower (remoteNameOf payload) (annotationsOf payload))
      ∧ tool.column "parallel_safe" = tool.column "read_only"
      ∧ tool.column "requires_approval"
        = .bool !inferReadOnly env.lower (remoteNameOf payload) (annotationsOf payload) := by
  unfold remoteToolDefinition at h
  obtain ⟨payload', hpayload, h⟩ := bind_eq_ok.mp h
  cases hpayload
  obtain ⟨-, h⟩ := ite_error_eq_ok.mp h
  obtain ⟨columns, hcolumns, h⟩ := bind_eq_ok.mp h
  unfold definitionColumns at hcolumns
  obtain ⟨timeoutMs, -, hcolumns⟩ := bind_eq_ok.mp hcolumns
  cases hcolumns
  unfold remoteToolToDefinition at h
  obtain ⟨-, h⟩ := ite_error_eq_ok.mp h
  cases h
  have habsorb : ∀ readOnly idempotent : Bool,
      (readOnly && (idempotent || readOnly)) = readOnly := by
    decide
  simp [ToolDefinition.column, Dict.get, Dict.get?_merge, Dict.get?_cons, habsorb]

theorem needsApproval_iff (h : remoteToolDefinition env connection (.obj payload) = .ok tool) :
    NeedsApproval tool
      ↔ inferReadOnly env.lower (remoteNameOf payload) (annotationsOf payload) = false := by
  obtain ⟨hreadOnly, hparallel, happroval⟩ := columns_definition h
  unfold NeedsApproval
  rw [hparallel, hreadOnly, happroval]
  simp

/-- A tool without a hint whose name has a token of `WRITE_NAME_TOKENS` needs approval. -/
def WritesNeedApproval (lower : String → String) (payload : Dict) (tool : ToolDefinition) : Prop :=
  Dict.get? (annotationsOf payload) "readOnlyHint" = none →
    (∃ token ∈ writeNameTokens, Mentions lower (remoteNameOf payload) token) → NeedsApproval tool

/-- Beside `take_taxi` the name has another of these tokens, or no word of
`READ_ONLY_NAME_TOKENS`. -/
def TaxiGuarded (lower : String → String) (payload : Dict) : Prop :=
  Dict.get? (annotationsOf payload) "readOnlyHint" = none →
    Mentions lower (remoteNameOf payload) "take_taxi" →
      (∃ token ∈ writeNameTokens, OneWord token ∧ Mentions lower (remoteNameOf payload) token)
        ∨ ∀ token ∈ readOnlyNameTokens, OneWord token →
          ¬ Mentions lower (remoteNameOf payload) token

/-- A tool without a hint whose name has a write token needs approval exactly when the name has,
beside `take_taxi`, another of these tokens, or no word of `READ_ONLY_NAME_TOKENS`. The columns
follow from whether the tool reads only, and no word of a name contains the `_` of `take_taxi`. -/
theorem writes_need_approval_iff (env : DiscoveryEnv) (connection : ConnectionRow) (payload : Dict)
    (tool : ToolDefinition) (h : remoteToolDefinition env connection (.obj payload) = .ok tool) :
    WritesNeedApproval env.lower payload tool ↔ TaxiGuarded env.lower payload := by
  unfold WritesNeedApproval TaxiGuarded
  rw [needsApproval_iff h, mentions_write_iff]
  refine forall_congr' fun hhint => ?_
  rw [inferReadOnly_eq_false_iff hhint]
  constructor
  · exact fun hguarded htaxi => hguarded (Or.inr htaxi)
  · rintro htaxi (hword | hmentions)
    · exact Or.inl hword
    · exact htaxi hmentions

end

/-! ## Taxi tools -/

def amapConnection : ConnectionRow where
  id := "amap"
  name := "amap"
  status := "active"
  transport := "streamable_http"
  configJson := .obj [("url", .str "https://mcp.example.com/mcp")]
  configVersion := 1
  configHash := "sha256:v1"

def amapEnv : DiscoveryEnv where
  lower := fun text => String.ofList (text.toList.map Char.toLower)
  sha256 := id
  runnerToolId := fun _ => "mcp+https://mcp.example.com/mcp"

def cancelTaxi : Dict := [("name", .str "Cancel-take_taxi-query")]

def queryTaxi : Dict := [("name", .str "take_taxi_query")]

theorem writes_need_approval_cancel :
    ∃ tool, remoteToolDefinition amapEnv amapConnection (.obj cancelTaxi) = .ok tool
      ∧ (WritesNeedApproval amapEnv.lower cancelTaxi tool
        ↔ TaxiGuarded amapEnv.lower cancelTaxi) := by
  have hok : (remoteToolDefinition amapEnv amapConnection (.obj cancelTaxi)).toOption.isSome := by
    decide +kernel
  cases h : remoteToolDefinition amapEnv amapConnection (.obj cancelTaxi) with
  | error detail =>
      rw [h] at hok
      cases hok
  | ok tool =>
      exact ⟨tool, rfl, writes_need_approval_iff amapEnv amapConnection cancelTaxi tool h⟩

/-- The words of the name are `take`, `taxi` and `query`. -/
theorem query_taxi_read_only :
    ¬ ∀ env connection payload tool,
      remoteToolDefinition env connection (.obj payload) = .ok tool →
        WritesNeedApproval env.lower payload tool := by
  intro hall
  have hread : (remoteToolDefinition amapEnv amapConnection (.obj queryTaxi)).toOption.map
      (ToolDefinition.column · "read_only") = some (.bool true) := by
    decide +kernel
  have hname : (amapEnv.lower (remoteNameOf queryTaxi)).toList
      = [] ++ "take_taxi".toList ++ "_query".toList := by
    decide +kernel
  have hafter : ∀ c ∈ "_query".toList.head?, separatesWords c = true := by
    have hhead : "_query".toList.head? = some '_' := by decide +kernel
    intro c hc
    cases hhead.symm.trans hc
    decide
  cases h : remoteToolDefinition amapEnv amapConnection (.obj queryTaxi) with
  | error detail =>
      rw [h] at hread
      cases hread
  | ok tool =>
      rw [h] at hread
      have happroval := hall amapEnv amapConnection queryTaxi tool h rfl
        ⟨"take_taxi", by decide, [], "_query".toList, hname, by simp, hafter⟩
      cases (Option.some.inj hread).symm.trans happroval.1

end Aegora
