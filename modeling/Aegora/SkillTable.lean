import Aegora.ProceduralLearning

/-!
# The `skills` table and its three writers

`scripts/skills.py` imports Skills from files and changes their status,
`scripts/sync_strapi_content.py` copies the Skill collection of the content
service. Each writer normalises a Skill in its own way (`normalizedSkill`,
`normalizeStrapiSkill`), records a content hash and upserts the row by its
name; an upsert counts a new version when the hash differs.
-/

namespace Aegora

open Py

/-! ## Rows -/

def orNull (value : Option String) : Json := value.elim .null .str

/-- `text or None`. -/
def nonEmptyText (text : String) : Option String := if text = "" then none else some text

/-- The columns that a writer fills. -/
structure SkillFields where
  name : String
  title : String
  description : String
  content : String
  productId : Option String
  domain : Option String
  skillType : Json
  source : Json
  status : Json
  priority : Int
  triggerRules : Json
  metadata : Json
  reviewedBy : Option String := none
  reviewedAt : Json := .null
deriving DecidableEq

/-- The dictionary the checks of `skills.py` read. -/
def SkillFields.toDict (f : SkillFields) : Dict :=
  [("name", .str f.name), ("title", .str f.title), ("description", .str f.description),
    ("content", .str f.content), ("product_id", orNull f.productId),
    ("domain", orNull f.domain), ("skill_type", f.skillType), ("source", f.source),
    ("status", f.status), ("priority", .int f.priority), ("trigger_rules", f.triggerRules),
    ("metadata", f.metadata), ("reviewed_by", orNull f.reviewedBy),
    ("reviewed_at", f.reviewedAt)]

structure SkillRow where
  id : Nat
  version : Nat
  contentHash : String
  fields : SkillFields
deriving DecidableEq

/-- `dict(row)`. -/
def SkillRow.toDict (row : SkillRow) : Dict :=
  row.fields.toDict ++ [("id", .int row.id), ("version", .int row.version),
    ("content_hash", .str row.contentHash)]

/-! ## The table -/

/-- Names and ids are unique. -/
structure SkillTable where
  rows : List SkillRow
  nextId : Nat
  names : (rows.map fun row => row.fields.name).Nodup
  ids : (rows.map SkillRow.id).Nodup
  below : ∀ row ∈ rows, row.id < nextId

namespace SkillTable

def empty : SkillTable :=
  ⟨[], 1, List.nodup_nil, List.nodup_nil, fun _ h => absurd h List.not_mem_nil⟩

def named (t : SkillTable) (name : String) : Option SkillRow :=
  t.rows.find? fun row => decide (row.fields.name = name)

def byId (t : SkillTable) (id : Nat) : Option SkillRow :=
  t.rows.find? fun row => decide (row.id = id)

/-- An update that leaves ids and names as they are. -/
def mapRows (t : SkillTable) (f : SkillRow → SkillRow)
    (hname : ∀ row, (f row).fields.name = row.fields.name) (hid : ∀ row, (f row).id = row.id) :
    SkillTable where
  rows := t.rows.map f
  nextId := t.nextId
  names := by
    rw [List.map_map, show (fun row => row.fields.name) ∘ f = fun row => row.fields.name from
      funext hname]
    exact t.names
  ids := by
    rw [List.map_map, show SkillRow.id ∘ f = SkillRow.id from funext hid]
    exact t.ids
  below := by
    intro row hrow
    obtain ⟨old, hold, rfl⟩ := List.mem_map.mp hrow
    rw [hid]
    exact t.below old hold

/-- `DO UPDATE SET` on the row of that name. -/
def updated (fields : SkillFields) (hash : String) (row : SkillRow) : SkillRow :=
  if row.fields.name = fields.name then
    { row with fields := fields, contentHash := hash
               version := if row.contentHash ≠ hash then row.version + 1 else row.version }
  else row

theorem updated_name (fields : SkillFields) (hash : String) (row : SkillRow) :
    (updated fields hash row).fields.name = row.fields.name := by
  unfold updated
  split
  · rename_i h
    exact h.symm
  · rfl

theorem updated_id (fields : SkillFields) (hash : String) (row : SkillRow) :
    (updated fields hash row).id = row.id := by
  unfold updated
  split <;> rfl

def insert (t : SkillTable) (fields : SkillFields) (hash : String)
    (h : t.named fields.name = none) : SkillTable where
  rows := t.rows ++ [{ id := t.nextId, version := 1, contentHash := hash, fields := fields }]
  nextId := t.nextId + 1
  names := by
    rw [List.map_append, List.nodup_append]
    refine ⟨t.names, List.nodup_singleton _, ?_⟩
    rintro name hmem other hother rfl
    obtain ⟨row, hrow, hname⟩ := List.mem_map.mp hmem
    have hmiss := List.find?_eq_none.mp h row hrow
    have heq : name = fields.name := List.mem_singleton.mp hother
    exact hmiss (decide_eq_true (hname.trans heq))
  ids := by
    rw [List.map_append, List.nodup_append]
    refine ⟨t.ids, List.nodup_singleton _, ?_⟩
    rintro id hmem other hother rfl
    obtain ⟨row, hrow, rfl⟩ := List.mem_map.mp hmem
    have hlt := t.below row hrow
    have heq : row.id = t.nextId := List.mem_singleton.mp hother
    omega
  below := by
    intro row hrow
    rcases List.mem_append.mp hrow with hrow | hrow
    · exact Nat.lt_succ_of_lt (t.below row hrow)
    · rw [List.mem_singleton.mp hrow]
      exact Nat.lt_succ_self _

/-- `INSERT … ON CONFLICT (name) DO UPDATE`. -/
def upsert (t : SkillTable) (fields : SkillFields) (hash : String) : SkillTable :=
  match h : t.named fields.name with
  | some _ => t.mapRows (updated fields hash) (updated_name fields hash) (updated_id fields hash)
  | none => t.insert fields hash h

end SkillTable

/-! ## `scripts/skills.py import` -/

/-- `row[key].strip()`. -/
def stripField (row : Dict) (key : String) : Except String String :=
  match Dict.get? row key with
  | some (.str s) => .ok (strip s)
  | some _ => .error "AttributeError"
  | none => .error "KeyError"

/-- `clean` of `scripts/skills.py`. -/
def cleanValue (value : Json) : Option String :=
  if value = .null then none else nonEmptyText (strip value.pyStr)

/-- `json.dumps(x, ensure_ascii=False, sort_keys=True)`. -/
def jsonText (x : Json) : String := x.dumps ", " ": "

/-- `normalized_skill`: what is stored. -/
def normalizedSkill (row : Dict) : Except String SkillFields := do
  let name ← stripField row "name"
  let title ← stripField row "title"
  let description ← stripField row "description"
  let content ← stripField row "content"
  let priority ← (Dict.getD row "priority" (.int 0)).pyInt
  return {
    name := name
    title := title
    description := description
    content := content
    productId := cleanValue (Dict.get row "product_id")
    domain := cleanValue (Dict.get row "domain")
    skillType := Dict.getD row "skill_type" (.str "guidance")
    source := Dict.getD row "source" (.str "manual")
    status := .str "draft"
    priority := priority
    triggerRules := (Dict.get row "trigger_rules").orElse (.obj [])
    metadata := (Dict.get row "metadata").orElse (.obj []) }

/-- The dictionary `import_rows` hashes: rules and metadata are JSON texts by then. -/
def importValues (fields : SkillFields) : Dict :=
  { fields with
    triggerRules := .str (jsonText fields.triggerRules)
    metadata := .str (jsonText fields.metadata) }.toDict

def importHash (sha256 : String → String) (fields : SkillFields) : String :=
  skillContentHash sha256 (importValues fields)

/-- `import_rows` of `scripts/skills.py`. -/
def importSkillRows (env : SkillEnv) (t : SkillTable) (rows : List Dict) :
    Except String SkillTable := do
  let fields ← rows.mapM normalizedSkill
  return fields.foldl (fun t f => t.upsert f (importHash env.sha256 f)) t

/-! ## `update_status` -/

inductive StatusAction where
  | publish
  | reject
  | archive
deriving DecidableEq, Repr

def StatusAction.status : StatusAction → String
  | .publish => "active"
  | .reject => "rejected"
  | .archive => "archived"

/-- What has to be empty before a row is published. -/
def publishErrors (env : SkillEnv) (row : SkillRow) (reviewer : Option String) :
    Except String (List String) := do
  let errors ← validateSkill env.lower row.toDict env.maxContentChars
  let promotion ← agentSkillPromotionErrors env.sha256 row.toDict (orNull reviewer)
  return errors ++ promotion

/-- Only a publication is checked. -/
def statusErrors (env : SkillEnv) (row : SkillRow) (action : StatusAction)
    (reviewer : Option String) : Except String (List String) :=
  if action = .publish then publishErrors env row reviewer else .ok []

/-- The row `update_status` leaves. -/
def statusRow (id : Nat) (action : StatusAction) (reviewer : Option String) (now : Json)
    (row : SkillRow) : SkillRow :=
  if row.id = id then
    { row with fields := { row.fields with
        status := .str action.status
        reviewedBy := reviewer
        reviewedAt := if reviewer = none then row.fields.reviewedAt else now } }
  else row

def SkillTable.setStatus (t : SkillTable) (id : Nat) (action : StatusAction)
    (reviewer : Option String) (now : Json) : SkillTable :=
  t.mapRows (statusRow id action reviewer now)
    (fun row => by unfold statusRow; split <;> rfl)
    (fun row => by unfold statusRow; split <;> rfl)

/-- `update_status`. -/
def updateStatus (env : SkillEnv) (t : SkillTable) (id : Nat) (action : StatusAction)
    (reviewer : Option String) (now : Json) : Except String SkillTable :=
  match t.byId id with
  | none => .error ("Skill 不存在: " ++ toString id)
  | some row => do
      let errors ← statusErrors env row action reviewer
      if errors ≠ [] then .error ("\n".intercalate errors)
      else .ok (t.setStatus id action reviewer now)

/-! ## `scripts/sync_strapi_content.py` -/

/-- `str(row[key]).strip()`. -/
def textField (row : Dict) (key : String) : Except String String :=
  match Dict.get? row key with
  | some value => .ok (strip value.pyStr)
  | none => .error "KeyError"

/-- `{**(row.get("metadata") or {}), "strapi_id": …, "strapi_document_id": …}`. -/
def strapiMetadata (row : Dict) : Except String Dict :=
  match (Dict.get row "metadata").orElse (.obj []) with
  | .obj metadata =>
      .ok (Dict.merge (Dict.merge [] metadata)
        [("strapi_id", Dict.get row "id"), ("strapi_document_id", Dict.get row "documentId")])
  | _ => .error "TypeError"

/-- `normalize_strapi_skill`. -/
def normalizeStrapiSkill (row : Dict) : Except String SkillFields := do
  let name ← textField row "name"
  let title ← textField row "title"
  let description ← textField row "description"
  let content ← textField row "content"
  let priority ← (Dict.getD row "priority" (.int 0)).pyInt
  let metadata ← strapiMetadata row
  return {
    name := name
    title := title
    description := description
    content := content
    productId := nonEmptyText (strippedText (Dict.get row "product_id"))
    domain := nonEmptyText (strippedText (Dict.get row "domain"))
    skillType := Dict.getD row "skill_type" (.str "guidance")
    source := Dict.getD row "source" (.str "manual")
    status := Dict.getD row "lifecycle_status" (Dict.getD row "status" (.str "draft"))
    priority := priority
    triggerRules := (Dict.get row "trigger_rules").orElse (.obj [])
    metadata := .obj metadata
    reviewedBy := nonEmptyText (strippedText (Dict.get row "reviewed_by"))
    reviewedAt := Dict.get row "reviewed_at" }

/-- The evidence of a row that is to be active. -/
def activeErrors (env : SkillEnv) (fields : SkillFields) : Except String (List String) :=
  if fields.status = .str "active" then
    agentSkillPromotionErrors env.sha256 fields.toDict (orNull fields.reviewedBy)
  else .ok []

/-- The errors of one normalised row. -/
def syncRowErrors (env : SkillEnv) (fields : SkillFields) : Except String (List String) := do
  let errors ← validateSkill env.lower fields.toDict env.maxContentChars
  let promotion ← activeErrors env fields
  return (errors ++ promotion).map fun error => fields.name ++ ": " ++ error

/-- An active Agent Skill made from a procedural memory. -/
def SkillFields.needsLiveMemory (fields : SkillFields) : Bool :=
  decide (fields.status = .str "active") && decide (fields.source = .str "agent")
    && fromProceduralMemory fields.metadata.dictOrEmpty

/-- The row of `procedural_memories` with that id. -/
def ProceduralTable.byId (t : ProceduralTable) (id : Int) : Option ProceduralRow :=
  t.rows.find? fun row => decide ((row.id : Int) = id)

/-- `str(x or "")`. -/
def textOrEmpty (x : Json) : String := (x.orElse (.str "")).pyStr

/-- The status as the column holds it. -/
def ProceduralStatus.text : ProceduralStatus → String
  | .candidate => "candidate"
  | .blocked => "blocked"
  | .conflicted => "conflicted"
  | .skillDrafted => "skill_drafted"
  | .rejected => "rejected"

/-- The errors of one candidate of `procedural_skill_state_errors`. -/
def stateErrors (memories : ProceduralTable) (fields : SkillFields) : List String :=
  let metadata := fields.metadata.dictOrEmpty
  match asInt? (Dict.get metadata "procedural_memory_id") with
  | none => [fields.name ++ ": procedural_memory_id 无效"]
  | some id =>
      match memories.byId id with
      | none => [fields.name ++ ": procedural memory " ++ toString id ++ " 不存在"]
      | some memory =>
          let promoted := strip (memory.promotedSkillName.getD "")
          expect (memory.status = .skillDrafted)
              (fields.name ++ ": procedural memory 当前状态为 " ++ memory.status.text
                ++ "，禁止晋级 active")
            ++ expect
              (memory.fingerprint = textOrEmpty (Dict.get metadata "procedural_fingerprint"))
              (fields.name ++ ": procedural fingerprint 与当前治理事实不一致")
            ++ expect (memory.agentId = textOrEmpty (Dict.get metadata "source_agent_id"))
              (fields.name ++ ": procedural source_agent_id 与当前治理事实不一致")
            ++ expect (promoted = "" || promoted = fields.name)
              (fields.name ++ ": procedural memory 已绑定其他 Skill " ++ promoted)

/-- `procedural_skill_state_errors`. -/
def proceduralSkillStateErrors (memories : ProceduralTable) (rows : List SkillFields) :
    List String :=
  let candidates := rows.filter SkillFields.needsLiveMemory
  let ids := candidates.filterMap fun fields =>
    asInt? (Dict.get fields.metadata.dictOrEmpty "procedural_memory_id")
  if candidates.isEmpty then []
  else if ids.isEmpty then ["procedural active Skill 缺少可查询的 procedural_memory_id"]
  else candidates.flatMap (stateErrors memories)

/-- The hash `sync_skill_rows` records. -/
def syncHash (sha256 : String → String) (fields : SkillFields) : String :=
  skillContentHash sha256 fields.toDict

/-- `sync_skill_rows`: one transaction, after both gates. -/
def syncSkillRows (env : SkillEnv) (memories : ProceduralTable) (t : SkillTable)
    (rows : List Dict) : Except String SkillTable := do
  let normalized ← rows.mapM normalizeStrapiSkill
  let errors ← normalized.mapM (syncRowErrors env)
  if errors.flatten ≠ [] then .error ("\n".intercalate errors.flatten)
  else if proceduralSkillStateErrors memories normalized ≠ [] then
    .error ("\n".intercalate (proceduralSkillStateErrors memories normalized))
  else .ok (normalized.foldl (fun t f => t.upsert f (syncHash env.sha256 f)) t)

end Aegora
