import Aegora.EmbeddingFreshness
import Aegora.Transactions

/-!
# The content sync

`data_ops/sync_content.py` copies the two collections of the content service.
The FAQs go in one transaction: every row is upserted, with its category and
its embedding row, and the FAQs that the source does not have are marked
deleted. The Skills take two: `sync_skill_rows`, and then the statement that
archives the Skills of the content service which are not among the rows.

The database may refuse any statement (`refuses`), and a transaction that
raises is rolled back. A FAQ has all its columns here but the times; the
models of `FaqImport` are what remains of it without the pictures and the
source's row (`syncFaqs_refines`).
-/

namespace Aegora

open Py Transactions

variable {V : Type}

/-! ## The FAQ tables -/

/-- The columns that are not hashed. -/
structure FaqColumns where
  content : FaqContent
  categoryName : String
  userSide : Json
  appPictureUrl : Option String
  pcPictureUrl : Option String
  sourcePayload : Dict
deriving DecidableEq

structure SourceFaq where
  strapiId : Int
  columns : FaqColumns
deriving DecidableEq

/-- What `import_rows` reads of one row. -/
def readSourceFaq (row : Dict) : Except String SourceFaq := do
  let (strapiId, content) ← readFaq row
  return ⟨strapiId, {
    content := content
    categoryName := content.category.getD "未分类"
    userSide := Dict.get row "UserSide"
    appPictureUrl := cleanValue (Dict.get row "Response_Pic_App_URL")
    pcPictureUrl := cleanValue (Dict.get row "Response_Pic_Pc_URL")
    sourcePayload := row }⟩

/-- A row of `faqs`; the category is that of `category_id`. -/
structure FaqRecord where
  id : Nat
  source : SourceFaq
  contentHash : String
  version : Nat
  deleted : Bool
deriving DecidableEq

def FaqRecord.strapiId (r : FaqRecord) : Int := r.source.strapiId

/-- `RETURNING id, content_hash, version`. -/
def FaqRecord.ensured (r : FaqRecord) : Ensured := ⟨r.id, r.version, r.contentHash⟩

/-- `faqs`, `faq_categories` and `faq_embeddings`. -/
structure FaqTables (V : Type) where
  faqs : List FaqRecord := []
  nextId : Nat := 1
  categories : List (String × String) := []
  embeddings : List (EmbeddingRow V) := []

/-- The keys of the tables. -/
structure FaqTables.Sound (t : FaqTables V) : Prop where
  strapiIds : (t.faqs.map FaqRecord.strapiId).Nodup
  ids : (t.faqs.map FaqRecord.id).Nodup
  below : ∀ r ∈ t.faqs, r.id < t.nextId
  names : (t.categories.map Prod.fst).Nodup

/-- The FAQ tables of a database. -/
structure FaqDb (V : Type) extends FaqTables V where
  sound : toFaqTables.Sound

/-! ## Statements -/

inductive FaqStatement where
  | category (name project : String)
  | faq (source : SourceFaq)
  | embedding (ensured : Ensured)
  | markDeleted (sourceIds : List Int)
  | commit

structure FaqSync where
  sha256 : String → String
  /-- `category_taxonomy.toml`. -/
  taxonomy : String → Option String
  embeddingModel : String
  /-- The error of a statement the database refuses. -/
  refuses : FaqStatement → Option String

/-- The mark on a FAQ that the source does not have. -/
def missingMark (sourceIds : List Int) (r : FaqRecord) : FaqRecord :=
  if r.strapiId ∈ sourceIds then r else { r with deleted := true }

namespace FaqTables

/-- The record an upsert of the source leaves, over the one with its Strapi id. -/
def record (sha256 : String → String) (t : FaqTables V) (s : SourceFaq) : FaqRecord :=
  let hash := faqHash sha256 s.columns.content
  match find FaqRecord.strapiId t.faqs s.strapiId with
  | some old =>
      { old with source := s, contentHash := hash, deleted := false
                 version := if old.contentHash ≠ hash then old.version + 1 else old.version }
  | none => ⟨t.nextId, s, hash, 1, false⟩

/-- `INSERT INTO faqs … ON CONFLICT (strapi_id) DO UPDATE`. -/
def upsert (sha256 : String → String) (t : FaqTables V) (s : SourceFaq) : FaqTables V :=
  { t with
    faqs := put FaqRecord.strapiId t.faqs (t.record sha256 s)
    nextId := match find FaqRecord.strapiId t.faqs s.strapiId with
      | some _ => t.nextId
      | none => t.nextId + 1 }

/-- `mark_missing_faqs_deleted`. -/
def markMissing (t : FaqTables V) (sourceIds : List Int) : FaqTables V :=
  { t with faqs := t.faqs.map (missingMark sourceIds) }

end FaqTables

namespace FaqSync

/-- A statement of the open transaction. -/
def exec (env : FaqSync) (statement : FaqStatement) (t : FaqTables V) :
    Except String (FaqTables V) :=
  match env.refuses statement with
  | some error => .error error
  | none => .ok t

def project (env : FaqSync) (name : String) : String := (env.taxonomy name).getD "other"

/-- The loop body of `import_rows`. -/
def importRow (env : FaqSync) (t : FaqTables V) (row : Dict) : Except String (FaqTables V) := do
  let s ← readSourceFaq row
  let name := s.columns.categoryName
  let t ← env.exec (.category name (env.project name))
    { t with categories := put Prod.fst t.categories (name, env.project name) }
  let r := t.record env.sha256 s
  let t ← env.exec (.faq s) (t.upsert env.sha256 s)
  env.exec (.embedding r.ensured)
    { t with embeddings := ensureEmbeddingRow env.embeddingModel t.embeddings r.ensured }

/-- The statements of the FAQ sync. -/
def statements (env : FaqSync) (t : FaqTables V) (rows : List Dict) :
    Except String (FaqTables V) := do
  let t ← rows.foldlM env.importRow t
  let sourceIds ← rows.mapM strapiIdOf
  let t ← env.exec (.markDeleted sourceIds) (t.markMissing sourceIds)
  env.exec .commit t

/-- The FAQ half of `sync_content`, with the tables it leaves: an exception rolls back. -/
def syncFaqs (env : FaqSync) (t : FaqTables V) (rows : List Dict) :
    FaqTables V × Except String Unit :=
  match env.statements t rows with
  | .ok t' => (t', .ok ())
  | .error error => (t, .error error)

end FaqSync

/-! ## The Skill half -/

/-- The transaction of the Skill upserts, and the one that archives. -/
inductive SkillTransaction where
  | upserts
  | archive

/-- One transaction, unless the database refuses it. -/
def skillTransaction (env : SkillEnv) (refuses : SkillTransaction → Option String)
    (transaction : SkillTransaction) (write : SkillWrite) (t : SkillTable) :
    Except String SkillTable := do
  let (t', _) ← writeSkills env t write
  match refuses transaction with
  | some error => .error error
  | none => .ok t'

/-- The Skill half of `sync_content`. -/
def syncSkills (env : SkillEnv) (memories : ProceduralTable)
    (refuses : SkillTransaction → Option String) (t : SkillTable) (rows : List Dict) :
    SkillTable × Except String Unit :=
  match skillTransaction env refuses .upserts (.syncRows memories rows) t with
  | .error error => (t, .error error)
  | .ok t₁ =>
      match skillTransaction env refuses .archive (.archiveMissing rows) t₁ with
      | .error error => (t₁, .error error)
      | .ok t₂ => (t₂, .ok ())

end Aegora
