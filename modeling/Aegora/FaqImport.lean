import Aegora.SkillTable
import Aegora.EmbeddingRows

/-!
# The FAQ import

`scripts/import_faqs.py` and the FAQ half of `data_ops/sync_content.py`: each
row of the content service is upserted by its Strapi id, with a hash of six of
its fields joined by line breaks, and its embedding row is ensured in the same
transaction. A sync then marks the FAQs it did not see as deleted.
-/

namespace Aegora

open Py

variable {V : Type}

/-! ## Rows -/

/-- The cleaned fields that are hashed; all but the category are columns. -/
structure FaqContent where
  title : Option String
  faq : String
  response : String
  keywords : Option String
  intention : Option String
  category : Option String
deriving DecidableEq

/-- `require_text`. -/
def requireText (row : Dict) (key : String) : Except String String :=
  match cleanValue (Dict.get row key) with
  | some text => .ok text
  | none =>
      .error ("FAQ row " ++ (Dict.get row "id").pyStr ++ " missing required field " ++ key)

/-- `int(row["id"])`. -/
def strapiIdOf (row : Dict) : Except String Int :=
  match Dict.get? row "id" with
  | some value => value.pyInt
  | none => .error "KeyError"

/-- What `import_rows` reads of one row. -/
def readFaq (row : Dict) : Except String (Int × FaqContent) := do
  let strapiId ← strapiIdOf row
  let faq ← requireText row "FAQ"
  let response ← requireText row "Response"
  return (strapiId, {
    title := cleanValue (Dict.get row "Title")
    faq := faq
    response := response
    keywords := cleanValue (Dict.get row "Keywords")
    intention := cleanValue (Dict.get row "Intention")
    category := cleanValue (Dict.get row "Category") })

def FaqContent.hashParts (c : FaqContent) : List String :=
  [c.title.getD "", c.faq, c.response, c.keywords.getD "", c.intention.getD "", c.category.getD ""]

/-- `faq_hash`. -/
def faqHash (sha256 : String → String) (c : FaqContent) : String :=
  sha256 ("\n".intercalate c.hashParts)

/-- `build_embedding_text`. -/
def buildEmbeddingText (title : Option String) (faq : String) (keywords : Option String)
    (response : String) : String :=
  let optional (label : String) (text : Option String) : List String :=
    ((text.filter (· ≠ "")).map fun value => label ++ strip value).toList
  "\n".intercalate (optional "标题：" title ++ ["问题：" ++ strip faq]
    ++ optional "关键词：" keywords ++ ["回答：" ++ strip response])

def FaqContent.embeddingText (c : FaqContent) : String :=
  buildEmbeddingText c.title c.faq c.keywords c.response

structure FaqRow where
  id : Nat
  strapiId : Int
  content : FaqContent
  contentHash : String
  version : Nat
  deleted : Bool
deriving DecidableEq

/-! ## The table -/

structure FaqTable where
  rows : List FaqRow := []
  nextId : Nat := 1

namespace FaqTable

def byStrapiId (t : FaqTable) (strapiId : Int) : Option FaqRow :=
  t.rows.find? fun row => decide (row.strapiId = strapiId)

/-- `DO UPDATE SET` on the row of that Strapi id. -/
def updated (strapiId : Int) (content : FaqContent) (hash : String) (row : FaqRow) : FaqRow :=
  if row.strapiId = strapiId then
    { row with content := content, contentHash := hash, deleted := false
               version := if row.contentHash ≠ hash then row.version + 1 else row.version }
  else row

/-- `INSERT … ON CONFLICT (strapi_id) DO UPDATE`. -/
def upsert (t : FaqTable) (strapiId : Int) (content : FaqContent) (hash : String) : FaqTable :=
  match t.byStrapiId strapiId with
  | some _ => { t with rows := t.rows.map (updated strapiId content hash) }
  | none =>
      { rows := t.rows ++ [{ id := t.nextId, strapiId := strapiId, content := content
                             contentHash := hash, version := 1, deleted := false }]
        nextId := t.nextId + 1 }

/-- `RETURNING id, content_hash, version`. -/
def returned (t : FaqTable) (strapiId : Int) : Option Ensured :=
  (t.byStrapiId strapiId).map fun row => ⟨row.id, row.version, row.contentHash⟩

/-- The loop of `import_rows`, with the embedding rows it ensures. -/
def upsertAll (sha256 : String → String) : FaqTable → List (Int × FaqContent) →
    FaqTable × List Ensured
  | t, [] => (t, [])
  | t, (strapiId, content) :: rest =>
      let t' := t.upsert strapiId content (faqHash sha256 content)
      let done := upsertAll sha256 t' rest
      (done.1, (t'.returned strapiId).toList ++ done.2)

/-- `mark_missing_faqs_deleted`. -/
def markMissingDeleted (t : FaqTable) (sourceIds : List Int) : FaqTable :=
  { t with rows := t.rows.map fun row =>
      if row.strapiId ∈ sourceIds then row else { row with deleted := true } }

end FaqTable

/-- `import_rows` of `scripts/import_faqs.py`; one row that cannot be read fails all. -/
def importFaqRows (sha256 : String → String) (t : FaqTable) (rows : List Dict) :
    Except String (FaqTable × List Ensured) := do
  let contents ← rows.mapM readFaq
  return t.upsertAll sha256 contents

inductive FaqWrite where
  | importRows (rows : List Dict)
  /-- The FAQ half of `sync_content`: one transaction. -/
  | syncContent (rows : List Dict)

def FaqWrite.rows : FaqWrite → List Dict
  | .importRows rows => rows
  | .syncContent rows => rows

def writeFaqs (sha256 : String → String) (t : FaqTable) : FaqWrite →
    Except String (FaqTable × List Ensured)
  | .importRows rows => importFaqRows sha256 t rows
  | .syncContent rows => do
      let (t', ensured) ← importFaqRows sha256 t rows
      let sourceIds ← rows.mapM strapiIdOf
      return (t'.markMissingDeleted sourceIds, ensured)

/-! ## What is embedded -/

def textSize (text : Option String) : Nat := (text.getD "").length

def FaqRow.toContent (row : FaqRow) : ContentRow where
  id := row.id
  strapiId := some row.strapiId
  version := row.version
  contentHash := row.contentHash
  live := !row.deleted
  text := row.content.embeddingText
  size := textSize row.content.title + row.content.faq.length + textSize row.content.keywords
    + row.content.response.length

/-- The hash and the text of every FAQ of an import. -/
def importedFaqs (sha256 : String → String) (rows : List Dict) : List (String × String) :=
  match rows.mapM readFaq with
  | .ok contents => contents.map fun c => (faqHash sha256 c.2, c.2.embeddingText)
  | .error _ => []

variable {sha256 : String → String} {t t' : FaqTable} {ensured : List Ensured}

namespace FaqTable

theorem mem_upsert {strapiId : Int} {content : FaqContent} {hash : String} {row : FaqRow}
    (h : row ∈ (t.upsert strapiId content hash).rows) :
    (row.content = content ∧ row.contentHash = hash) ∨ row ∈ t.rows := by
  unfold upsert at h
  split at h
  · obtain ⟨old, hold, rfl⟩ := List.mem_map.mp h
    unfold updated
    split
    · exact Or.inl ⟨rfl, rfl⟩
    · exact Or.inr hold
  · rcases List.mem_append.mp h with hrow | hrow
    · exact Or.inr hrow
    · rw [List.mem_singleton.mp hrow]
      exact Or.inl ⟨rfl, rfl⟩

theorem mem_upsertAll {contents : List (Int × FaqContent)} {row : FaqRow}
    (h : row ∈ (t.upsertAll sha256 contents).1.rows) :
    (∃ c ∈ contents, row.content = c.2 ∧ row.contentHash = faqHash sha256 c.2)
      ∨ row ∈ t.rows := by
  induction contents generalizing t with
  | nil => exact Or.inr h
  | cons c rest ih =>
      rcases ih h with ⟨c', hc', hrow⟩ | hrow
      · exact Or.inl ⟨c', List.mem_cons_of_mem _ hc', hrow⟩
      · rcases mem_upsert hrow with hnew | hold
        · exact Or.inl ⟨c, List.mem_cons_self, hnew⟩
        · exact Or.inr hold

end FaqTable

/-- A row after an import is one of its contents or was there before. -/
theorem mem_importFaqRows {rows : List Dict} {row : FaqRow}
    (h : importFaqRows sha256 t rows = .ok (t', ensured)) (hrow : row ∈ t'.rows) :
    (row.contentHash, row.content.embeddingText) ∈ importedFaqs sha256 rows ∨ row ∈ t.rows := by
  obtain ⟨contents, hcontents, hok⟩ := bind_eq_ok.mp h
  have hpair : t.upsertAll sha256 contents = (t', ensured) := Except.ok.inj hok
  have htable : (t.upsertAll sha256 contents).1 = t' := congrArg Prod.fst hpair
  rw [← htable] at hrow
  rcases FaqTable.mem_upsertAll hrow with ⟨c, hc, hcontent, hhash⟩ | hold
  · left
    rw [importedFaqs, hcontents, hhash, hcontent]
    exact List.mem_map_of_mem hc
  · exact Or.inr hold

theorem contents_writeFaqs {a : FaqWrite} (h : writeFaqs sha256 t a = .ok (t', ensured)) :
    ∀ content ∈ t'.rows.map FaqRow.toContent,
      (∃ old ∈ t.rows.map FaqRow.toContent,
          old.contentHash = content.contentHash ∧ old.text = content.text)
        ∨ (content.contentHash, content.text) ∈ importedFaqs sha256 a.rows := by
  intro content hcontent
  obtain ⟨row, hrow, rfl⟩ := List.mem_map.mp hcontent
  cases a with
  | importRows rows =>
      rcases mem_importFaqRows h hrow with hnew | hold
      · exact Or.inr hnew
      · exact Or.inl ⟨_, List.mem_map_of_mem hold, rfl, rfl⟩
  | syncContent rows =>
      obtain ⟨⟨imported, _⟩, himport, h⟩ := bind_eq_ok.mp h
      obtain ⟨sourceIds, -, hok⟩ := bind_eq_ok.mp h
      cases hok
      obtain ⟨old, hold, rfl⟩ := List.mem_map.mp hrow
      have hsame : ∀ row : FaqRow, (if row.strapiId ∈ sourceIds then row
          else { row with deleted := true }).toContent.contentHash = row.contentHash
          ∧ (if row.strapiId ∈ sourceIds then row
          else { row with deleted := true }).toContent.text = row.content.embeddingText := by
        intro row
        split
        · exact ⟨rfl, rfl⟩
        · exact ⟨rfl, rfl⟩
      rw [(hsame old).1, (hsame old).2]
      rcases mem_importFaqRows himport hold with hnew | hbefore
      · exact Or.inr hnew
      · exact Or.inl ⟨_, List.mem_map_of_mem hbefore, rfl, rfl⟩

/-- `faq_embeddings`; `width` is the length of a vector. -/
def faqKind (sha256 : String → String) (width : V → Nat) : EmbeddingKind FaqTable FaqWrite V where
  width := width
  countError := fun vectors jobs =>
    "encoder returned " ++ toString vectors ++ " vectors for " ++ toString jobs ++ " jobs"
  widthError := fun job width dimension =>
    "FAQ " ++ toString (job.strapiId.getD 0) ++ " vector dimension=" ++ toString width
      ++ ", expected=" ++ toString dimension
  retried := fun maxRetries row =>
    decide (row.status = .failed) && decide (maxRetries ≤ row.attemptCount)
  empty := {}
  contents := fun t => t.rows.map FaqRow.toContent
  write := fun a t => writeFaqs sha256 t a
  imported := fun a => importedFaqs sha256 a.rows
  contents_empty := rfl
  contents_write := contents_writeFaqs

end Aegora
