import Aegora.SkillPublishing
import Aegora.FaqImport

/-!
# Which embeddings are fresh

Whether a vector has to be computed again is read off four columns of its row.
An importer rewrites three of them, the model, hash and version, and keeps the
vector as long as the hash is the same: a vector of another model is then
labelled with the importer's. `embeddings_fresh` is that this, and two
contents with one hash, are the only ways a claim is misled about a FAQ or a
Skill that it looks at; `relabelled_faq` is a run that does it.
-/

namespace Aegora

open Py

variable {V : Type} {env : SkillEnv} {t t' : SkillTable} {ensured : List Ensured}

/-! ## What a Skill is embedded as -/

/-- The examples of the trigger rules, if they are a list. -/
def triggerExamples (skill : Dict) : List Json :=
  match (Dict.get skill "trigger_rules").orElse (.obj []) with
  | .obj rules => (Dict.get rules "trigger_examples").asList?.getD []
  | _ => []

/-- `build_skill_embedding_text`. -/
def buildSkillEmbeddingText (skill : Dict) : String :=
  let examples := triggerExamples skill
  "\n".intercalate
    (["标题：" ++ strippedText (Dict.get skill "title"),
      "描述：" ++ strippedText (Dict.get skill "description")]
    ++ (if (Dict.get skill "domain").truthy then ["领域：" ++ (Dict.get skill "domain").pyStr]
      else [])
    ++ (if examples.isEmpty then [] else ["触发示例：" ++ "；".intercalate (examples.map Json.pyStr)]))

/-- The columns of the claim that the text is built from. -/
def SkillFields.claimed (f : SkillFields) : Dict :=
  [("title", .str f.title), ("description", .str f.description), ("domain", orNull f.domain),
    ("trigger_rules", f.triggerRules)]

def SkillFields.embeddingText (f : SkillFields) : String := buildSkillEmbeddingText f.claimed

def SkillRow.toContent (row : SkillRow) : ContentRow where
  id := row.id
  version := row.version
  contentHash := row.contentHash
  live := decide (row.fields.status = .str "active")
  text := row.fields.embeddingText

@[simp] theorem SkillRow.toContent_contentHash (row : SkillRow) :
    row.toContent.contentHash = row.contentHash := rfl

@[simp] theorem SkillRow.toContent_text (row : SkillRow) :
    row.toContent.text = row.fields.embeddingText := by
  simp only [SkillRow.toContent]

def SkillRow.toEnsured (row : SkillRow) : Ensured := ⟨row.id, row.version, row.contentHash⟩

/-! ## The writers of Skills -/

namespace SkillTable

/-- What the upserts of a batch return, in order. -/
def returned (hashOf : SkillFields → String) : SkillTable → List SkillFields → List Ensured
  | _, [] => []
  | t, f :: rest =>
      let t' := t.upsert f (hashOf f)
      ((t'.named f.name).map SkillRow.toEnsured).toList ++ returned hashOf t' rest

/-- Only a publication ensures the embedding row, of the Skill as it was read. -/
def publishedRow (t : SkillTable) (id : Nat) (action : StatusAction) : List Ensured :=
  if action = .publish then ((t.byId id).map SkillRow.toEnsured).toList else []

/-- `jsonb ? key`. -/
def jsonbHas (value : Json) (key : String) : Bool :=
  match value with
  | .obj entries => (Dict.get? entries key).isSome
  | .arr items => decide (Json.str key ∈ items)
  | .str s => decide (s = key)
  | _ => false

def archivedRow (names : List String) (row : SkillRow) : SkillRow :=
  if row.fields.status ≠ .str "archived" && jsonbHas row.fields.metadata "strapi_id"
      && row.fields.name ∉ names then
    { row with fields := { row.fields with status := .str "archived" } }
  else row

theorem archivedRow_name (names : List String) (row : SkillRow) :
    (archivedRow names row).fields.name = row.fields.name := by
  unfold archivedRow
  split
  · rfl
  · rfl

theorem archivedRow_id (names : List String) (row : SkillRow) :
    (archivedRow names row).id = row.id := by
  unfold archivedRow
  split
  · rfl
  · rfl

/-- `mark_missing_skills_archived`. -/
def archiveMissing (t : SkillTable) (names : List String) : SkillTable :=
  t.mapRows (archivedRow names) (archivedRow_name names) (archivedRow_id names)

end SkillTable

inductive SkillWrite where
  | importRows (rows : List Dict)
  | syncRows (memories : ProceduralTable) (rows : List Dict)
  | updateStatus (id : Nat) (action : StatusAction) (reviewer : Option String) (now : Json)
  | archiveMissing (rows : List Dict)

/-- The table a transaction leaves, and the embedding rows it ensures. -/
def writeSkills (env : SkillEnv) (t : SkillTable) :
    SkillWrite → Except String (SkillTable × List Ensured)
  | .importRows rows => do
      let fields ← rows.mapM normalizedSkill
      let t' ← importSkillRows env t rows
      return (t', t.returned (importHash env.sha256) fields)
  | .syncRows memories rows => do
      let normalized ← rows.mapM normalizeStrapiSkill
      let t' ← syncSkillRows env memories t rows
      return (t', t.returned (syncHash env.sha256) normalized)
  | .updateStatus id action reviewer now => do
      let t' ← updateStatus env t id action reviewer now
      return (t', t.publishedRow id action)
  | .archiveMissing rows => do
      let normalized ← rows.mapM normalizeStrapiSkill
      return (t.archiveMissing (normalized.map SkillFields.name), [])

/-- The hash and the text of every Skill of a batch. -/
def importedSkills (hashOf : SkillFields → String) (fields : Except String (List SkillFields)) :
    List (String × String) :=
  match fields with
  | .ok fields => fields.map fun f => (hashOf f, f.embeddingText)
  | .error _ => []

def SkillWrite.imported (env : SkillEnv) : SkillWrite → List (String × String)
  | .importRows rows => importedSkills (importHash env.sha256) (rows.mapM normalizedSkill)
  | .syncRows _ rows => importedSkills (syncHash env.sha256) (rows.mapM normalizeStrapiSkill)
  | _ => []

/-- A row after a batch of upserts is one of the batch or was there before. -/
theorem content_of_upserts {hashOf : SkillFields → String} {batch : List SkillFields}
    {row : SkillRow} (h : row ∈ (batch.foldl (fun t f => t.upsert f (hashOf f)) t).rows) :
    (∃ old ∈ t.rows.map SkillRow.toContent,
        old.contentHash = row.toContent.contentHash ∧ old.text = row.toContent.text)
      ∨ (row.toContent.contentHash, row.toContent.text) ∈ importedSkills hashOf (.ok batch) := by
  rcases SkillTable.mem_foldl_upsert h with ⟨hmem, hhash⟩ | ⟨hold, -⟩
  · right
    rw [SkillRow.toContent_contentHash, SkillRow.toContent_text, hhash, importedSkills]
    exact List.mem_map_of_mem (f := fun f => (hashOf f, f.embeddingText)) hmem
  · exact Or.inl ⟨_, List.mem_map_of_mem hold, rfl, rfl⟩

/-- A change of the status leaves the contents. -/
theorem content_of_mapRows {f : SkillRow → SkillRow}
    (hf : ∀ row : SkillRow, (f row).toContent.contentHash = row.toContent.contentHash
      ∧ (f row).toContent.text = row.toContent.text)
    {row : SkillRow} (h : row ∈ t.rows.map f) :
    ∃ old ∈ t.rows.map SkillRow.toContent,
      old.contentHash = row.toContent.contentHash ∧ old.text = row.toContent.text := by
  obtain ⟨old, hold, rfl⟩ := List.mem_map.mp h
  exact ⟨old.toContent, List.mem_map_of_mem hold, (hf old).1.symm, (hf old).2.symm⟩

theorem contents_writeSkills {a : SkillWrite} (h : writeSkills env t a = .ok (t', ensured)) :
    ∀ content ∈ t'.rows.map SkillRow.toContent,
      (∃ old ∈ t.rows.map SkillRow.toContent,
          old.contentHash = content.contentHash ∧ old.text = content.text)
        ∨ (content.contentHash, content.text) ∈ a.imported env := by
  intro content hcontent
  obtain ⟨row, hrow, rfl⟩ := List.mem_map.mp hcontent
  cases a with
  | importRows rows =>
      obtain ⟨fields, hfields, h⟩ := bind_eq_ok.mp h
      obtain ⟨t₁, himport, h⟩ := bind_eq_ok.mp h
      cases h
      rw [importSkillRows, hfields] at himport
      cases himport
      rw [SkillWrite.imported, hfields]
      exact content_of_upserts hrow
  | syncRows memories rows =>
      obtain ⟨normalized, hnormalized, h⟩ := bind_eq_ok.mp h
      obtain ⟨t₁, hsync, h⟩ := bind_eq_ok.mp h
      cases h
      obtain ⟨fields, hfields, -, rfl⟩ := syncSkillRows_eq_ok hsync
      rw [SkillWrite.imported, hfields]
      exact content_of_upserts hrow
  | updateStatus id action reviewer now =>
      obtain ⟨t₁, hstatus, h⟩ := bind_eq_ok.mp h
      cases h
      obtain ⟨old, -, -, rfl⟩ := updateStatus_eq_ok.mp hstatus
      refine Or.inl (content_of_mapRows (fun row => ?_) hrow)
      unfold statusRow
      split
      · exact ⟨rfl, rfl⟩
      · exact ⟨rfl, rfl⟩
  | archiveMissing rows =>
      obtain ⟨normalized, hnormalized, h⟩ := bind_eq_ok.mp h
      cases h
      refine Or.inl (content_of_mapRows (fun row => ?_) hrow)
      unfold SkillTable.archivedRow
      split
      · exact ⟨rfl, rfl⟩
      · exact ⟨rfl, rfl⟩

/-- `skill_embeddings`. -/
def skillKind (env : SkillEnv) (width : V → Nat) : EmbeddingKind SkillTable SkillWrite V where
  width := width
  countError := fun _ _ => "Skill encoder result count mismatch"
  widthError := fun _ _ _ => "Skill vector dimension mismatch"
  retried := fun _ row => decide (row.status = .failed)
  empty := .empty
  contents := fun t => t.rows.map SkillRow.toContent
  write := fun a t => writeSkills env t a
  imported := fun a => a.imported env
  contents_empty := rfl
  contents_write := contents_writeSkills

/-! ## Freshness -/

/-- After any run in which an import that keeps a vector is labelled with the model the vector
is of, and contents with one hash have one text: a vector of a FAQ or Skill in sight that the
claim leaves is the configured model's, of the content as it is. -/
theorem embeddings_fresh (env : SkillEnv) (width : V → Nat) (encode : String → String → V)
    (textOf : String → String) :
    (∀ ops s, Runs.Meets (embeddingStep (faqKind env.sha256 width) encode)
          ((faqKind env.sha256 width).WriteOk textOf) (faqKind env.sha256 width).start ops →
        Runs.run (embeddingStep (faqKind env.sha256 width) encode)
          (faqKind env.sha256 width).start ops = some s →
        (faqKind env.sha256 width).FreshInSight encode s)
      ∧ ∀ ops s, Runs.Meets (embeddingStep (skillKind env width) encode)
          ((skillKind env width).WriteOk textOf) (skillKind env width).start ops →
        Runs.run (embeddingStep (skillKind env width) encode) (skillKind env width).start ops
          = some s →
        (skillKind env width).FreshInSight encode s :=
  ⟨fun _ _ hok hrun => freshInSight_of_vectorsOf (vectorsOf_run hok hrun),
    fun _ _ hok hrun => freshInSight_of_vectorsOf (vectorsOf_run hok hrun)⟩

/-- A line break in a field moves into the next one without a trace in the hash. -/
theorem faqHash_ambiguous (sha256 : String → String) :
    ∃ c c' : FaqContent, faqHash sha256 c = faqHash sha256 c'
      ∧ c.embeddingText ≠ c'.embeddingText := by
  refine ⟨⟨none, "a\nb", "c", none, none, none⟩, ⟨none, "a", "b\nc", none, none, none⟩, ?_, ?_⟩
  · exact congrArg sha256 (by decide +kernel)
  · decide +kernel

/-! ## Runs on one FAQ and one Skill -/

def resetRow : Dict := [("id", .int 1), ("FAQ", .str "a"), ("Response", .str "b")]

def greetSkill : Dict :=
  [("name", .str "s"), ("title", .str "t"), ("description", .str "d"), ("content", .str "c")]

/-- A vector that says what it is of. -/
def pairFaqs : EmbeddingKind FaqTable FaqWrite (String × String) :=
  faqKind plainEnv.sha256 fun _ => 2

def pairSkills : EmbeddingKind SkillTable SkillWrite (String × String) :=
  skillKind plainEnv fun _ => 2

/-- An import, and one worker that embeds it. -/
def embedFaq : List (EmbeddingOp FaqWrite) :=
  [.write "old" (.importRows [resetRow]), .claim (fun _ => false) 10 3 "old", .save 0 2]

def importSkill : List (EmbeddingOp SkillWrite) := [.write "old" (.importRows [greetSkill])]

def embedSkill : List (EmbeddingOp SkillWrite) :=
  importSkill ++ [.write "old" (.updateStatus 1 .publish (some "r") .null),
    .claim (fun _ => false) 10 3 "old", .save 0 2]

theorem embeddings_fresh_reset :
    (∃ s, Runs.run (embeddingStep pairFaqs Prod.mk) pairFaqs.start embedFaq = some s
        ∧ pairFaqs.FreshInSight Prod.mk s)
      ∧ ∃ s, Runs.run (embeddingStep pairSkills Prod.mk) pairSkills.start importSkill = some s
        ∧ pairSkills.FreshInSight Prod.mk s := by
  refine ⟨⟨(Runs.run (embeddingStep pairFaqs Prod.mk) pairFaqs.start embedFaq).get
      (by decide +kernel), (Option.some_get _).symm, ?_⟩,
    ⟨(Runs.run (embeddingStep pairSkills Prod.mk) pairSkills.start importSkill).get
      (by decide +kernel), (Option.some_get _).symm, ?_⟩⟩
  · refine (embeddings_fresh plainEnv (fun _ => 2) Prod.mk fun _ => "问题：a\n回答：b").1 embedFaq _
      ⟨?_, fun _ _ => ⟨trivial, fun _ _ => ⟨trivial, fun _ _ => trivial⟩⟩⟩ (Option.some_get _).symm
    intro source ensured _
    exact ⟨keepsLabels_of_no_vectors fun _ h => absurd h List.not_mem_nil, by decide +kernel⟩
  · refine (embeddings_fresh plainEnv (fun _ => 2) Prod.mk fun _ => "标题：t\n描述：d").2 importSkill _
      ⟨?_, fun _ _ => trivial⟩ (Option.some_get _).symm
    intro source ensured _
    exact ⟨keepsLabels_of_no_vectors fun _ h => absurd h List.not_mem_nil, by decide +kernel⟩

/-- The model changes, and the next import of the same content labels the old model's vector
with the new one. -/
theorem relabelled_vectors :
    (∃ s, Runs.run (embeddingStep pairFaqs Prod.mk) pairFaqs.start
          (embedFaq ++ [.write "new" (.importRows [resetRow])]) = some s
        ∧ ¬ pairFaqs.AllFresh Prod.mk s)
      ∧ ∃ s, Runs.run (embeddingStep pairSkills Prod.mk) pairSkills.start
          (embedSkill ++ [.write "new" (.updateStatus 1 .publish (some "r") .null)]) = some s
        ∧ ¬ pairSkills.AllFresh Prod.mk s :=
  ⟨⟨(Runs.run (embeddingStep pairFaqs Prod.mk) pairFaqs.start
        (embedFaq ++ [.write "new" (.importRows [resetRow])])).get (by decide +kernel),
      (Option.some_get _).symm, not_allFresh "new" 3 (by decide +kernel)⟩,
    ⟨(Runs.run (embeddingStep pairSkills Prod.mk) pairSkills.start
        (embedSkill ++ [.write "new" (.updateStatus 1 .publish (some "r") .null)])).get
          (by decide +kernel),
      (Option.some_get _).symm, not_allFresh "new" 3 (by decide +kernel)⟩⟩

end Aegora
