import Mathlib.Data.List.Sort
import Aegora.Runs

/-!
# Embedding rows

`faq_embeddings` and `skill_embeddings` hold one row for each FAQ and each
Skill: the vector, and the model, content hash and version it is taken to be
of. Three kinds of transactions write it. An importer upserts the row
(`ensureEmbeddingRow`), a worker claims the rows whose columns differ from
the content's (`claimJobs`), and some time later stores the vectors of its
batch (`saveVectors`) or marks it failed.

What the two tables differ in is an `EmbeddingKind`. A run interleaves the
transactions of any number of importers and workers; `vectorsOf_run` says
which vectors the rows hold after it.
-/

namespace Aegora

variable {V σ α : Type}

/-! ## Rows -/

inductive EmbeddingStatus where
  | pending
  | processing
  | completed
  | failed
deriving DecidableEq, Repr

structure EmbeddingRow (V : Type) where
  ownerId : Nat
  embedding : Option V := none
  embeddingModel : String
  contentHash : String
  version : Nat
  status : EmbeddingStatus := .pending
  attemptCount : Nat := 0
  lastError : Option String := none
deriving DecidableEq

/-- The columns of `faqs` or `skills` that a claim reads. -/
structure ContentRow where
  id : Nat
  strapiId : Option Int := none
  version : Nat
  contentHash : String
  /-- Not deleted, or active. -/
  live : Bool
  text : String
  /-- The lengths that shorter FAQs are claimed first by. -/
  size : Nat := 0

structure EmbeddingJob where
  ownerId : Nat
  strapiId : Option Int
  version : Nat
  contentHash : String
  text : String
deriving DecidableEq

/-- What an upsert of a content row returns. -/
structure Ensured where
  id : Nat
  version : Nat
  contentHash : String
deriving DecidableEq

/-! ## Importers -/

/-- `DO UPDATE SET`: another hash drops the vector, the same one keeps it. -/
def EmbeddingRow.ensured (model : String) (e : Ensured) (row : EmbeddingRow V) : EmbeddingRow V :=
  if row.contentHash ≠ e.contentHash then
    { ownerId := row.ownerId, embedding := none, embeddingModel := model
      contentHash := e.contentHash, version := e.version
      status := .pending, attemptCount := 0, lastError := none }
  else
    { row with embeddingModel := model, contentHash := e.contentHash, version := e.version }

/-- `ensure_embedding_row`; `import_rows` of the FAQs has the same statement inline. -/
def ensureEmbeddingRow (model : String) (rows : List (EmbeddingRow V)) (e : Ensured) :
    List (EmbeddingRow V) :=
  if rows.any fun row => row.ownerId = e.id then
    rows.map fun row => if row.ownerId = e.id then row.ensured model e else row
  else
    rows ++ [{ ownerId := e.id, embeddingModel := model, contentHash := e.contentHash
               version := e.version }]

/-! ## Workers -/

/-- The columns say that the vector is missing, or not the model's of this content. -/
def needsVector (model : String) (row : EmbeddingRow V) (content : ContentRow) : Bool :=
  row.embedding.isNone || decide (row.embeddingModel ≠ model)
    || decide (row.contentHash ≠ content.contentHash) || decide (row.version ≠ content.version)

/-- The `WHERE` of the claim. -/
def selects (model : String) (maxRetries : Nat) (row : EmbeddingRow V) (content : ContentRow) :
    Bool :=
  content.live && needsVector model row content && decide (row.attemptCount < maxRetries)

/-- The `ORDER BY` of the claim. -/
def claimedBefore (a b : EmbeddingRow V × ContentRow) : Prop :=
  a.2.size < b.2.size ∨ a.2.size = b.2.size ∧ a.1.ownerId ≤ b.1.ownerId

instance (a b : EmbeddingRow V × ContentRow) : Decidable (claimedBefore a b) :=
  inferInstanceAs (Decidable (_ ∨ _))

def EmbeddingJob.of (content : ContentRow) : EmbeddingJob where
  ownerId := content.id
  strapiId := content.strapiId
  version := content.version
  contentHash := content.contentHash
  text := content.text

/-- The rows a claim locks; it skips those that another transaction has `locked`. -/
def claimedPairs (locked : Nat → Bool) (limit maxRetries : Nat) (model : String)
    (contents : List ContentRow) (rows : List (EmbeddingRow V)) :
    List (EmbeddingRow V × ContentRow) :=
  let joined := rows.flatMap fun row =>
    (contents.filter fun content => content.id = row.ownerId).map (row, ·)
  ((joined.filter fun pair =>
    selects model maxRetries pair.1 pair.2 && !locked pair.1.ownerId).insertionSort
      claimedBefore).take limit

def EmbeddingRow.claimed (ids : List Nat) (row : EmbeddingRow V) : EmbeddingRow V :=
  if row.ownerId ∈ ids then
    { row with status := .processing, attemptCount := row.attemptCount + 1, lastError := none }
  else row

/-- `claim_jobs`, `claim_embedding_jobs`. -/
def claimJobs (locked : Nat → Bool) (limit maxRetries : Nat) (model : String)
    (contents : List ContentRow) (rows : List (EmbeddingRow V)) :
    List EmbeddingJob × List (EmbeddingRow V) :=
  let picked := claimedPairs locked limit maxRetries model contents rows
  (picked.map fun pair => .of pair.2,
    rows.map (EmbeddingRow.claimed (picked.map fun pair => pair.1.ownerId)))

/-- The messages of `save_vectors` and the rows its retry option takes up again. -/
structure SaveRules (V : Type) where
  width : V → Nat
  countError : (vectors jobs : Nat) → String
  widthError : EmbeddingJob → (width dimension : Nat) → String
  retried : (maxRetries : Nat) → EmbeddingRow V → Bool

def EmbeddingRow.saved (model : String) (job : EmbeddingJob) (vector : V) (row : EmbeddingRow V) :
    EmbeddingRow V :=
  if row.ownerId = job.ownerId then
    { row with embedding := some vector, embeddingModel := model, contentHash := job.contentHash
               version := job.version, status := .completed, attemptCount := 0
               lastError := none }
  else row

def saveEach (rules : SaveRules V) (model : String) (dimension : Nat) :
    List (EmbeddingJob × V) → List (EmbeddingRow V) → Except String (List (EmbeddingRow V))
  | [], rows => .ok rows
  | (job, vector) :: rest, rows =>
      if rules.width vector ≠ dimension then
        .error (rules.widthError job (rules.width vector) dimension)
      else saveEach rules model dimension rest (rows.map (EmbeddingRow.saved model job vector))

/-- `save_vectors`, `save_skill_vectors`: one transaction. -/
def saveVectors (rules : SaveRules V) (jobs : List EmbeddingJob) (vectors : List V)
    (model : String) (dimension : Nat) (rows : List (EmbeddingRow V)) :
    Except String (List (EmbeddingRow V)) :=
  if jobs.length ≠ vectors.length then .error (rules.countError vectors.length jobs.length)
  else saveEach rules model dimension (jobs.zip vectors) rows

/-- `mark_failed`, `mark_skill_embeddings_failed`. -/
def markFailed (jobs : List EmbeddingJob) (error : String) (rows : List (EmbeddingRow V)) :
    List (EmbeddingRow V) :=
  rows.map fun row =>
    if row.ownerId ∈ jobs.map EmbeddingJob.ownerId then
      { row with status := .failed, lastError := some (String.ofList (error.toList.take 2000)) }
    else row

/-- `reset_failed`. -/
def resetFailed (rules : SaveRules V) (maxRetries : Nat) (rows : List (EmbeddingRow V)) :
    List (EmbeddingRow V) :=
  rows.map fun row =>
    if rules.retried maxRetries row then
      { row with status := .pending, attemptCount := 0, lastError := none }
    else row

/-! ## Runs -/

/-- A table of contents with its writers. A write returns the embedding rows it ensures, in
order; `imported` are the hash and the text of the contents it carries. -/
structure EmbeddingKind (σ α V : Type) extends SaveRules V where
  empty : σ
  contents : σ → List ContentRow
  write : α → σ → Except String (σ × List Ensured)
  imported : α → List (String × String)
  contents_empty : contents empty = []
  contents_write : ∀ {a source source' ensured}, write a source = .ok (source', ensured) →
    ∀ content ∈ contents source',
      (∃ old ∈ contents source, old.contentHash = content.contentHash ∧ old.text = content.text)
        ∨ (content.contentHash, content.text) ∈ imported a

/-- The jobs a worker holds; it encodes and labels them with its own model. -/
structure Batch where
  jobs : List EmbeddingJob
  model : String

structure EmbeddingStore (σ V : Type) where
  source : σ
  rows : List (EmbeddingRow V) := []
  batches : List Batch := []

/-- Every transaction is run under the settings of its own process. -/
inductive EmbeddingOp (α : Type) where
  | write (model : String) (a : α)
  | claim (locked : Nat → Bool) (limit maxRetries : Nat) (model : String)
  /-- The encoder answers worker `i`. -/
  | save (i : Nat) (dimension : Nat)
  /-- It does not. -/
  | fail (i : Nat) (error : String)
  | retryFailed (maxRetries : Nat)

/-- A worker with no jobs stops. -/
def EmbeddingStore.claimBatch (s : EmbeddingStore σ V) (model : String)
    (claimed : List EmbeddingJob × List (EmbeddingRow V)) : EmbeddingStore σ V :=
  if claimed.1.isEmpty then s
  else { s with rows := claimed.2, batches := s.batches ++ [⟨claimed.1, model⟩] }

/-- What a worker does with the vectors of its batch. -/
def saveOrFail (rules : SaveRules V) (encode : String → String → V) (dimension : Nat)
    (batch : Batch) (rows : List (EmbeddingRow V)) : List (EmbeddingRow V) :=
  match saveVectors rules batch.jobs (batch.jobs.map fun job => encode batch.model job.text)
      batch.model dimension rows with
  | .ok rows' => rows'
  | .error error => markFailed batch.jobs ("ValueError: " ++ error) rows

/-- `encode model text` is the vector that the model computes from the text. -/
def embeddingStep (kind : EmbeddingKind σ α V) (encode : String → String → V)
    (s : EmbeddingStore σ V) : EmbeddingOp α → Option (EmbeddingStore σ V)
  | .write model a =>
      match kind.write a s.source with
      | .ok (source, ensured) =>
          some { s with source := source, rows := ensured.foldl (ensureEmbeddingRow model) s.rows }
      | .error _ => some s
  | .claim locked limit maxRetries model =>
      some (s.claimBatch model
        (claimJobs locked limit maxRetries model (kind.contents s.source) s.rows))
  | .save i dimension =>
      (s.batches[i]?).map fun batch =>
        { s with rows := saveOrFail kind.toSaveRules encode dimension batch s.rows
                 batches := s.batches.eraseIdx i }
  | .fail i error =>
      (s.batches[i]?).map fun batch =>
        { s with rows := markFailed batch.jobs error s.rows, batches := s.batches.eraseIdx i }
  | .retryFailed maxRetries =>
      some { s with rows := resetFailed kind.toSaveRules maxRetries s.rows }

def EmbeddingKind.start (kind : EmbeddingKind σ α V) : EmbeddingStore σ V :=
  { source := kind.empty }

/-! ## What the vectors are of -/

variable {kind : EmbeddingKind σ α V} {encode : String → String → V} {textOf : String → String}
  {model : String} {rows : List (EmbeddingRow V)} {s t : EmbeddingStore σ V}

/-- The vector is the one of the row's own columns; `textOf` is the text behind a hash. -/
def EmbeddingRow.VectorOf (encode : String → String → V) (textOf : String → String)
    (row : EmbeddingRow V) : Prop :=
  ∀ vector, row.embedding = some vector →
    vector = encode row.embeddingModel (textOf row.contentHash)

/-- Nothing that `VectorOf` reads is changed. -/
def EmbeddingRow.SameVector (row row' : EmbeddingRow V) : Prop :=
  row'.embedding = row.embedding ∧ row'.embeddingModel = row.embeddingModel
    ∧ row'.contentHash = row.contentHash

theorem vectorOf_of_sameVector {row row' : EmbeddingRow V} (hsame : row.SameVector row')
    (h : row.VectorOf encode textOf) : row'.VectorOf encode textOf := by
  obtain ⟨hvector, hmodel, hhash⟩ := hsame
  intro vector hv
  rw [hmodel, hhash]
  exact h vector (hvector ▸ hv)

theorem sameVector_claimed (ids : List Nat) (row : EmbeddingRow V) :
    row.SameVector (row.claimed ids) := by
  unfold EmbeddingRow.claimed
  split
  · exact ⟨rfl, rfl, rfl⟩
  · exact ⟨rfl, rfl, rfl⟩

theorem vectorsOf_map {f : EmbeddingRow V → EmbeddingRow V}
    (hf : ∀ row : EmbeddingRow V, row.SameVector (f row))
    (h : ∀ row ∈ rows, row.VectorOf encode textOf) :
    ∀ row ∈ rows.map f, row.VectorOf encode textOf := by
  intro row hrow
  obtain ⟨old, hold, rfl⟩ := List.mem_map.mp hrow
  exact vectorOf_of_sameVector (hf old) (h old hold)

theorem vectorsOf_markFailed (jobs : List EmbeddingJob) (error : String)
    (h : ∀ row ∈ rows, row.VectorOf encode textOf) :
    ∀ row ∈ markFailed jobs error rows, row.VectorOf encode textOf := by
  refine vectorsOf_map (fun row => ?_) h
  split
  · exact ⟨rfl, rfl, rfl⟩
  · exact ⟨rfl, rfl, rfl⟩

theorem vectorsOf_resetFailed (rules : SaveRules V) (maxRetries : Nat)
    (h : ∀ row ∈ rows, row.VectorOf encode textOf) :
    ∀ row ∈ resetFailed rules maxRetries rows, row.VectorOf encode textOf := by
  refine vectorsOf_map (fun row => ?_) h
  split
  · exact ⟨rfl, rfl, rfl⟩
  · exact ⟨rfl, rfl, rfl⟩

/-! ### Saving -/

/-- A saved row is labelled with the model and the hash of its own job. -/
theorem vectorsOf_saveEach {rules : SaveRules V} {dimension : Nat}
    {saved : List (EmbeddingJob × V)} {rows' : List (EmbeddingRow V)}
    (hsaved : ∀ pair ∈ saved, pair.2 = encode model (textOf pair.1.contentHash))
    (h : ∀ row ∈ rows, row.VectorOf encode textOf)
    (hok : saveEach rules model dimension saved rows = .ok rows') :
    ∀ row ∈ rows', row.VectorOf encode textOf := by
  induction saved generalizing rows with
  | nil =>
      cases hok
      exact h
  | cons pair rest ih =>
      rw [saveEach] at hok
      split at hok
      · cases hok
      · refine ih (fun p hp => hsaved p (List.mem_cons_of_mem _ hp)) ?_ hok
        intro row hrow
        obtain ⟨old, hold, rfl⟩ := List.mem_map.mp hrow
        unfold EmbeddingRow.saved
        split
        · intro vector hv
          obtain rfl := Option.some.inj hv
          exact hsaved pair List.mem_cons_self
        · exact h old hold

theorem vectorsOf_saveOrFail {rules : SaveRules V} {dimension : Nat} {batch : Batch}
    (hjobs : ∀ job ∈ batch.jobs, job.text = textOf job.contentHash)
    (h : ∀ row ∈ rows, row.VectorOf encode textOf) :
    ∀ row ∈ saveOrFail rules encode dimension batch rows, row.VectorOf encode textOf := by
  unfold saveOrFail
  split
  · rename_i rows' hok
    unfold saveVectors at hok
    split at hok
    · cases hok
    · refine vectorsOf_saveEach ?_ h hok
      intro pair hpair
      have hzip : batch.jobs.zip (batch.jobs.map fun job => encode batch.model job.text)
          = batch.jobs.map fun job => (job, encode batch.model job.text) := by
        simpa using List.zip_map' (f := id) (l := batch.jobs)
      rw [hzip] at hpair
      obtain ⟨job, hjob, rfl⟩ := List.mem_map.mp hpair
      rw [hjobs job hjob]
  · exact vectorsOf_markFailed batch.jobs _ h

/-! ### Claiming -/

/-- A job is the content it was read from. -/
theorem mem_claimJobs {locked : Nat → Bool} {limit maxRetries : Nat} {contents : List ContentRow}
    {job : EmbeddingJob} (h : job ∈ (claimJobs locked limit maxRetries model contents rows).1) :
    ∃ content ∈ contents, job = .of content := by
  obtain ⟨pair, hpair, rfl⟩ := List.mem_map.mp h
  have hsorted := List.mem_of_mem_take hpair
  rw [List.mem_insertionSort] at hsorted
  obtain ⟨row, -, hjoined⟩ := List.mem_flatMap.mp (List.mem_of_mem_filter hsorted)
  obtain ⟨content, hcontent, rfl⟩ := List.mem_map.mp hjoined
  exact ⟨content, List.mem_of_mem_filter hcontent, rfl⟩

/-! ### Ensuring -/

/-- A vector that the upsert keeps is labelled with the model it is given. -/
def LabelKept (model : String) (e : Ensured) (row : EmbeddingRow V) : Prop :=
  row.ownerId = e.id → row.contentHash = e.contentHash → row.embedding ≠ none →
    row.embeddingModel = model

/-- So it is for each upsert, in the state it finds. -/
def KeepsLabels (model : String) : List Ensured → List (EmbeddingRow V) → Prop
  | [], _ => True
  | e :: rest, rows =>
      (∀ row ∈ rows, LabelKept model e row)
        ∧ KeepsLabels model rest (ensureEmbeddingRow model rows e)

theorem vectorOf_ensured {e : Ensured} {row : EmbeddingRow V} (hid : row.ownerId = e.id)
    (hlabel : LabelKept model e row) (h : row.VectorOf encode textOf) :
    (row.ensured model e).VectorOf encode textOf := by
  unfold EmbeddingRow.ensured
  split
  · intro vector hv
    cases hv
  · rename_i hhash
    intro vector hv
    have hsame := not_not.mp hhash
    have hold := h vector hv
    rw [hlabel hid hsame (by rw [hv]; exact Option.some_ne_none vector), hsame] at hold
    exact hold

theorem vectorsOf_ensure {e : Ensured} (hlabel : ∀ row ∈ rows, LabelKept model e row)
    (h : ∀ row ∈ rows, row.VectorOf encode textOf) :
    ∀ row ∈ ensureEmbeddingRow model rows e, row.VectorOf encode textOf := by
  intro row hrow
  unfold ensureEmbeddingRow at hrow
  split at hrow
  · obtain ⟨old, hold, rfl⟩ := List.mem_map.mp hrow
    by_cases hid : old.ownerId = e.id
    · rw [if_pos hid]
      exact vectorOf_ensured hid (hlabel old hold) (h old hold)
    · rw [if_neg hid]
      exact h old hold
  · rcases List.mem_append.mp hrow with hrow | hrow
    · exact h row hrow
    · rw [List.mem_singleton.mp hrow]
      intro vector hv
      cases hv

theorem vectorsOf_ensureAll {ensured : List Ensured} (hlabels : KeepsLabels model ensured rows)
    (h : ∀ row ∈ rows, row.VectorOf encode textOf) :
    ∀ row ∈ ensured.foldl (ensureEmbeddingRow model) rows, row.VectorOf encode textOf := by
  induction ensured generalizing rows with
  | nil => exact h
  | cons e rest ih => exact ih hlabels.2 (vectorsOf_ensure hlabels.1 h)

theorem ensure_of_no_vectors {e : Ensured} (h : ∀ row ∈ rows, row.embedding = none) :
    ∀ row ∈ ensureEmbeddingRow model rows e, row.embedding = none := by
  intro row hrow
  unfold ensureEmbeddingRow at hrow
  split at hrow
  · obtain ⟨old, hold, rfl⟩ := List.mem_map.mp hrow
    have hnone := h old hold
    unfold EmbeddingRow.ensured
    split
    · split
      · rfl
      · exact hnone
    · exact hnone
  · rcases List.mem_append.mp hrow with hrow | hrow
    · exact h row hrow
    · rw [List.mem_singleton.mp hrow]

/-- Rows without vectors may be labelled freely. -/
theorem keepsLabels_of_no_vectors {ensured : List Ensured}
    (h : ∀ row ∈ rows, row.embedding = none) : KeepsLabels model ensured rows := by
  induction ensured generalizing rows with
  | nil => trivial
  | cons e rest ih =>
      refine ⟨fun row hrow _ _ hvector => ?_, ih (ensure_of_no_vectors h)⟩
      exact absurd (h row hrow) hvector

/-! ### Runs -/

/-- A write relabels no vector, and its contents have the texts their hashes stand for. -/
def EmbeddingKind.WriteOk (kind : EmbeddingKind σ α V) (textOf : String → String)
    (s : EmbeddingStore σ V) : EmbeddingOp α → Prop
  | .write model a => ∀ source ensured, kind.write a s.source = .ok (source, ensured) →
      KeepsLabels model ensured s.rows ∧ ∀ c ∈ kind.imported a, c.2 = textOf c.1
  | _ => True

structure VectorsOf (kind : EmbeddingKind σ α V) (encode : String → String → V)
    (textOf : String → String) (s : EmbeddingStore σ V) : Prop where
  contents : ∀ content ∈ kind.contents s.source, content.text = textOf content.contentHash
  jobs : ∀ batch ∈ s.batches, ∀ job ∈ batch.jobs, job.text = textOf job.contentHash
  rows : ∀ row ∈ s.rows, row.VectorOf encode textOf

theorem vectorsOf_start : VectorsOf kind encode textOf kind.start where
  contents := fun content hcontent => by
    rw [EmbeddingKind.start, kind.contents_empty] at hcontent
    cases hcontent
  jobs := fun _ h => absurd h List.not_mem_nil
  rows := fun _ h => absurd h List.not_mem_nil

theorem vectorsOf_claimBatch {locked : Nat → Bool} {limit maxRetries : Nat}
    (h : VectorsOf kind encode textOf s) :
    VectorsOf kind encode textOf (s.claimBatch model
      (claimJobs locked limit maxRetries model (kind.contents s.source) s.rows)) := by
  unfold EmbeddingStore.claimBatch
  split
  · exact h
  · refine ⟨h.contents, ?_, vectorsOf_map (sameVector_claimed _) h.rows⟩
    intro batch hbatch job hjob
    rcases List.mem_append.mp hbatch with hbatch | hbatch
    · exact h.jobs batch hbatch job hjob
    · obtain rfl := List.mem_singleton.mp hbatch
      obtain ⟨content, hcontent, rfl⟩ := mem_claimJobs hjob
      exact h.contents content hcontent

/-- What a step preserves. -/
theorem vectorsOf_step {op : EmbeddingOp α} (h : VectorsOf kind encode textOf s)
    (hok : kind.WriteOk textOf s op) (hstep : embeddingStep kind encode s op = some t) :
    VectorsOf kind encode textOf t := by
  cases op with
  | write model a =>
      rw [embeddingStep] at hstep
      split at hstep
      · rename_i source ensured hwrite
        obtain rfl := Option.some.inj hstep
        obtain ⟨hlabels, himported⟩ := hok source ensured hwrite
        refine ⟨?_, h.jobs, vectorsOf_ensureAll hlabels h.rows⟩
        intro content hcontent
        rcases kind.contents_write hwrite content hcontent with ⟨old, hold, hhash, htext⟩ | hnew
        · rw [← htext, ← hhash]
          exact h.contents old hold
        · exact himported _ hnew
      · obtain rfl := Option.some.inj hstep
        exact h
  | claim locked limit maxRetries model =>
      obtain rfl := Option.some.inj hstep
      exact vectorsOf_claimBatch h
  | save i dimension =>
      obtain ⟨batch, hbatch, rfl⟩ := Option.map_eq_some_iff.mp hstep
      have hmem := List.mem_of_getElem? hbatch
      exact ⟨h.contents, fun b hb => h.jobs b (List.mem_of_mem_eraseIdx hb),
        vectorsOf_saveOrFail (h.jobs batch hmem) h.rows⟩
  | fail i error =>
      obtain ⟨batch, hbatch, rfl⟩ := Option.map_eq_some_iff.mp hstep
      exact ⟨h.contents, fun b hb => h.jobs b (List.mem_of_mem_eraseIdx hb),
        vectorsOf_markFailed batch.jobs error h.rows⟩
  | retryFailed maxRetries =>
      obtain rfl := Option.some.inj hstep
      exact ⟨h.contents, h.jobs, vectorsOf_resetFailed _ maxRetries h.rows⟩

theorem vectorsOf_run {ops : List (EmbeddingOp α)}
    (hok : Runs.Meets (embeddingStep kind encode) (kind.WriteOk textOf) kind.start ops)
    (hrun : Runs.run (embeddingStep kind encode) kind.start ops = some s) :
    VectorsOf kind encode textOf s :=
  Runs.run_invariant (fun _ _ _ hs hop hstep => vectorsOf_step hs hop hstep) vectorsOf_start
    hok hrun

/-! ## Freshness -/

/-- A vector that the claim would leave although there are attempts left is the model's, of the
content as it is. -/
def Fresh (encode : String → String → V) (model : String) (maxRetries : Nat)
    (row : EmbeddingRow V) (content : ContentRow) : Prop :=
  ∀ vector, row.embedding = some vector → row.attemptCount < maxRetries →
    selects model maxRetries row content = false → vector = encode model content.text

/-- The claim looks at the content, or would find the columns as they should be. -/
def InSight (model : String) (row : EmbeddingRow V) (content : ContentRow) : Prop :=
  content.live = true ∨ needsVector model row content = false

/-- So it is for every row, whatever model is configured. -/
def EmbeddingKind.AllFresh (kind : EmbeddingKind σ α V) (encode : String → String → V)
    (s : EmbeddingStore σ V) : Prop :=
  ∀ model maxRetries, ∀ content ∈ kind.contents s.source, ∀ row ∈ s.rows,
    row.ownerId = content.id → Fresh encode model maxRetries row content

def EmbeddingKind.FreshInSight (kind : EmbeddingKind σ α V) (encode : String → String → V)
    (s : EmbeddingStore σ V) : Prop :=
  ∀ model maxRetries, ∀ content ∈ kind.contents s.source, ∀ row ∈ s.rows,
    row.ownerId = content.id → InSight model row content → Fresh encode model maxRetries row content

theorem needsVector_eq_false {row : EmbeddingRow V} {content : ContentRow}
    (h : needsVector model row content = false) :
    row.embeddingModel = model ∧ row.contentHash = content.contentHash := by
  simp only [needsVector, Bool.or_eq_false_iff, decide_eq_false_iff_not, not_not] at h
  exact ⟨h.1.1.2, h.1.2⟩

theorem needsVector_of_inSight {maxRetries : Nat} {row : EmbeddingRow V} {content : ContentRow}
    (hsight : InSight model row content) (hleft : row.attemptCount < maxRetries)
    (h : selects model maxRetries row content = false) :
    needsVector model row content = false := by
  rcases hsight with hlive | hneeds
  · simpa [selects, hlive, hleft] using h
  · exact hneeds

theorem freshInSight_of_vectorsOf (h : VectorsOf kind encode textOf s) :
    kind.FreshInSight encode s := by
  intro model maxRetries content hcontent row hrow _ hsight vector hv hleft hselects
  have hneeds := needsVector_of_inSight hsight hleft hselects
  obtain ⟨hmodel, hhash⟩ := needsVector_eq_false hneeds
  have hvector := h.rows row hrow vector hv
  rw [hmodel, hhash, ← h.contents content hcontent] at hvector
  exact hvector

/-- A row that shows that not all vectors are fresh. -/
theorem not_allFresh [DecidableEq V] (model : String) (maxRetries : Nat)
    (h : ∃ content ∈ kind.contents s.source, ∃ row ∈ s.rows, row.ownerId = content.id
      ∧ row.attemptCount < maxRetries ∧ selects model maxRetries row content = false
      ∧ row.embedding.any (fun vector => decide (vector ≠ encode model content.text)) = true) :
    ¬ kind.AllFresh encode s := by
  intro hfresh
  obtain ⟨content, hcontent, row, hrow, hid, hleft, hselects, hvector⟩ := h
  cases hv : row.embedding with
  | none =>
      rw [hv] at hvector
      cases hvector
  | some vector =>
      rw [hv] at hvector
      exact of_decide_eq_true hvector
        (hfresh model maxRetries content hcontent row hrow hid vector hv hleft hselects)

end Aegora
