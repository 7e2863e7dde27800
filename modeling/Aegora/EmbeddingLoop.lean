import Aegora.EmbeddingRows
import Aegora.FaqImport
import Mathlib.Algebra.GroupWithZero.Nat
import Mathlib.Algebra.Order.BigOperators.Group.List
import Mathlib.Algebra.Order.Group.Nat

/-!
# The FAQ embedding loop

`embed_pending_faqs` claims batches of FAQ rows until a claim finds none.
A batch is encoded, with retries, and saved, or else marked failed. A
failed row stays pending, and each claim counts one attempt; a saved row
loses its attempts but is no longer pending. So the attempts that the
pending rows have left (`budget`) pay for every job that is claimed.

No import runs beside the loop: the contents stay as they are. Other workers
of the same settings may run: between any two transactions of the loop they
claim, save and fail jobs (`WorkerOp`), and a claim skips the rows that they
hold locked. The run raises where something fails outside its `try`: before
the loop (`StartFails`), at a claim, or when the failure of a batch is to be
recorded (`RoundFails`).
-/

namespace Aegora

variable {V : Type}

/-- `faqs` and `faq_embeddings`, both with a primary key. -/
structure FaqEmbeddings (V : Type) where
  contents : List ContentRow
  rows : List (EmbeddingRow V)
  contents_nodup : (contents.map ContentRow.id).Nodup
  rows_nodup : (rows.map EmbeddingRow.ownerId).Nodup

structure EmbeddingSettings where
  batchSize : Nat
  maxRetries : Nat
  storageModel : String
  databaseDimension : Nat

/-! ## Other workers -/

/-- A transaction of another worker, on jobs of the contents with these ids. -/
inductive WorkerOp (V : Type) where
  | claim (locked : Nat → Bool) (limit : Nat)
  | save (ids : List Nat) (vectors : List V)
  | fail (ids : List Nat) (error : String)

def jobsOf (contents : List ContentRow) (ids : List Nat) : List EmbeddingJob :=
  (contents.filter fun content => content.id ∈ ids).map .of

def workerStep (rules : SaveRules V) (settings : EmbeddingSettings) (contents : List ContentRow)
    (rows : List (EmbeddingRow V)) : WorkerOp V → List (EmbeddingRow V)
  | .claim locked limit =>
      (claimJobs locked limit settings.maxRetries settings.storageModel contents rows).2
  | .save ids vectors =>
      match saveVectors rules (jobsOf contents ids) vectors settings.storageModel
          settings.databaseDimension rows with
      | .ok rows' => rows'
      | .error _ => rows
  | .fail ids error => markFailed (jobsOf contents ids) error rows

/-- What happens to one round of the loop outside this code. -/
structure BatchFate (V : Type) where
  /-- What other workers do before the claim. -/
  before : List (WorkerOp V) := []
  /-- The rows that they hold locked at the claim. -/
  locked : Nat → Bool := fun _ => false
  /-- An error of the database at the claim, which is rolled back. -/
  claimError : Option String := none
  /-- What the encoder does at each attempt. -/
  encode : Nat → List String → Except String (List V)
  /-- What other workers do while the batch is encoded. -/
  meanwhile : List (WorkerOp V) := []
  /-- An error of the database while saving, and whether the commit went through before it. -/
  saveError : Option (String × Bool) := none
  /-- An error of the database in `mark_failed`, which is rolled back. -/
  markError : Option String := none

/-- What happens before the loop outside this code. -/
structure StartFate where
  /-- An error of the database in `reset_failed`, and whether the commit went through before it. -/
  resetError : Option (String × Bool) := none
  /-- An error of the database in `has_pending_jobs`. -/
  pendingError : Option String := none
  /-- What `build_encoder` gives: an encoder of a dimension, or an exception. -/
  encoder : Except String Nat

/-! ## The loop -/

/-- The attempts `encode_with_retry` has left, with the error of the last one. -/
def encodeFrom (encode : Nat → Except String (List V)) :
    (left attempt : Nat) → (lastError : String) → Except String (List V)
  | 0, _, lastError => .error lastError
  | left + 1, attempt, _ =>
      match encode attempt with
      | .ok vectors => .ok vectors
      | .error error => encodeFrom encode left (attempt + 1) error

def encodeWithRetry (encode : Nat → Except String (List V)) (maxRetries : Nat) :
    Except String (List V) :=
  encodeFrom encode maxRetries 1 "AssertionError: "

/-- `save_vectors` and the rows it leaves. -/
def saveBatch (rules : SaveRules V) (settings : EmbeddingSettings) (fate : BatchFate V)
    (jobs : List EmbeddingJob) (vectors : List V) (rows : List (EmbeddingRow V)) :
    Except String Unit × List (EmbeddingRow V) :=
  match saveVectors rules jobs vectors settings.storageModel settings.databaseDimension rows with
  | .error error => (.error ("ValueError: " ++ error), rows)
  | .ok rows' =>
      match fate.saveError with
      | none => (.ok (), rows')
      | some (error, committed) => (.error error, if committed then rows' else rows)

/-- The `try` of the loop: the exception that ends it, and the rows. -/
def tryBatch (rules : SaveRules V) (settings : EmbeddingSettings) (fate : BatchFate V)
    (jobs : List EmbeddingJob) (rows : List (EmbeddingRow V)) :
    Option String × List (EmbeddingRow V) :=
  match encodeWithRetry (fun attempt => fate.encode attempt (jobs.map EmbeddingJob.text))
      settings.maxRetries with
  | .error error => (some error, rows)
  | .ok vectors =>
      match saveBatch rules settings fate jobs vectors rows with
      | (.ok (), rows') => (none, rows')
      | (.error error, rows') => (some error, rows')

/-- `mark_failed`, which may itself raise: the database stores no text with a NUL. -/
def recordFailure (fate : BatchFate V) (jobs : List EmbeddingJob) (error : String)
    (rows : List (EmbeddingRow V)) : Except String (List (EmbeddingRow V)) :=
  match fate.markError with
  | some markError => .error markError
  | none =>
      if Char.ofNat 0 ∈ error.toList.take 2000 then
        .error "DataError: PostgreSQL text fields cannot contain NUL (0x00) bytes"
      else .ok (markFailed jobs error rows)

structure EmbeddingMetrics where
  processed : Nat := 0
  succeeded : Nat := 0
  failed : Nat := 0
deriving DecidableEq

def EmbeddingMetrics.add (metrics : EmbeddingMetrics) (jobs : Nat) (succeeded : Bool) :
    EmbeddingMetrics where
  processed := metrics.processed + jobs
  succeeded := metrics.succeeded + if succeeded then jobs else 0
  failed := metrics.failed + if succeeded then 0 else jobs

/-- How far the loop is. -/
structure EmbeddingProgress (V : Type) where
  rows : List (EmbeddingRow V)
  metrics : EmbeddingMetrics := {}
  /-- The rounds that claimed jobs, and the jobs they claimed. -/
  rounds : Nat := 0
  claimed : Nat := 0

/-- The number of rows the next claim may take. -/
def nextBatchSize (batchSize : Nat) (limit : Option Nat) (processed : Nat) : Nat :=
  match limit with
  | none => batchSize
  | some limit => min batchSize (limit - processed)

inductive RoundEnd where
  | goesOn
  | noJobs
  | raises (error : String)

/-- What becomes of a claimed batch. -/
def finishBatch (rules : SaveRules V) (settings : EmbeddingSettings) (fate : BatchFate V)
    (jobs : List EmbeddingJob) (p : EmbeddingProgress V) : RoundEnd × EmbeddingProgress V :=
  match tryBatch rules settings fate jobs p.rows with
  | (none, rows) => (.goesOn, { p with rows := rows, metrics := p.metrics.add jobs.length true })
  | (some error, rows) =>
      match recordFailure fate jobs error rows with
      | .error markError => (.raises markError, { p with rows := rows })
      | .ok rows' =>
          (.goesOn, { p with rows := rows', metrics := p.metrics.add jobs.length false })

/-- The body of the `while` loop. -/
def embedRound (rules : SaveRules V) (settings : EmbeddingSettings) (limit : Option Nat)
    (contents : List ContentRow) (fate : BatchFate V) (p : EmbeddingProgress V) :
    RoundEnd × EmbeddingProgress V :=
  let found := fate.before.foldl (workerStep rules settings contents) p.rows
  match fate.claimError with
  | some error => (.raises error, { p with rows := found })
  | none =>
      let claim := claimJobs fate.locked
        (nextBatchSize settings.batchSize limit p.metrics.processed) settings.maxRetries
        settings.storageModel contents found
      if claim.1.isEmpty then (.noJobs, { p with rows := found })
      else
        finishBatch rules settings fate claim.1
          { p with
            rows := fate.meanwhile.foldl (workerStep rules settings contents) claim.2
            rounds := p.rounds + 1
            claimed := p.claimed + claim.1.length }

/-- The `while` loop, for at most `fuel` tests of its condition, with the exception that ended
it. `fates i` is the fate of the round with `i` rounds before it. -/
def embedLoop (rules : SaveRules V) (settings : EmbeddingSettings) (limit : Option Nat)
    (fates : Nat → BatchFate V) (contents : List ContentRow) :
    (fuel : Nat) → EmbeddingProgress V → Option (Option String × EmbeddingProgress V)
  | 0, _ => none
  | fuel + 1, p =>
      if limit.all fun limit => decide (p.metrics.processed < limit) then
        match embedRound rules settings limit contents (fates p.rounds) p with
        | (.goesOn, p') => embedLoop rules settings limit fates contents fuel p'
        | (.noJobs, p') => some (none, p')
        | (.raises error, p') => some (some error, p')
      else some (none, p)

/-- `has_pending_jobs`. -/
def hasPendingJobs (maxRetries : Nat) (model : String) (contents : List ContentRow)
    (rows : List (EmbeddingRow V)) : Bool :=
  rows.any fun row => contents.any fun content =>
    decide (content.id = row.ownerId) && selects model maxRetries row content

/-- `reset_failed` where it is asked for: its exception, and the rows it leaves. -/
def resetRows (rules : SaveRules V) (settings : EmbeddingSettings) (retryFailed : Bool)
    (start : StartFate) (rows : List (EmbeddingRow V)) : Option String × List (EmbeddingRow V) :=
  if retryFailed then
    let reset := resetFailed rules settings.maxRetries rows
    match start.resetError with
    | none => (none, reset)
    | some (error, committed) => (some error, if committed then reset else rows)
  else (none, rows)

/-- `embed_pending_faqs`. -/
def embedPendingFaqs (rules : SaveRules V) (settings : EmbeddingSettings) (retryFailed : Bool)
    (limit : Option Nat) (start : StartFate) (fates : Nat → BatchFate V)
    (table : FaqEmbeddings V) (fuel : Nat) :
    Option (Except String EmbeddingMetrics × EmbeddingProgress V) :=
  match resetRows rules settings retryFailed start table.rows with
  | (some error, rows) => some (.error error, { rows := rows })
  | (none, rows) =>
      match start.pendingError with
      | some error => some (.error error, { rows := rows })
      | none =>
          if !hasPendingJobs settings.maxRetries settings.storageModel table.contents rows then
            some (.ok {}, { rows := rows })
          else
            match start.encoder with
            | .error error => some (.error error, { rows := rows })
            | .ok dimension =>
                if dimension ≠ settings.databaseDimension then
                  some (.error ("ValueError: embedding dimension mismatch: model="
                    ++ toString dimension ++ ", database="
                    ++ toString settings.databaseDimension), { rows := rows })
                else
                  (embedLoop rules settings limit fates table.contents fuel { rows := rows }).map
                    fun ended => (match ended.1 with
                      | some error => .error error
                      | none => .ok ended.2.metrics, ended.2)

/-! ## Pending rows -/

/-- The FAQ is not deleted and the row has no vector of it, whatever the attempts. -/
def isPending (model : String) (contents : List ContentRow) (row : EmbeddingRow V) : Bool :=
  contents.any fun content =>
    decide (content.id = row.ownerId) && (content.live && needsVector model row content)

/-- The attempts a pending row has left. -/
def attemptsLeft (model : String) (maxRetries : Nat) (contents : List ContentRow)
    (row : EmbeddingRow V) : Nat :=
  if isPending model contents row then maxRetries - row.attemptCount else 0

def budget (model : String) (maxRetries : Nat) (contents : List ContentRow)
    (rows : List (EmbeddingRow V)) : Nat :=
  (rows.map (attemptsLeft model maxRetries contents)).sum

section

variable {model : String} {maxRetries limit : Nat} {locked : Nat → Bool}
  {contents : List ContentRow}
  {rows rows' : List (EmbeddingRow V)} {jobs : List EmbeddingJob}

theorem isPending_iff {row : EmbeddingRow V} : isPending model contents row = true
    ↔ ∃ content ∈ contents, content.id = row.ownerId ∧ content.live = true
      ∧ needsVector model row content = true := by
  simp [isPending]

theorem budget_le (rows : List (EmbeddingRow V)) : budget model maxRetries contents rows
    ≤ rows.countP (isPending model contents) * maxRetries := by
  induction rows with
  | nil => simp [budget]
  | cons row rest ih =>
      have hcons : budget model maxRetries contents (row :: rest)
          = attemptsLeft model maxRetries contents row + budget model maxRetries contents rest :=
        List.sum_cons
      rw [hcons, List.countP_cons, Nat.add_mul]
      unfold attemptsLeft
      split
      · omega
      · omega

/-! ## What a claim takes -/

theorem mem_claimedPairs {pair : EmbeddingRow V × ContentRow}
    (h : pair ∈ claimedPairs locked limit maxRetries model contents rows) :
    pair.1 ∈ rows ∧ pair.2 ∈ contents ∧ pair.2.id = pair.1.ownerId
      ∧ selects model maxRetries pair.1 pair.2 = true := by
  have hsorted := List.mem_of_mem_take h
  rw [List.mem_insertionSort, List.mem_filter] at hsorted
  obtain ⟨hjoined, hselects⟩ := hsorted
  obtain ⟨row, hrow, hpair⟩ := List.mem_flatMap.mp hjoined
  obtain ⟨content, hcontent, rfl⟩ := List.mem_map.mp hpair
  obtain ⟨hcontent, hid⟩ := List.mem_filter.mp hcontent
  exact ⟨hrow, hcontent, of_decide_eq_true hid, ((Bool.and_eq_true _ _).mp hselects).1⟩

theorem length_filter_id_le (h : (contents.map ContentRow.id).Nodup) (k : Nat) :
    (contents.filter fun content => content.id = k).length ≤ 1 := by
  have hcount := List.nodup_iff_count_le_one.mp h k
  rw [List.count_eq_countP, List.countP_map, List.countP_eq_length_filter] at hcount
  exact hcount

/-- A row joins at most one content, so its key comes at most once. -/
theorem joined_sublist (h : (contents.map ContentRow.id).Nodup) (rows : List (EmbeddingRow V)) :
    ((rows.flatMap fun row => (contents.filter fun content => content.id = row.ownerId).map
      (row, ·)).map fun pair => pair.1.ownerId).Sublist (rows.map EmbeddingRow.ownerId) := by
  induction rows with
  | nil => simp
  | cons row rest ih =>
      rw [List.flatMap_cons, List.map_append, List.map_cons]
      have hone := length_filter_id_le h row.ownerId
      cases hjoin : contents.filter fun content => content.id = row.ownerId with
      | nil => exact ih.cons _
      | cons content more =>
          rw [hjoin, List.length_cons] at hone
          obtain rfl : more = [] := List.length_eq_zero_iff.mp (by omega)
          exact ih.cons_cons _

theorem nodup_claimedPairs (hcontents : (contents.map ContentRow.id).Nodup)
    (hrows : (rows.map EmbeddingRow.ownerId).Nodup) :
    ((claimedPairs locked limit maxRetries model contents rows).map
      fun pair => pair.1.ownerId).Nodup := by
  have hjoined := hrows.sublist (joined_sublist hcontents rows)
  refine List.Nodup.sublist ((List.take_sublist _ _).map _) ?_
  refine (((List.perm_insertionSort _ _).map _).nodup_iff).mpr ?_
  exact hjoined.sublist (List.filter_sublist.map _)

theorem pending_of_claimed (hrows : (rows.map EmbeddingRow.ownerId).Nodup)
    {row : EmbeddingRow V} (hrow : row ∈ rows)
    (h : row.ownerId ∈ (claimedPairs locked limit maxRetries model contents rows).map
      fun pair => pair.1.ownerId) :
    isPending model contents row = true ∧ row.attemptCount < maxRetries := by
  obtain ⟨pair, hpair, hid⟩ := List.mem_map.mp h
  obtain ⟨hfst, hsnd, hjoin, hselects⟩ := mem_claimedPairs hpair
  obtain rfl := List.inj_on_of_nodup_map hrows hfst hrow hid
  simp only [selects, Bool.and_eq_true, decide_eq_true_eq] at hselects
  exact ⟨isPending_iff.mpr ⟨pair.2, hsnd, hjoin, hselects.1.1, hselects.1.2⟩, hselects.2⟩

/-- A claim that may take rows takes none only when every pending row has used its attempts or
is locked. -/
theorem exhausted_of_isEmpty (hlimit : 0 < limit)
    (h : (claimJobs locked limit maxRetries model contents rows).1.isEmpty = true) :
    ∀ row ∈ rows, isPending model contents row = true →
      maxRetries ≤ row.attemptCount ∨ locked row.ownerId = true := by
  intro row hrow hpending
  by_contra hleft
  obtain ⟨hattempts, hfree⟩ := not_or.mp hleft
  obtain ⟨content, hcontent, hid, hlive, hneeds⟩ := isPending_iff.mp hpending
  rw [claimJobs, List.isEmpty_iff, List.map_eq_nil_iff, claimedPairs, List.take_eq_nil_iff] at h
  have hnil := h.resolve_left (by omega)
  have hmem : (row, content) ∈ ([] : List (EmbeddingRow V × ContentRow)) := by
    rw [← hnil, List.mem_insertionSort, List.mem_filter]
    refine ⟨List.mem_flatMap.mpr ⟨row, hrow, List.mem_map.mpr ⟨content, ?_, rfl⟩⟩, ?_⟩
    · exact List.mem_filter.mpr ⟨hcontent, decide_eq_true hid⟩
    · have hselects : selects model maxRetries row content = true := by
        simp only [selects, hlive, hneeds, Bool.and_self, Bool.true_and, decide_eq_true_eq]
        omega
      simp [hselects, hfree]
  cases hmem

/-! ## What a step leaves of the budget -/

/-- The same keys, and no more attempts left. -/
structure Spends (model : String) (maxRetries : Nat) (contents : List ContentRow)
    (rows rows' : List (EmbeddingRow V)) : Prop where
  keys : rows'.map EmbeddingRow.ownerId = rows.map EmbeddingRow.ownerId
  budget_le : budget model maxRetries contents rows' ≤ budget model maxRetries contents rows

theorem spends_refl (rows : List (EmbeddingRow V)) : Spends model maxRetries contents rows rows :=
  ⟨rfl, Nat.le_refl _⟩

theorem spends_trans {rows'' : List (EmbeddingRow V)}
    (h : Spends model maxRetries contents rows rows')
    (h' : Spends model maxRetries contents rows' rows'') :
    Spends model maxRetries contents rows rows'' :=
  ⟨h'.keys.trans h.keys, h'.budget_le.trans h.budget_le⟩

theorem spends_map {f : EmbeddingRow V → EmbeddingRow V}
    (hkey : ∀ row : EmbeddingRow V, (f row).ownerId = row.ownerId)
    (hleft : ∀ row : EmbeddingRow V, attemptsLeft model maxRetries contents (f row)
      ≤ attemptsLeft model maxRetries contents row) (rows : List (EmbeddingRow V)) :
    Spends model maxRetries contents rows (rows.map f) := by
  constructor
  · rw [List.map_map]
    exact List.map_congr_left fun row _ => hkey row
  · unfold budget
    rw [List.map_map]
    exact List.sum_le_sum fun row _ => hleft row

theorem spends_markFailed (jobs : List EmbeddingJob) (error : String)
    (rows : List (EmbeddingRow V)) :
    Spends model maxRetries contents rows (markFailed jobs error rows) := by
  refine spends_map (fun row => ?_) (fun row => ?_) rows
  · split
    · rfl
    · rfl
  · split
    · exact Nat.le_refl _
    · exact Nat.le_refl _

/-- A saved row has the vector of its content and is not pending. -/
theorem attemptsLeft_saved (hcontents : (contents.map ContentRow.id).Nodup) {content : ContentRow}
    (hcontent : content ∈ contents) (vector : V) (row : EmbeddingRow V) :
    attemptsLeft model maxRetries contents (row.saved model (.of content) vector)
      ≤ attemptsLeft model maxRetries contents row := by
  unfold EmbeddingRow.saved
  split
  · rename_i hid
    have hpending : isPending model contents
        { row with embedding := some vector, embeddingModel := model
                   contentHash := (EmbeddingJob.of content).contentHash
                   version := (EmbeddingJob.of content).version, status := .completed
                   attemptCount := 0, lastError := none } = false := by
      rw [Bool.eq_false_iff]
      intro hpending
      obtain ⟨other, hother, hkey, -, hneeds⟩ := isPending_iff.mp hpending
      obtain rfl := List.inj_on_of_nodup_map hcontents hother hcontent (hkey.trans hid)
      simp [needsVector, EmbeddingJob.of] at hneeds
    rw [attemptsLeft, hpending]
    exact Nat.zero_le _
  · exact Nat.le_refl _

theorem spends_saveEach {rules : SaveRules V} {dimension : Nat}
    (hcontents : (contents.map ContentRow.id).Nodup) {saved : List (EmbeddingJob × V)}
    (hjobs : ∀ pair ∈ saved, ∃ content ∈ contents, pair.1 = .of content)
    (hok : saveEach rules model dimension saved rows = .ok rows') :
    Spends model maxRetries contents rows rows' := by
  induction saved generalizing rows with
  | nil =>
      cases hok
      exact spends_refl _
  | cons pair rest ih =>
      rw [saveEach] at hok
      split at hok
      · cases hok
      · obtain ⟨content, hcontent, hjob⟩ := hjobs pair List.mem_cons_self
        refine spends_trans ?_ (ih (fun p hp => hjobs p (List.mem_cons_of_mem _ hp)) hok)
        rw [hjob]
        refine spends_map (fun row => ?_) (attemptsLeft_saved hcontents hcontent pair.2) _
        unfold EmbeddingRow.saved
        split
        · rfl
        · rfl

theorem spends_saveVectors {rules : SaveRules V} {dimension : Nat} {vectors : List V}
    (hcontents : (contents.map ContentRow.id).Nodup)
    (hjobs : ∀ job ∈ jobs, ∃ content ∈ contents, job = .of content)
    (hok : saveVectors rules jobs vectors model dimension rows = .ok rows') :
    Spends model maxRetries contents rows rows' := by
  unfold saveVectors at hok
  split at hok
  · cases hok
  · exact spends_saveEach hcontents (fun pair hpair => hjobs _ (List.of_mem_zip hpair).1) hok

theorem spends_tryBatch (rules : SaveRules V) (settings : EmbeddingSettings) (fate : BatchFate V)
    (hcontents : (contents.map ContentRow.id).Nodup)
    (hjobs : ∀ job ∈ jobs, ∃ content ∈ contents, job = .of content)
    (rows : List (EmbeddingRow V)) :
    Spends settings.storageModel maxRetries contents rows
      (tryBatch rules settings fate jobs rows).2 := by
  unfold tryBatch
  split
  · exact spends_refl rows
  · rename_i vectors _
    have hsave : Spends settings.storageModel maxRetries contents rows
        (saveBatch rules settings fate jobs vectors rows).2 := by
      unfold saveBatch
      split
      · exact spends_refl rows
      · rename_i rows' hok
        have hspends : Spends settings.storageModel maxRetries contents rows rows' :=
          spends_saveVectors hcontents hjobs hok
        split
        · exact hspends
        · split
          · exact hspends
          · exact spends_refl rows
    split
    · rename_i hpair
      rw [hpair] at hsave
      exact hsave
    · rename_i hpair
      rw [hpair] at hsave
      exact hsave

/-- As many rows count an attempt as there are jobs. -/
theorem length_claimJobs (hcontents : (contents.map ContentRow.id).Nodup)
    (hrows : (rows.map EmbeddingRow.ownerId).Nodup) :
    (claimJobs locked limit maxRetries model contents rows).1.length
      = rows.countP fun row => decide (row.ownerId ∈
          (claimedPairs locked limit maxRetries model contents rows).map
            fun pair => pair.1.ownerId) := by
  set ids := (claimedPairs locked limit maxRetries model contents rows).map
    fun pair => pair.1.ownerId with hids
  have hperm : ((rows.map EmbeddingRow.ownerId).filter (· ∈ ids)).Perm ids := by
    refine (List.perm_ext_iff_of_nodup (hrows.filter _)
      (nodup_claimedPairs hcontents hrows)).mpr fun id => ?_
    rw [List.mem_filter, decide_eq_true_eq]
    refine ⟨fun h => h.2, fun h => ⟨?_, h⟩⟩
    obtain ⟨pair, hpair, rfl⟩ := List.mem_map.mp h
    exact List.mem_map_of_mem (mem_claimedPairs hpair).1
  have hcount := hperm.length_eq
  rw [List.filter_map, List.length_map, ← List.countP_eq_length_filter] at hcount
  rw [claimJobs, List.length_map, ← List.length_map (f := fun pair => pair.1.ownerId), ← hids,
    ← hcount]
  rfl

theorem ownerIds_claimed (ids : List Nat) (rows : List (EmbeddingRow V)) :
    (rows.map (EmbeddingRow.claimed ids)).map EmbeddingRow.ownerId
      = rows.map EmbeddingRow.ownerId := by
  rw [List.map_map]
  refine List.map_congr_left fun row _ => ?_
  simp only [Function.comp_apply, EmbeddingRow.claimed]
  split
  · rfl
  · rfl

/-- A claim takes one attempt from the budget for each job. -/
theorem budget_claimed (hcontents : (contents.map ContentRow.id).Nodup)
    (hrows : (rows.map EmbeddingRow.ownerId).Nodup) :
    budget model maxRetries contents
        (claimJobs locked limit maxRetries model contents rows).2
      + (claimJobs locked limit maxRetries model contents rows).1.length
      ≤ budget model maxRetries contents rows := by
  have hpending := fun row (hrow : row ∈ rows) =>
    @pending_of_claimed V model maxRetries limit locked contents rows hrows row hrow
  rw [length_claimJobs hcontents hrows, claimJobs]
  set ids := (claimedPairs locked limit maxRetries model contents rows).map
    fun pair => pair.1.ownerId
  clear_value ids
  clear hrows
  induction rows with
  | nil => exact Nat.le_refl _
  | cons row rest ih =>
      have hrest := ih fun other hother => hpending other (List.mem_cons_of_mem _ hother)
      have hcons : ∀ (first : EmbeddingRow V) (more : List (EmbeddingRow V)),
          budget model maxRetries contents (first :: more)
            = attemptsLeft model maxRetries contents first
              + budget model maxRetries contents more := fun _ _ => List.sum_cons
      have hrow : attemptsLeft model maxRetries contents (row.claimed ids)
          + (if row.ownerId ∈ ids then 1 else 0) ≤ attemptsLeft model maxRetries contents row := by
        by_cases hid : row.ownerId ∈ ids
        · obtain ⟨hrow, hleft⟩ := hpending row List.mem_cons_self hid
          have hsame : isPending model contents (row.claimed ids) = true := by
            rw [EmbeddingRow.claimed, if_pos hid]
            exact hrow
          rw [attemptsLeft, attemptsLeft, if_pos hsame, if_pos hrow, if_pos hid,
            EmbeddingRow.claimed, if_pos hid]
          show maxRetries - (row.attemptCount + 1) + 1 ≤ maxRetries - row.attemptCount
          omega
        · rw [EmbeddingRow.claimed, if_neg hid, if_neg hid]
          omega
      simp only [List.map_cons, hcons, List.countP_cons, decide_eq_true_eq] at hrest ⊢
      omega

theorem spends_claimJobs (hcontents : (contents.map ContentRow.id).Nodup)
    (hrows : (rows.map EmbeddingRow.ownerId).Nodup) :
    Spends model maxRetries contents rows
      (claimJobs locked limit maxRetries model contents rows).2 := by
  have hclaimed := @budget_claimed V model maxRetries limit locked contents rows hcontents hrows
  exact ⟨ownerIds_claimed _ rows, by omega⟩

theorem mem_jobsOf {ids : List Nat} {job : EmbeddingJob} (h : job ∈ jobsOf contents ids) :
    ∃ content ∈ contents, job = .of content := by
  obtain ⟨content, hcontent, rfl⟩ := List.mem_map.mp h
  exact ⟨content, List.mem_of_mem_filter hcontent, rfl⟩

/-- What other workers do costs attempts, if anything. -/
theorem spends_workers (rules : SaveRules V) (settings : EmbeddingSettings)
    (hcontents : (contents.map ContentRow.id).Nodup) (ops : List (WorkerOp V))
    (hrows : (rows.map EmbeddingRow.ownerId).Nodup) :
    Spends settings.storageModel settings.maxRetries contents rows
      (ops.foldl (workerStep rules settings contents) rows) := by
  induction ops generalizing rows with
  | nil => exact spends_refl rows
  | cons op ops ih =>
      have hop : Spends settings.storageModel settings.maxRetries contents rows
          (workerStep rules settings contents rows op) := by
        cases op with
        | claim locked limit => exact spends_claimJobs hcontents hrows
        | save ids vectors =>
            unfold workerStep
            dsimp only
            split
            · rename_i rows' hok
              exact spends_saveVectors hcontents (fun job hjob => mem_jobsOf hjob) hok
            · exact spends_refl rows
        | fail ids error => exact spends_markFailed _ _ rows
      exact spends_trans hop (ih (by rw [hop.keys]; exact hrows))

/-! ## The loop ends -/

/-- The rows are those of the same FAQs, and what was claimed was paid for. -/
structure Paid (model : String) (maxRetries : Nat) (contents : List ContentRow)
    (p p' : EmbeddingProgress V) : Prop where
  keys : p'.rows.map EmbeddingRow.ownerId = p.rows.map EmbeddingRow.ownerId
  jobs : p'.claimed + budget model maxRetries contents p'.rows
    ≤ p.claimed + budget model maxRetries contents p.rows

theorem paid_trans {p p' p'' : EmbeddingProgress V} (h : Paid model maxRetries contents p p')
    (h' : Paid model maxRetries contents p' p'') : Paid model maxRetries contents p p'' :=
  ⟨h'.keys.trans h.keys, h'.jobs.trans h.jobs⟩

/-- Every claimed job is counted, as succeeded or as failed. -/
structure BatchesCounted (p : EmbeddingProgress V) : Prop where
  processed : p.metrics.processed = p.claimed
  outcomes : p.metrics.processed = p.metrics.succeeded + p.metrics.failed

/-- The database fails with `error` outside the `try`: at the claim, or when the failure of a
batch is recorded. -/
def RoundFails (rules : SaveRules V) (settings : EmbeddingSettings) (fate : BatchFate V)
    (error : String) : Prop :=
  fate.claimError = some error
    ∨ ∃ jobs rows rows' failure, tryBatch rules settings fate jobs rows = (some failure, rows')
        ∧ recordFailure fate jobs failure rows' = .error error

section

variable (rules : SaveRules V) (settings : EmbeddingSettings) (fate : BatchFate V)

/-- What becomes of a batch whose jobs the progress has counted as claimed. -/
theorem finishBatch_cases (hcontents : (contents.map ContentRow.id).Nodup)
    (hjobs : ∀ job ∈ jobs, ∃ content ∈ contents, job = .of content) (p : EmbeddingProgress V) :
    ∃ ended rows, Spends settings.storageModel settings.maxRetries contents p.rows rows
      ∧ ((∃ succeeded, finishBatch rules settings fate jobs p
            = (.goesOn, { p with rows := rows, metrics := p.metrics.add jobs.length succeeded }))
        ∨ finishBatch rules settings fate jobs p = (.raises ended, { p with rows := rows })
          ∧ RoundFails rules settings fate ended) := by
  have hspends : Spends settings.storageModel settings.maxRetries contents p.rows
      (tryBatch rules settings fate jobs p.rows).2 :=
    spends_tryBatch rules settings fate hcontents hjobs p.rows
  unfold finishBatch
  rcases htry : tryBatch rules settings fate jobs p.rows with ⟨error | error, rows⟩
  · rw [htry] at hspends
    exact ⟨"", rows, hspends, Or.inl ⟨true, rfl⟩⟩
  · rw [htry] at hspends
    dsimp only
    cases hrecord : recordFailure fate jobs error rows with
    | error markError =>
        exact ⟨markError, rows, hspends, Or.inr ⟨rfl, Or.inr ⟨jobs, p.rows, rows, error, htry,
          hrecord⟩⟩⟩
    | ok rows' =>
        have hmarked : rows' = markFailed jobs error rows := by
          unfold recordFailure at hrecord
          split at hrecord
          · cases hrecord
          · exact (Except.ok.inj (Py.ite_error_eq_ok.mp hrecord).2).symm
        subst hmarked
        exact ⟨"", _, spends_trans hspends (spends_markFailed jobs error rows),
          Or.inl ⟨false, rfl⟩⟩

/-- A batch that is not empty, once its jobs are counted as claimed: all of them are counted as
succeeded or as failed, or the database fails. -/
theorem finishBatch_counts (hcontents : (contents.map ContentRow.id).Nodup)
    (hjobs : ∀ job ∈ jobs, ∃ content ∈ contents, job = .of content)
    (p : EmbeddingProgress V) (rows : List (EmbeddingRow V)) :
    ∃ ended p', finishBatch rules settings fate jobs
          { p with rows := rows, rounds := p.rounds + 1, claimed := p.claimed + jobs.length }
        = (ended, p')
      ∧ Spends settings.storageModel settings.maxRetries contents rows p'.rows
      ∧ p'.claimed = p.claimed + jobs.length
      ∧ ((ended = .goesOn ∧ (BatchesCounted p → BatchesCounted p'))
        ∨ ∃ error, ended = .raises error ∧ RoundFails rules settings fate error) := by
  obtain ⟨error, rows', hspends, ⟨succeeded, hfinish⟩ | ⟨hfinish, hfails⟩⟩ :=
    finishBatch_cases rules settings fate hcontents hjobs
      { p with rows := rows, rounds := p.rounds + 1, claimed := p.claimed + jobs.length }
  · rw [hfinish]
    refine ⟨_, _, rfl, hspends, rfl, Or.inl ⟨rfl, fun h => ⟨?_, ?_⟩⟩⟩
    · exact congrArg (· + jobs.length) h.processed
    · have houtcomes := h.outcomes
      unfold EmbeddingMetrics.add
      cases succeeded
      · simp only [Bool.false_eq_true, if_false]
        omega
      · simp only [if_true]
        omega
  · rw [hfinish]
    exact ⟨_, _, rfl, hspends, rfl, Or.inr ⟨error, rfl, hfails⟩⟩

/-- What a round does: it claims jobs and counts them, finds none, or the database fails. -/
theorem embedRound_cases {settings : EmbeddingSettings} (hbatch : 0 < settings.batchSize)
    (hcontents : (contents.map ContentRow.id).Nodup) (p : EmbeddingProgress V)
    (hrows : (p.rows.map EmbeddingRow.ownerId).Nodup) :
    ∃ ended p', embedRound rules settings none contents fate p = (ended, p')
      ∧ Paid settings.storageModel settings.maxRetries contents p p'
      ∧ ((ended = .goesOn ∧ p.claimed < p'.claimed ∧ (BatchesCounted p → BatchesCounted p'))
        ∨ (ended = .noJobs ∧ p'.rounds = p.rounds ∧ (BatchesCounted p → BatchesCounted p')
          ∧ ∀ row ∈ p'.rows, isPending settings.storageModel contents row = true →
              settings.maxRetries ≤ row.attemptCount ∨ fate.locked row.ownerId = true)
        ∨ ∃ error, ended = .raises error ∧ RoundFails rules settings fate error) := by
  have hfound := spends_workers rules settings hcontents fate.before hrows
  unfold embedRound
  dsimp only [nextBatchSize]
  generalize fate.before.foldl (workerStep rules settings contents) p.rows = found at hfound ⊢
  have hfoundRows : (found.map EmbeddingRow.ownerId).Nodup := by rw [hfound.keys]; exact hrows
  have hnoClaim := Nat.add_le_add_left hfound.budget_le p.claimed
  cases hclaimError : fate.claimError with
  | some error =>
      exact ⟨_, _, rfl, ⟨hfound.keys, hnoClaim⟩,
        Or.inr (Or.inr ⟨error, rfl, Or.inl hclaimError⟩)⟩
  | none =>
      dsimp only
      by_cases hempty : (claimJobs fate.locked settings.batchSize settings.maxRetries
          settings.storageModel contents found).1.isEmpty = true
      · rw [if_pos hempty]
        exact ⟨_, _, rfl, ⟨hfound.keys, hnoClaim⟩,
          Or.inr (Or.inl ⟨rfl, rfl, fun h => ⟨h.processed, h.outcomes⟩,
            exhausted_of_isEmpty hbatch hempty⟩)⟩
      · rw [if_neg hempty]
        have hclaimed := @budget_claimed V settings.storageModel settings.maxRetries
          settings.batchSize fate.locked contents found hcontents hfoundRows
        have hkeys : (claimJobs fate.locked settings.batchSize settings.maxRetries
            settings.storageModel contents found).2.map EmbeddingRow.ownerId
              = found.map EmbeddingRow.ownerId := ownerIds_claimed _ found
        have hjobs : ∀ job ∈ (claimJobs fate.locked settings.batchSize settings.maxRetries
            settings.storageModel contents found).1, ∃ content ∈ contents, job = .of content :=
          fun job hjob => mem_claimJobs hjob
        generalize claimJobs fate.locked settings.batchSize settings.maxRetries
          settings.storageModel contents found = claim at hempty hclaimed hkeys hjobs ⊢
        have hsome : claim.1.length ≠ 0 := by
          intro hzero
          exact hempty (List.isEmpty_iff.mpr (List.length_eq_zero_iff.mp hzero))
        have hclaimRows : (claim.2.map EmbeddingRow.ownerId).Nodup := by
          rw [hkeys]
          exact hfoundRows
        have hmeanwhile := spends_workers rules settings hcontents fate.meanwhile hclaimRows
        obtain ⟨ended, p', hfinish, hspends, hjobsClaimed, hends⟩ :=
          finishBatch_counts rules settings fate hcontents hjobs p
            (fate.meanwhile.foldl (workerStep rules settings contents) claim.2)
        have hpaid : Paid settings.storageModel settings.maxRetries contents p p' := by
          have hfoundLe := hfound.budget_le
          have hmeanwhileLe := hmeanwhile.budget_le
          have hspendsLe := hspends.budget_le
          refine ⟨hspends.keys.trans (hmeanwhile.keys.trans (hkeys.trans hfound.keys)), ?_⟩
          omega
        refine ⟨ended, p', hfinish, hpaid, ?_⟩
        rcases hends with ⟨rfl, hcounts⟩ | hfails
        · exact Or.inl ⟨rfl, by omega, hcounts⟩
        · exact Or.inr (Or.inr hfails)

end

/-- With no limit, the budget bounds the jobs of the loop, and with them its rounds. -/
theorem embedLoop_ends (rules : SaveRules V) {settings : EmbeddingSettings}
    (hbatch : 0 < settings.batchSize) (fates : Nat → BatchFate V)
    (hcontents : (contents.map ContentRow.id).Nodup) {fuel : Nat} (p : EmbeddingProgress V)
    (hrows : (p.rows.map EmbeddingRow.ownerId).Nodup) (hcounted : BatchesCounted p)
    (hfuel : budget settings.storageModel settings.maxRetries contents p.rows < fuel) :
    ∃ ended p', embedLoop rules settings none fates contents fuel p = some (ended, p')
      ∧ Paid settings.storageModel settings.maxRetries contents p p'
      ∧ ((ended = none ∧ BatchesCounted p'
          ∧ ∀ row ∈ p'.rows, isPending settings.storageModel contents row = true →
              settings.maxRetries ≤ row.attemptCount
                ∨ (fates p'.rounds).locked row.ownerId = true)
        ∨ ∃ error i, ended = some error ∧ RoundFails rules settings (fates i) error) := by
  induction fuel generalizing p with
  | zero => omega
  | succ fuel ih =>
      obtain ⟨ended, p', hround, hpaid, hends⟩ := embedRound_cases rules (fates p.rounds) hbatch
        hcontents p hrows
      have hloop : embedLoop rules settings none fates contents (fuel + 1) p
          = match embedRound rules settings none contents (fates p.rounds) p with
            | (.goesOn, p') => embedLoop rules settings none fates contents fuel p'
            | (.noJobs, p') => some (none, p')
            | (.raises error, p') => some (some error, p') := rfl
      rw [hloop, hround]
      rcases hends with ⟨rfl, hmore, hkeeps⟩ | ⟨rfl, hrounds, hkeeps, hexhausted⟩ |
        ⟨error, rfl, hfails⟩
      · have hjobs := hpaid.jobs
        obtain ⟨ended, q, heq, hpaid', hq⟩ := ih p' (by rw [hpaid.keys]; exact hrows)
          (hkeeps hcounted) (by omega)
        exact ⟨ended, q, heq, paid_trans hpaid hpaid', hq⟩
      · rw [← hrounds] at hexhausted
        exact ⟨none, p', rfl, hpaid, Or.inl ⟨rfl, hkeeps hcounted, hexhausted⟩⟩
      · exact ⟨some error, p', rfl, hpaid, Or.inr ⟨error, p.rounds, rfl, hfails⟩⟩

theorem exhausted_of_not_hasPendingJobs
    (h : hasPendingJobs maxRetries model contents rows = false) :
    ∀ row ∈ rows, isPending model contents row = true → maxRetries ≤ row.attemptCount := by
  intro row hrow hpending
  by_contra hleft
  obtain ⟨content, hcontent, hid, hlive, hneeds⟩ := isPending_iff.mp hpending
  have hany : hasPendingJobs maxRetries model contents rows = true := by
    refine List.any_eq_true.mpr ⟨row, hrow, List.any_eq_true.mpr ⟨content, hcontent, ?_⟩⟩
    simp only [hid, decide_true, Bool.true_and, selects, hlive, hneeds, Bool.and_true,
      decide_eq_true_eq]
    omega
  rw [h] at hany
  cases hany

theorem resetFailed_keys (rules : SaveRules V) (maxRetries : Nat) (rows : List (EmbeddingRow V)) :
    (resetFailed rules maxRetries rows).map EmbeddingRow.ownerId
      = rows.map EmbeddingRow.ownerId := by
  rw [resetFailed, List.map_map]
  refine List.map_congr_left fun row _ => ?_
  simp only [Function.comp_apply]
  split
  · rfl
  · rfl

/-- The retry option gives rows their attempts back; which rows are pending stays the same. -/
theorem countP_resetFailed (rules : SaveRules V) (maxRetries : Nat)
    (rows : List (EmbeddingRow V)) :
    (resetFailed rules maxRetries rows).countP (isPending model contents)
      = rows.countP (isPending model contents) := by
  rw [resetFailed, List.countP_map]
  refine List.countP_congr fun row _ => ?_
  simp only [Function.comp_apply]
  split
  · exact Iff.rfl
  · exact Iff.rfl

end

/-- Something fails before the loop, or there is no encoder of the database's dimension. -/
def StartFails (settings : EmbeddingSettings) (start : StartFate) : Prop :=
  start.resetError.isSome = true ∨ start.pendingError.isSome = true
    ∨ start.encoder ≠ .ok settings.databaseDimension

theorem resetRows_cases (rules : SaveRules V) (settings : EmbeddingSettings) (retryFailed : Bool)
    (start : StartFate) (contents : List ContentRow) (rows : List (EmbeddingRow V)) :
    ∃ raised rows', resetRows rules settings retryFailed start rows = (raised, rows')
      ∧ rows'.map EmbeddingRow.ownerId = rows.map EmbeddingRow.ownerId
      ∧ rows'.countP (isPending settings.storageModel contents)
        = rows.countP (isPending settings.storageModel contents)
      ∧ ∀ error, raised = some error → StartFails settings start := by
  have hkeys := resetFailed_keys rules settings.maxRetries rows
  have hcount := @countP_resetFailed V settings.storageModel contents rules settings.maxRetries rows
  unfold resetRows
  split
  · dsimp only
    split
    · exact ⟨_, _, rfl, hkeys, hcount, nofun⟩
    · rename_i error committed hreset
      refine ⟨_, _, rfl, ?_, ?_, fun _ _ => Or.inl (by rw [hreset]; rfl)⟩
      · cases committed
        · rfl
        · exact hkeys
      · cases committed
        · rfl
        · exact hcount
  · exact ⟨_, _, rfl, rfl, rfl, nofun⟩

/-- Whatever the encoder, the database and the other workers do, the run without a limit comes
to an end: the attempts that the pending rows have pay for every job that it claims. When it
returns, a row that is still pending has used its attempts or was locked at the last claim. It
raises only where something fails before the loop, at a claim, or when the failure of a batch
is recorded. -/
theorem faq_embedding_terminates (rules : SaveRules V) (settings : EmbeddingSettings)
    (hbatch : 0 < settings.batchSize) (retryFailed : Bool) (start : StartFate)
    (fates : Nat → BatchFate V) (table : FaqEmbeddings V) (fuel : Nat)
    (hfuel : table.rows.countP (isPending settings.storageModel table.contents)
      * settings.maxRetries < fuel) :
    ∃ result p, embedPendingFaqs rules settings retryFailed none start fates table fuel
        = some (result, p)
      ∧ p.rows.map EmbeddingRow.ownerId = table.rows.map EmbeddingRow.ownerId
      ∧ p.claimed ≤ table.rows.countP (isPending settings.storageModel table.contents)
          * settings.maxRetries
      ∧ ((∃ metrics, result = .ok metrics ∧ metrics.processed = p.claimed
            ∧ metrics.processed = metrics.succeeded + metrics.failed
            ∧ ∀ row ∈ p.rows, isPending settings.storageModel table.contents row = true →
                settings.maxRetries ≤ row.attemptCount
                  ∨ (fates p.rounds).locked row.ownerId = true)
        ∨ ∃ error, result = .error error
            ∧ (StartFails settings start ∨ ∃ i, RoundFails rules settings (fates i) error)) := by
  obtain ⟨raised, rows, hreset, hkeys, hcount, hraised⟩ :=
    resetRows_cases rules settings retryFailed start table.contents table.rows
  have hbudget := @budget_le V settings.storageModel settings.maxRetries table.contents rows
  rw [hcount] at hbudget
  unfold embedPendingFaqs
  rw [hreset]
  cases raised with
  | some error =>
      exact ⟨_, _, rfl, hkeys, Nat.zero_le _, Or.inr ⟨error, rfl, Or.inl (hraised error rfl)⟩⟩
  | none =>
      dsimp only
      cases hpendingError : start.pendingError with
      | some error =>
          exact ⟨_, _, rfl, hkeys, Nat.zero_le _,
            Or.inr ⟨error, rfl, Or.inl (Or.inr (Or.inl (by rw [hpendingError]; rfl)))⟩⟩
      | none =>
          dsimp only
          by_cases hpending :
              hasPendingJobs settings.maxRetries settings.storageModel table.contents rows
          · rw [if_neg (by simp [hpending])]
            cases hencoder : start.encoder with
            | error error =>
                exact ⟨_, _, rfl, hkeys, Nat.zero_le _, Or.inr ⟨error, rfl,
                  Or.inl (Or.inr (Or.inr (by rw [hencoder]; nofun)))⟩⟩
            | ok dimension =>
                dsimp only
                by_cases hdimension : dimension = settings.databaseDimension
                · rw [if_neg (not_not.mpr hdimension)]
                  obtain ⟨ended, p, heq, hpaid, hends⟩ := embedLoop_ends rules hbatch fates
                    table.contents_nodup { rows := rows } (hkeys ▸ table.rows_nodup) ⟨rfl, rfl⟩
                    (hbudget.trans_lt hfuel)
                  have hjobs := hpaid.jobs
                  rw [heq]
                  refine ⟨_, _, rfl, hpaid.keys.trans hkeys, by dsimp only at hjobs ⊢; omega, ?_⟩
                  rcases hends with ⟨rfl, hcounted, hexhausted⟩ | ⟨error, i, rfl, hfails⟩
                  · exact Or.inl ⟨_, rfl, hcounted.processed, hcounted.outcomes, hexhausted⟩
                  · exact Or.inr ⟨error, rfl, Or.inr ⟨i, hfails⟩⟩
                · rw [if_pos hdimension]
                  refine ⟨_, _, rfl, hkeys, Nat.zero_le _,
                    Or.inr ⟨_, rfl, Or.inl (Or.inr (Or.inr ?_))⟩⟩
                  rw [hencoder]
                  exact fun h => hdimension (Except.ok.inj h)
          · rw [Bool.not_eq_true] at hpending
            rw [if_pos (by simp [hpending])]
            exact ⟨_, _, rfl, hkeys, Nat.zero_le _, Or.inl ⟨{}, rfl, rfl, rfl,
              fun row hrow h => Or.inl (exhausted_of_not_hasPendingJobs hpending row hrow h)⟩⟩

/-- Two FAQs without vectors. -/
def twoFaqs : FaqEmbeddings (List Nat) where
  contents := [{ id := 1, version := 1, contentHash := "a", live := true, text := "A" },
    { id := 2, version := 3, contentHash := "b", live := true, text := "B" }]
  rows := [{ ownerId := 1, embeddingModel := "bge-m3", contentHash := "a", version := 1 },
    { ownerId := 2, embeddingModel := "bge-m3", contentHash := "old", version := 2 }]
  contents_nodup := by decide
  rows_nodup := by decide

/-- The encoder cannot encode the text of the second one, of which another worker fails as
well. -/
def halfEncoder (round : Nat) : BatchFate (List Nat) where
  encode := fun _ texts => if texts = ["A"] then .ok [[0]] else .error "RemoteEmbeddingError: "
  meanwhile := if round = 0 then [.claim (fun id => id = 1) 1, .fail [2] "TimeoutError: "] else []

def oneByOne : EmbeddingSettings where
  batchSize := 1
  maxRetries := 2
  storageModel := "bge-m3"
  databaseDimension := 1

theorem faq_embedding_terminates_failing :
    ∃ result p, embedPendingFaqs (faqKind id List.length).toSaveRules oneByOne false none
          { encoder := .ok 1 } halfEncoder twoFaqs 5 = some (result, p)
      ∧ p.rows.map EmbeddingRow.ownerId = [1, 2] ∧ p.claimed ≤ 4
      ∧ ((∃ metrics, result = .ok metrics ∧ metrics.processed = p.claimed
            ∧ metrics.processed = metrics.succeeded + metrics.failed
            ∧ ∀ row ∈ p.rows, isPending "bge-m3" twoFaqs.contents row = true →
                2 ≤ row.attemptCount ∨ (halfEncoder p.rounds).locked row.ownerId = true)
        ∨ ∃ error, result = .error error ∧ (StartFails oneByOne { encoder := .ok 1 }
            ∨ ∃ i, RoundFails (faqKind id List.length).toSaveRules oneByOne (halfEncoder i)
                error)) :=
  faq_embedding_terminates (faqKind id List.length).toSaveRules oneByOne (by decide) false
    { encoder := .ok 1 } halfEncoder twoFaqs 5 (by decide)

/-- A row that another worker holds locked all the time is left pending, with all its attempts. -/
theorem locked_row_left_pending :
    ¬ ∀ (settings : EmbeddingSettings) (retryFailed : Bool) (fates : Nat → BatchFate (List Nat))
        (table : FaqEmbeddings (List Nat)), 0 < settings.batchSize →
        ∃ fuel metrics p, embedPendingFaqs (faqKind id List.length).toSaveRules settings
            retryFailed none { encoder := .ok settings.databaseDimension } fates table fuel
              = some (.ok metrics, p)
          ∧ metrics.processed ≤ table.rows.countP (isPending settings.storageModel table.contents)
              * settings.maxRetries
          ∧ metrics.processed = metrics.succeeded + metrics.failed
          ∧ ∀ row ∈ p.rows, isPending settings.storageModel table.contents row = true →
              settings.maxRetries ≤ row.attemptCount := by
  intro h
  obtain ⟨fuel, metrics, p, hrun, -, -, hexhausted⟩ := h oneByOne false
    (fun _ => { encode := fun _ _ => .ok [[0]], locked := fun id => id = 2 }) twoFaqs (by decide)
  match fuel, hrun with
  | 0, hrun => cases hrun
  | 1, hrun => cases hrun
  | _ + 2, hrun =>
      obtain ⟨-, rfl⟩ := Prod.mk.inj (Option.some.inj hrun)
      revert hexhausted
      decide

example : (embedPendingFaqs (faqKind id List.length).toSaveRules oneByOne false none
    { encoder := .ok 1 } halfEncoder twoFaqs 5).map
      (fun result => (result.1.toOption, result.2.rows.map fun row => row.attemptCount))
      = some (some ⟨2, 1, 1⟩, [0, 2]) := by
  decide

end Aegora
