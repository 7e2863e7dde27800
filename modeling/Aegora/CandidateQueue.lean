import Aegora.MemoryLifecycle
import Aegora.Handlers

/-!
# The queue of candidates

`memory_candidates` keeps one row for a user, a message, a namespace, a key
and an operation. A candidate that meets its row gets the id of the row and
leaves the row as it is; the decision about it is written over whatever
decision the row had. `memory_extraction_messages` notes which messages are
done.
-/

namespace Aegora

open Py Handlers

/-! ## Tables -/

inductive CandidateStatus where
  | pending
  | decided (status : DecisionStatus)
deriving DecidableEq

/-- The unique index `uq_memory_candidates_source_identity`, with the trace as
`COALESCE(source_trace_id, '')`. -/
structure CandidateIdentity where
  tenantId : String
  subjectUserId : String
  sourceTraceId : String
  nameSpace : String
  memoryKey : String
  operation : CandidateOperation
deriving DecidableEq

/-- A row of `memory_candidates`. -/
structure CandidateRow where
  id : ℕ
  tenantId : String
  subjectUserId : String
  nameSpace : String
  proposedScope : String
  agentId : Option String
  operation : CandidateOperation
  memoryType : MemoryType
  memoryKey : String
  content : Option String
  evidenceType : EvidenceType
  updateIntent : Bool
  sourceAgentId : Option String
  sourceSessionId : Option String
  sourceTraceId : Option String
  confidence : ℚ
  importance : ℚ
  ttlDays : Option ℕ
  rationale : Option String
  status : CandidateStatus
  decisionReason : Option String
  appliedMemoryId : Option Int
deriving DecidableEq

def CandidateRow.identity (row : CandidateRow) : CandidateIdentity where
  tenantId := row.tenantId
  subjectUserId := row.subjectUserId
  sourceTraceId := row.sourceTraceId.getD ""
  nameSpace := row.nameSpace
  memoryKey := row.memoryKey
  operation := row.operation

/-- The identity under which a candidate is queued. -/
def queuedIdentity (scope : MemoryScope) (candidate : MemoryCandidate) : CandidateIdentity where
  tenantId := scope.tenant
  subjectUserId := scope.userId
  sourceTraceId := candidate.sourceTraceId.getD ""
  nameSpace := candidate.nameSpace
  memoryKey := candidate.key
  operation := candidate.operation

inductive ExtractionStatus where
  | completed
  | failed
deriving DecidableEq

/-- A row of `memory_extraction_messages`. -/
structure ExtractionRow where
  traceId : String
  userId : String
  sessionId : Option String
  agentId : Option String
  status : ExtractionStatus
  candidateCount : ℕ
  attemptCount : ℕ
  model : String
  error : Option String
deriving DecidableEq

/-- The tables that an extraction reads and writes. -/
structure ExtractionDb where
  memories : MemoryTables
  candidates : List CandidateRow := []
  nextCandidateId : ℕ := 1
  messages : List ExtractionRow := []

def ExtractionDb.candidate (db : ExtractionDb) (identity : CandidateIdentity) :
    Option CandidateRow :=
  db.candidates.find? (·.identity = identity)

/-! ## Statements -/

/-- The row that `enqueue` inserts. -/
def queuedRow (floats : FloatEnv) (scope : MemoryScope) (candidate : MemoryCandidate)
    (proposedScope : String) (id : ℕ) : CandidateRow where
  id := id
  tenantId := scope.tenant
  subjectUserId := scope.userId
  nameSpace := candidate.nameSpace
  proposedScope := proposedScope
  agentId := if proposedScope = "user_agent" then scope.agentId else none
  operation := candidate.operation
  memoryType := candidate.memoryType
  memoryKey := candidate.key
  content := candidate.value
  evidenceType := candidate.evidenceType
  updateIntent := candidate.updateIntent
  sourceAgentId := (nonEmpty candidate.sourceAgentId).or scope.agentId
  sourceSessionId := (nonEmpty candidate.sourceSessionId).or scope.sessionId
  sourceTraceId := candidate.sourceTraceId
  confidence := floats.real candidate.confidence
  importance := floats.real candidate.importance
  ttlDays := candidate.ttlDays
  rationale := candidate.rationale
  status := .pending
  decisionReason := none
  appliedMemoryId := none

/-- `INSERT … ON CONFLICT DO NOTHING`; a conflict uses up an id all the same. -/
def ExtractionDb.insertCandidate (floats : FloatEnv) (scope : MemoryScope)
    (candidate : MemoryCandidate) (proposedScope : String) (db : ExtractionDb) : ExtractionDb :=
  match db.candidate (queuedIdentity scope candidate) with
  | some _ => { db with nextCandidateId := db.nextCandidateId + 1 }
  | none =>
      { db with
        candidates := db.candidates
          ++ [queuedRow floats scope candidate proposedScope db.nextCandidateId]
        nextCandidateId := db.nextCandidateId + 1 }

/-- The id that `enqueue` returns. -/
def ExtractionDb.queuedId (scope : MemoryScope) (candidate : MemoryCandidate)
    (db : ExtractionDb) : ℕ :=
  ((db.candidate (queuedIdentity scope candidate)).map CandidateRow.id).getD db.nextCandidateId

/-- The decision as it is written over a row. -/
def CandidateRow.withDecision (decision : MemoryCandidateDecision) (row : CandidateRow) :
    CandidateRow :=
  { row with
    status := .decided decision.status
    decisionReason := some decision.reason
    appliedMemoryId := decision.item.bind fun item => intOfText item.memoryId }

/-- `UPDATE memory_candidates … WHERE id = %s`. -/
def ExtractionDb.decideCandidate (id : Int) (decision : MemoryCandidateDecision)
    (db : ExtractionDb) : ExtractionDb :=
  { db with
    candidates := db.candidates.map fun row =>
      if (row.id : Int) = id then row.withDecision decision else row }

/-- `INSERT INTO memory_extraction_messages … ON CONFLICT (trace_id) DO UPDATE`,
which keeps the user, the session and the agent of the row. -/
def ExtractionDb.recordMessage (row : ExtractionRow) (db : ExtractionDb) : ExtractionDb :=
  if db.messages.any (·.traceId = row.traceId) then
    { db with
      messages := db.messages.map fun old =>
        if old.traceId = row.traceId then
          { old with
            status := row.status
            candidateCount := row.candidateCount
            attemptCount := old.attemptCount + 1
            model := row.model
            error := row.error }
        else old }
  else { db with messages := db.messages ++ [row] }

/-- `extraction_is_completed`. -/
def ExtractionDb.isCompleted (traceId : String) (db : ExtractionDb) : Bool :=
  db.messages.any fun row => row.traceId = traceId && row.status = .completed

/-! ## What the schema keeps -/

/-- Tables within the constraints of the schema. -/
structure ExtractionDb.Constrained (db : ExtractionDb) : Prop where
  memories : Aegora.Constrained db.memories
  ids : (db.candidates.map CandidateRow.id).Nodup
  identities : (db.candidates.map CandidateRow.identity).Nodup
  fresh : ∀ row ∈ db.candidates, row.id < db.nextCandidateId

section Queue

variable {db : ExtractionDb} {floats : FloatEnv} {scope : MemoryScope}
  {candidate : MemoryCandidate} {proposedScope : String}

theorem ExtractionDb.candidate_some {identity : CandidateIdentity} {row : CandidateRow}
    (h : db.candidate identity = some row) : row ∈ db.candidates ∧ row.identity = identity :=
  ⟨List.mem_of_find?_eq_some h, by simpa using List.find?_some h⟩

theorem ExtractionDb.candidate_none {identity : CandidateIdentity}
    (h : db.candidate identity = none) : ∀ row ∈ db.candidates, row.identity ≠ identity :=
  fun row hrow => of_decide_eq_false (by simpa using List.find?_eq_none.mp h row hrow)

/-- An insert leaves every row as it is. -/
theorem mem_insertCandidate {row : CandidateRow} (h : row ∈ db.candidates) :
    row ∈ (db.insertCandidate floats scope candidate proposedScope).candidates := by
  unfold ExtractionDb.insertCandidate
  split
  · exact h
  · exact List.mem_append_left _ h

theorem insertCandidate_cases {row : CandidateRow}
    (h : row ∈ (db.insertCandidate floats scope candidate proposedScope).candidates) :
    row ∈ db.candidates
      ∨ row = queuedRow floats scope candidate proposedScope db.nextCandidateId := by
  unfold ExtractionDb.insertCandidate at h
  split at h
  · exact Or.inl h
  · exact (List.mem_append.mp h).imp_right List.mem_singleton.mp

/-- The row of the id that a candidate gets is the row of its identity. -/
theorem queuedId_identity (hdb : db.Constrained) {row : CandidateRow} (hrow : row ∈ db.candidates)
    (hid : row.id = db.queuedId scope candidate) :
    row.identity = queuedIdentity scope candidate := by
  unfold ExtractionDb.queuedId at hid
  cases hqueued : db.candidate (queuedIdentity scope candidate) with
  | some queued =>
      obtain ⟨hmem, hidentity⟩ := ExtractionDb.candidate_some hqueued
      rw [hqueued] at hid
      rw [List.inj_on_of_nodup_map hdb.ids hrow hmem hid]
      exact hidentity
  | none =>
      rw [hqueued] at hid
      exact absurd hid (Nat.ne_of_lt (hdb.fresh row hrow))

theorem insertCandidate_constrained (hdb : db.Constrained) :
    (db.insertCandidate floats scope candidate proposedScope).Constrained := by
  unfold ExtractionDb.insertCandidate
  split
  · exact { hdb with fresh := fun row hrow => Nat.lt_succ_of_lt (hdb.fresh row hrow) }
  · rename_i hnone
    refine { memories := hdb.memories, ids := ?_, identities := ?_, fresh := ?_ }
    · rw [List.map_append, List.nodup_append]
      refine ⟨hdb.ids, List.nodup_singleton _, ?_⟩
      rintro a ha b hb rfl
      obtain ⟨row, hrow, rfl⟩ := List.mem_map.mp ha
      have hlt := hdb.fresh row hrow
      rw [List.mem_singleton.mp hb] at hlt
      exact Nat.lt_irrefl _ hlt
    · rw [List.map_append, List.nodup_append]
      refine ⟨hdb.identities, List.nodup_singleton _, ?_⟩
      rintro a ha b hb rfl
      obtain ⟨row, hrow, hidentity⟩ := List.mem_map.mp ha
      exact ExtractionDb.candidate_none hnone row hrow
        (hidentity.trans (List.mem_singleton.mp hb))
    · intro row hrow
      rcases List.mem_append.mp hrow with hrow | hrow
      · exact Nat.lt_succ_of_lt (hdb.fresh row hrow)
      · rw [List.mem_singleton.mp hrow]
        exact Nat.lt_succ_self _

theorem decideCandidate_constrained (hdb : db.Constrained) (id : Int)
    (decision : MemoryCandidateDecision) : (db.decideCandidate id decision).Constrained := by
  have hid : ∀ row : CandidateRow,
      (if (row.id : Int) = id then row.withDecision decision else row).id = row.id := fun row => by
    split <;> rfl
  have hidentity : ∀ row : CandidateRow,
      (if (row.id : Int) = id then row.withDecision decision else row).identity = row.identity :=
    fun row => by split <;> rfl
  have hids : (db.decideCandidate id decision).candidates.map CandidateRow.id
      = db.candidates.map CandidateRow.id := by
    unfold ExtractionDb.decideCandidate
    rw [List.map_map]
    exact List.map_congr_left fun row _ => hid row
  have hidentities : (db.decideCandidate id decision).candidates.map CandidateRow.identity
      = db.candidates.map CandidateRow.identity := by
    unfold ExtractionDb.decideCandidate
    rw [List.map_map]
    exact List.map_congr_left fun row _ => hidentity row
  refine { memories := hdb.memories, ids := ?_, identities := ?_, fresh := ?_ }
  · rw [hids]
    exact hdb.ids
  · rw [hidentities]
    exact hdb.identities
  · intro row hrow
    obtain ⟨old, hold, rfl⟩ := List.mem_map.mp hrow
    rw [hid]
    exact hdb.fresh old hold

/-- A row of another id keeps its decision. -/
theorem mem_decideCandidate {row : CandidateRow} {id : Int} (h : row ∈ db.candidates)
    (hid : (row.id : Int) ≠ id) (decision : MemoryCandidateDecision) :
    row ∈ (db.decideCandidate id decision).candidates :=
  List.mem_map.mpr ⟨row, h, if_neg hid⟩

theorem recordMessage_constrained (hdb : db.Constrained) (row : ExtractionRow) :
    (db.recordMessage row).Constrained := by
  unfold ExtractionDb.recordMessage
  split <;> exact { hdb with }

theorem recordMessage_candidates (row : ExtractionRow) :
    (db.recordMessage row).candidates = db.candidates := by
  unfold ExtractionDb.recordMessage
  split <;> rfl

theorem recordMessage_memories (row : ExtractionRow) :
    (db.recordMessage row).memories = db.memories := by
  unfold ExtractionDb.recordMessage
  split <;> rfl

theorem isCompleted_iff {traceId : String} : db.isCompleted traceId = true
    ↔ ∃ row ∈ db.messages, row.traceId = traceId ∧ row.status = .completed := by
  unfold ExtractionDb.isCompleted
  simp only [List.any_eq_true, Bool.and_eq_true, decide_eq_true_eq]

/-- What is recorded of a message. -/
theorem isCompleted_record_self (row : ExtractionRow) :
    (db.recordMessage row).isCompleted row.traceId = true ↔ row.status = .completed := by
  rw [isCompleted_iff]
  unfold ExtractionDb.recordMessage
  split
  · rename_i hknown
    obtain ⟨old, hold, htrace⟩ := List.any_eq_true.mp hknown
    have htrace := of_decide_eq_true htrace
    constructor
    · rintro ⟨new, hnew, hid, hstatus⟩
      obtain ⟨source, -, rfl⟩ := List.mem_map.mp hnew
      split at hstatus
      · exact hstatus
      · rename_i hother
        rw [if_neg hother] at hid
        exact absurd hid hother
    · intro hstatus
      refine ⟨_, List.mem_map.mpr ⟨old, hold, rfl⟩, ?_⟩
      rw [if_pos htrace]
      exact ⟨htrace, hstatus⟩
  · rename_i hnew
    constructor
    · rintro ⟨new, hmem, hid, hstatus⟩
      rcases List.mem_append.mp hmem with hmem | hmem
      · exact (hnew (List.any_eq_true.mpr ⟨new, hmem, decide_eq_true hid⟩)).elim
      · rw [List.mem_singleton.mp hmem] at hstatus
        exact hstatus
    · intro hstatus
      exact ⟨row, List.mem_append_right _ (List.mem_singleton_self row), rfl, hstatus⟩

/-- The other messages stay as they are. -/
theorem isCompleted_record_other {row : ExtractionRow} {traceId : String}
    (hother : row.traceId ≠ traceId) :
    (db.recordMessage row).isCompleted traceId = db.isCompleted traceId := by
  rw [Bool.eq_iff_iff, isCompleted_iff, isCompleted_iff]
  unfold ExtractionDb.recordMessage
  split
  · constructor
    · rintro ⟨new, hnew, hid, hstatus⟩
      obtain ⟨source, hsource, rfl⟩ := List.mem_map.mp hnew
      split at hid
      · rename_i hsame
        exact (hother (hsame.symm.trans hid)).elim
      · rename_i hdifferent
        rw [if_neg hdifferent] at hstatus
        exact ⟨source, hsource, hid, hstatus⟩
    · rintro ⟨old, hold, hid, hstatus⟩
      refine ⟨_, List.mem_map.mpr ⟨old, hold, rfl⟩, ?_⟩
      rw [if_neg fun hsame => hother (hsame.symm.trans hid)]
      exact ⟨hid, hstatus⟩
  · constructor
    · rintro ⟨new, hmem, hid, hstatus⟩
      rcases List.mem_append.mp hmem with hmem | hmem
      · exact ⟨new, hmem, hid, hstatus⟩
      · rw [List.mem_singleton.mp hmem] at hid
        exact (hother hid).elim
    · rintro ⟨old, hold, hid, hstatus⟩
      exact ⟨old, List.mem_append_left _ hold, hid, hstatus⟩

end Queue

end Aegora
