import Aegora.CandidateQueue

/-!
# The background extraction of memories

`run_memory_extraction` reads what users wrote, lets a model propose
candidates, queues each of them and decides it. A message whose try block
raises is noted as failed and taken up again by the next run. The scope of a
candidate is built before it is queued, and there is none for a private
namespace where the message names no agent.

`extraction_accounts_iff` says when a run decides all that was proposed.
-/

namespace Aegora

open Py Handlers

/-! ## What the model proposes -/

/-- What the extractor needs of Python: `str.lower`, and
`max(0.0, min(1.0, float(x)))` with the exception's name where `float` raises. -/
structure ExtractorEnv where
  lower : String → String
  unit : Json → Except String {q : ℚ // 0 ≤ q ∧ q ≤ 1}

/-- The numbers of a proposed candidate. -/
structure CandidateNumbers where
  ttlDays : Option Int
  confidence : {q : ℚ // 0 ≤ q ∧ q ≤ 1}
  importance : {q : ℚ // 0 ≤ q ∧ q ≤ 1}

/-- Where a candidate comes from. -/
structure CandidateSource where
  agentId : Option String
  sessionId : Option String
  traceId : Option String

def extractedNamespaces : List String := ["preferences", "profile", "work_context"]

/-- The conversions in the `try` of `parse_memory_candidate`. -/
def candidateNumbers (env : ExtractorEnv) (raw : Dict) : Except String CandidateNumbers := do
  let ttlRaw := Dict.get raw "ttl_days"
  let ttlDays ← if ttlRaw = .null ∨ ttlRaw = .str "" then pure none else some <$> ttlRaw.pyInt
  let confidence ← env.unit ((Dict.get raw "confidence").orElse (.int 0))
  let importance ← env.unit ((Dict.get raw "importance").orElse (.float "0.5"))
  return ⟨ttlDays, confidence, importance⟩

def CandidateOperation.parse (text : String) : Option CandidateOperation :=
  if text = "upsert" then some .upsert else if text = "forget" then some .forget else none

/-- The memory types that a candidate may have. -/
def MemoryType.parseCandidate (text : String) : Option MemoryType :=
  if text = "semantic" then some .semantic
  else if text = "episodic" then some .episodic
  else if text = "profile" then some .profile
  else if text = "summary" then some .summary
  else none

def EvidenceType.parse (text : String) : Option EvidenceType :=
  if text = "explicit_fact" then some .explicitFact
  else if text = "explicit_instruction" then some .explicitInstruction
  else if text = "inferred" then some .inferred
  else none

/-- `ttl_days is None or 1 <= ttl_days <= 365`. -/
def ttlAllowed (ttlDays : Option Int) : Bool := ttlDays.all fun days => 1 ≤ days && days ≤ 365

/-- `str(value).strip()` of a value that may be missing. -/
def strippedValue (value : Option String) : Option String := value.map strip

theorem strippedValue_stripped (value : Option String) (text : String)
    (h : strippedValue value = some text) : strip text = text := by
  obtain ⟨raw, -, rfl⟩ := Option.map_eq_some_iff.mp h
  exact strip_strip raw

/-- `MemoryCandidate(...)` on raw texts, `none` where it raises. -/
def MemoryCandidate.make? (lower : String → String)
    (operation nameSpace key memoryType evidenceType : String) (value rationale : Option String)
    (numbers : CandidateNumbers) (updateIntent : Bool) (source : CandidateSource) :
    Option MemoryCandidate := do
  let operation ← CandidateOperation.parse (lower (strip operation))
  let memoryType ← MemoryType.parseCandidate memoryType
  let evidenceType ← EvidenceType.parse evidenceType
  if hname : strip (strip nameSpace) ≠ "" then
    if hkey : strip key ≠ "" then
      if hvalue : operation = .upsert → (strippedValue value).any (· ≠ "") = true then
        if ttlAllowed numbers.ttlDays then
          some
            { operation := operation
              nameSpace := strip nameSpace
              key := strip key
              value := strippedValue value
              memoryType := memoryType
              evidenceType := evidenceType
              confidence := numbers.confidence
              importance := numbers.importance
              updateIntent := updateIntent
              ttlDays := numbers.ttlDays.map Int.toNat
              rationale := rationale
              sourceAgentId := source.agentId
              sourceSessionId := source.sessionId
              sourceTraceId := source.traceId
              nameSpaceNonblank := hname
              keyStripped := strip_strip key
              keyNonblank := hkey
              valueStripped := strippedValue_stripped value
              upsertValue := hvalue
              confidenceUnit := numbers.confidence.property
              importanceUnit := numbers.importance.property }
        else none
      else none
    else none
  else none

/-- `str(raw.get(name) or default).strip()`. -/
def rawText (raw : Dict) (name fallback : String) : String :=
  strip ((Dict.get raw name).orElse (.str fallback)).pyStr

/-- `parse_memory_candidate`. It gives up on a `TypeError` and a `ValueError`; any other exception
leaves it. -/
def parseMemoryCandidate (env : ExtractorEnv) (source : CandidateSource) (raw : Dict) :
    Except String (Option MemoryCandidate) :=
  if rawText raw "namespace" "" ∉ extractedNamespaces then .ok none
  else
    let rationale := takeText 500 (rawText raw "rationale" "")
    match candidateNumbers env raw with
    | .error raised =>
        if raised = "TypeError" ∨ raised = "ValueError" then .ok none else .error raised
    | .ok numbers =>
        .ok (MemoryCandidate.make? env.lower (env.lower (rawText raw "operation" ""))
          (rawText raw "namespace" "") (takeText 100 (rawText raw "key" ""))
          (rawText raw "memory_type" "semantic") (rawText raw "evidence_type" "inferred")
          (match Dict.get raw "value" with
            | .null => none
            | value => some (takeText 800 (strip value.pyStr)))
          (if rationale = "" then none else some rationale) numbers
          ((Dict.get? raw "update_intent").getD (.bool false)).truthy source)

/-- The candidates of the proposals that are objects. -/
def candidatesOf (env : ExtractorEnv) (source : CandidateSource) :
    List Json → Except String (List MemoryCandidate)
  | [] => .ok []
  | raw :: rest => do
      let candidate ← match raw.asDict? with
        | none => pure none
        | some entries => parseMemoryCandidate env source entries
      let candidates ← candidatesOf env source rest
      return candidate.toList ++ candidates

/-- `extract_memory_candidates`; `answer` is what the model's client returns or raises. -/
def extractMemoryCandidates (env : ExtractorEnv) (answer : Except String Dict)
    (userMessage : String) (source : CandidateSource) : Except String (List MemoryCandidate) :=
  if strip userMessage = "" then .ok []
  else do
    let payload ← answer
    match (Dict.get payload "candidates").asList? with
    | none => return []
    | some raws => candidatesOf env source (raws.take 5)

/-! ## Messages -/

/-- How the calls for one candidate end. -/
structure CandidateFaults where
  enqueue : CallOutcome
  calls : CandidateCalls
  mark : CallOutcome

/-- A message, and what the run meets while it is at it: the governance tables, the answer of
the model, and how each call of the store ends. -/
structure MessageTurn where
  row : Dict
  tables : GovernanceTables
  tenantEnv : Option String
  lookupFailure : Option LookupStage
  answer : Except String Dict
  statusRead : Bool
  faults : ℕ → CandidateFaults
  completed : CallOutcome
  failed : CallOutcome

/-- `message_agent_id` of the extraction. -/
def extractionAgentId (row : Dict) : Option String :=
  let metadata := (Dict.get row "metadata").dictOrEmpty
  let requestMetadata := (Dict.get metadata "request_metadata").dictOrEmpty
  strippedOr ((Dict.get metadata "agent_id").orElse (Dict.get requestMetadata "agent_id"))

namespace MessageTurn

variable (turn : MessageTurn)

def traceId : String := rawText turn.row "trace_id" ""

def userId : String := rawText turn.row "user_id" ""

def sessionId : Option String := strippedOr (Dict.get turn.row "session_id")

def agentId : Option String := extractionAgentId turn.row

def content : String := ((Dict.get turn.row "content").orElse (.str "")).pyStr

/-- What `fetch_memory_governance` returns. -/
def snapshot : Dict :=
  fetchMemoryGovernance turn.tables turn.tenantEnv (some turn.userId) "private" turn.lookupFailure

def policyAvailable : Bool := (Dict.get turn.snapshot "policy_available").truthy

def governance : MemoryGovernance :=
  governanceFromRuntimeContext
    [("agent", .obj
        [("id", (turn.agentId.map Json.str).getD .null), ("visibility", .str "private")]),
      ("memory_governance", .obj turn.snapshot)]
    turn.agentId

def source : CandidateSource where
  agentId := turn.agentId
  sessionId := turn.sessionId
  traceId := some turn.traceId

def candidates (env : ExtractorEnv) : Except String (List MemoryCandidate) :=
  extractMemoryCandidates env turn.answer turn.content turn.source

/-- `SESSION_USER_PREFIX`. -/
def anonymous : Bool := "session-owner:".toList.isPrefixOf turn.userId.toList

end MessageTurn

/-! ## The run -/

structure ExtractionSettings where
  service : MemoryService
  policy : CandidatePolicy
  env : ExtractorEnv
  chatModel : String
  extractionEnabled : Bool := true
  force : Bool := false
  limit : Int := 200
  dryRun : Bool := false
  autoApply : Bool := true

structure ExtractionMetrics where
  expiredMemories : ℕ := 0
  messagesScanned : ℕ := 0
  messagesProcessed : ℕ := 0
  messagesAlreadyProcessed : ℕ := 0
  messagesSkippedAnonymous : ℕ := 0
  messagesSkippedPolicyUnavailable : ℕ := 0
  messagesFailed : ℕ := 0
  candidates : ℕ := 0
  applied : ℕ := 0
  needsReview : ℕ := 0
  rejected : ℕ := 0
  skipped : ℕ := 0
deriving DecidableEq

/-- `metrics[status] += 1`. -/
def ExtractionMetrics.count (metrics : ExtractionMetrics) : DecisionStatus → ExtractionMetrics
  | .applied => { metrics with applied := metrics.applied + 1 }
  | .needsReview => { metrics with needsReview := metrics.needsReview + 1 }
  | .rejected => { metrics with rejected := metrics.rejected + 1 }
  | .skipped => { metrics with skipped := metrics.skipped + 1 }

structure ExtractionItem where
  traceId : String
  userId : String
  agentId : Option String
  candidateId : Option String
  nameSpace : String
  key : String
  operation : CandidateOperation
  status : DecisionStatus
  reason : String

structure ExtractionState where
  db : ExtractionDb
  metrics : ExtractionMetrics := {}
  items : List ExtractionItem := []

abbrev Extraction (α : Type) := Handler ExtractionState String α

def tally (change : ExtractionMetrics → ExtractionMetrics) : Extraction Unit :=
  modify fun s => { s with metrics := change s.metrics }

/-- One transaction of the store. -/
def commit (outcome : CallOutcome) (write : ExtractionDb → ExtractionDb) : Extraction Unit :=
  match outcome with
  | .done => modify fun s => { s with db := write s.db }
  | .rolledBack => throw "OperationalError"
  | .unacknowledged => do
      modify fun s => { s with db := write s.db }
      throw "OperationalError"

/-- A checked constructor or lookup, which raises a `ValueError`. -/
def checked {α : Type} (result : Except String α) : Extraction α :=
  match result with
  | .ok value => pure value
  | .error text => throw ("ValueError: " ++ text)

/-- `enqueue`. -/
def enqueue (settings : ExtractionSettings) (outcome : CallOutcome) (scope : MemoryScope)
    (candidate : MemoryCandidate) (proposedScope : String) : Extraction MemoryCandidate := do
  let id := (← get).db.queuedId scope candidate
  commit outcome (·.insertCandidate settings.service.floats scope candidate proposedScope)
  return { candidate with candidateId := some (toString id) }

/-- `mark_decision`. -/
def markDecision (outcome : CallOutcome) (candidate : MemoryCandidate)
    (decision : MemoryCandidateDecision) : Extraction Unit :=
  match candidate.candidateId.bind intOfText with
  | none => pure ()
  | some id => commit outcome (·.decideCandidate id decision)

/-- `resolve_memory_candidate` up to its last step, on the tables of the run. -/
def resolveQueued (settings : ExtractionSettings) (calls : CandidateCalls) (scope : MemoryScope)
    (governance : MemoryGovernance) (candidate : MemoryCandidate) :
    Extraction MemoryCandidateDecision := do
  let s ← get
  let result ← checked (resolveMemoryCandidate settings.service settings.policy calls scope
    governance candidate s.db.memories)
  modify fun s => { s with db := { s.db with memories := result.1 } }
  return result.2

/-- A dry run has no store. -/
def unlessDry (settings : ExtractionSettings) (act : Extraction Unit) : Extraction Unit :=
  if settings.dryRun then pure () else act

/-- The decision of `_candidate_decision`, which is not to decide without `auto_apply`. -/
def chooseDecision (settings : ExtractionSettings) (calls : CandidateCalls) (scope : MemoryScope)
    (governance : MemoryGovernance) (candidate : MemoryCandidate) :
    Extraction MemoryCandidateDecision :=
  if settings.autoApply then resolveQueued settings calls scope governance candidate
  else pure (decideAs candidate .needsReview "auto_apply_disabled" none)

/-- `_candidate_decision`. -/
def candidateDecision (settings : ExtractionSettings) (faults : CandidateFaults)
    (scope : MemoryScope) (governance : MemoryGovernance) (candidate : MemoryCandidate) :
    Extraction MemoryCandidateDecision := do
  let decision ← chooseDecision settings faults.calls scope governance candidate
  unlessDry settings (markDecision faults.mark candidate decision)
  return decision

/-- The candidate as it is queued. -/
def queueCandidate (settings : ExtractionSettings) (outcome : CallOutcome) (scope : MemoryScope)
    (candidate : MemoryCandidate) (proposedScope : String) : Extraction MemoryCandidate :=
  if settings.dryRun then pure candidate
  else enqueue settings outcome scope candidate proposedScope

/-- The item of a decided candidate. -/
def MessageTurn.item (turn : MessageTurn) (candidate : MemoryCandidate)
    (decision : MemoryCandidateDecision) : ExtractionItem where
  traceId := turn.traceId
  userId := turn.userId
  agentId := turn.agentId
  candidateId := candidate.candidateId
  nameSpace := candidate.nameSpace
  key := candidate.key
  operation := candidate.operation
  status := decision.status
  reason := decision.reason

/-- One pass of the loop over the candidates of a message, the `n`-th. -/
def processCandidate (settings : ExtractionSettings) (turn : MessageTurn)
    (entry : MemoryCandidate × ℕ) : Extraction Unit := do
  let faults := turn.faults entry.2
  let proposedScope ← checked (writeScopeFor turn.governance entry.1.nameSpace)
  let scope ← checked (MemoryScope.make turn.userId turn.sessionId turn.agentId
    (some turn.governance.tenantId) entry.1.nameSpace proposedScope)
  let queued ← queueCandidate settings faults.enqueue scope entry.1 proposedScope
  let decision ← candidateDecision settings faults scope turn.governance queued
  modify fun s =>
    { s with
      metrics := s.metrics.count decision.status
      items := s.items ++ [turn.item queued decision] }

/-- What is noted of a message. -/
def MessageTurn.record (turn : MessageTurn) (settings : ExtractionSettings)
    (status : ExtractionStatus) (candidateCount : ℕ) (error : Option String) : ExtractionRow where
  traceId := turn.traceId
  userId := turn.userId
  sessionId := turn.sessionId
  agentId := turn.agentId
  status := status
  candidateCount := candidateCount
  attemptCount := 1
  model := settings.chatModel
  error := error

/-- What the extractor returns or raises. -/
def proposed (settings : ExtractionSettings) (turn : MessageTurn) :
    Extraction (List MemoryCandidate) :=
  match turn.candidates settings.env with
  | .ok candidates => pure candidates
  | .error raised => throw raised

/-- The `try` block. -/
def extractMessage (settings : ExtractionSettings) (turn : MessageTurn) : Extraction Unit := do
  let candidates ← proposed settings turn
  tally fun metrics =>
    { metrics with
      messagesProcessed := metrics.messagesProcessed + 1
      candidates := metrics.candidates + candidates.length }
  each (processCandidate settings turn) candidates.zipIdx
  unlessDry settings (commit turn.completed
    (·.recordMessage (turn.record settings .completed candidates.length none)))

/-- The `except` block. -/
def failMessage (settings : ExtractionSettings) (turn : MessageTurn) (error : String) :
    Extraction Unit := do
  tally fun metrics => { metrics with messagesFailed := metrics.messagesFailed + 1 }
  unlessDry settings (commit turn.failed
    (·.recordMessage (turn.record settings .failed 0 (some (takeText 2000 error)))))

/-- `extraction_is_completed`, which may raise. -/
def readCompleted (settings : ExtractionSettings) (turn : MessageTurn) : Extraction Bool :=
  if settings.dryRun then pure false
  else do
    demand (turn.statusRead = true) "OperationalError"
    let s ← get
    return s.db.isCompleted turn.traceId

/-- One pass of the loop over the messages. -/
def runMessage (settings : ExtractionSettings) (turn : MessageTurn) : Extraction Unit :=
  if turn.traceId = "" ∨ turn.userId = "" then pure ()
  else if turn.anonymous then
    tally fun metrics =>
      { metrics with messagesSkippedAnonymous := metrics.messagesSkippedAnonymous + 1 }
  else do
    let completed ← readCompleted settings turn
    if completed then
      tally fun metrics =>
        { metrics with messagesAlreadyProcessed := metrics.messagesAlreadyProcessed + 1 }
    else if !turn.policyAvailable then
      tally fun metrics =>
        { metrics with
          messagesSkippedPolicyUnavailable := metrics.messagesSkippedPolicyUnavailable + 1 }
    else rescue (extractMessage settings turn) (failMessage settings turn)

/-- The sweep before the run. -/
def expireMemories (settings : ExtractionSettings) (now : Time) (db : ExtractionDb) :
    ExtractionDb × ℕ :=
  if !settings.service.writeEnabled || !settings.service.hasProvider then (db, 0)
  else
    let swept := expireDue none (max 100 (settings.limit * 2)) now db.memories
    ({ db with memories := swept.1 }, swept.2)

def sweepMemories (settings : ExtractionSettings) (now : Time) : Extraction Unit :=
  modify fun s =>
    let swept := expireMemories settings now s.db
    { s with db := swept.1, metrics := { s.metrics with expiredMemories := swept.2 } }

def scanMessages (settings : ExtractionSettings) (turns : List MessageTurn) : Extraction Unit := do
  tally fun metrics => { metrics with messagesScanned := turns.length }
  each (runMessage settings) turns

/-- `settings.memory.extraction_enabled or force`. -/
def ExtractionSettings.enabled (settings : ExtractionSettings) : Bool :=
  settings.extractionEnabled || settings.force

/-- `run_memory_extraction`, on the messages that were loaded. -/
def runMemoryExtraction (settings : ExtractionSettings) (now : Time) (turns : List MessageTurn) :
    Extraction Unit := do
  sweepMemories settings now
  if settings.enabled then scanMessages settings turns else pure ()

end Aegora
