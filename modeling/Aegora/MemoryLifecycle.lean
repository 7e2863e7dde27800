import Mathlib.Data.List.Infix
import Aegora.MemoryService
import Aegora.GovernanceLookup
import Aegora.Runs

/-!
# Explicit saves and automatic candidates

`save_user_memory` writes what the user asked to keep; the background
extraction proposes candidates, and `resolve_memory_candidate` decides which
of them reach the provider. A candidate must not replace what the user saved
explicitly unless it carries the intent to, with high confidence, and never a
memory of the tenant.

The check reads the source kind of the item that `get_current` finds. It
protects nothing when that lookup fails or the time of the row is over, and an
explicit save that repeats an automatic value leaves the automatic row as it is.
-/

namespace Aegora

open Py Runs

/-! ## Explicit saves -/

/-- What `save_user_memory` reads from the state of the turn. -/
structure SaveRequest where
  sessionId : Option String
  userId : Option String
  traceId : Option String
  runtimeContext : Dict

/-- `normalize_session_id`. -/
def normalizeSessionId (sessionId : String) : String := textOr (strip sessionId) "local-session"

/-- `derive_user_id_from_session`. -/
def deriveUserIdFromSession (sessionId : String) : String :=
  "session-owner:" ++ normalizeSessionId sessionId

/-- The agent of the runtime context. -/
def requestAgentId (request : SaveRequest) : Option String :=
  let agentId := Dict.get (Dict.get request.runtimeContext "agent").dictOrEmpty "id"
  if agentId.truthy then some agentId.pyStr else none

/-- What a save writes, or the reason it is refused. -/
def saveTarget (request : SaveRequest) (key value : String) :
    Except String (MemoryScope × MemoryWrite ⊕ String) :=
  match nonEmpty request.sessionId with
  | none => .ok (.inr "missing_session_id")
  | some sessionId => do
      let userId := (nonEmpty request.userId).getD (deriveUserIdFromSession sessionId)
      let agentId := requestAgentId request
      let governance := governanceFromRuntimeContext request.runtimeContext agentId
      let policy ← governance.policyFor "preferences"
      if policy.mode = .tenantRequired then return .inr "tenant_managed_namespace"
      let memoryScope ← writeScopeFor governance "preferences"
      let scope ← MemoryScope.make userId (some sessionId) agentId (some governance.tenantId)
        "preferences" memoryScope
      let traceId := ((nonEmpty request.traceId).or (some sessionId)).getD "unknown"
      let memory ← MemoryWrite.make key value agentId (some sessionId) (some traceId)
        (some "explicit_save_user_memory")
      return .inl (scope, memory)

/-- `save_user_memory`. -/
def saveUserMemory (service : MemoryService) (request : SaveRequest) (key value : String)
    (outcome : CallOutcome) (now : Time) (t : MemoryTables) :
    Except String (MemoryTables × MemoryWriteResult) := do
  match ← saveTarget request key value with
  | .inr reason => return (t, ⟨false, none, some reason⟩)
  | .inl (scope, memory) => return service.remember outcome scope memory now t

/-! ## Candidates -/

inductive DecisionStatus where
  | applied
  | needsReview
  | rejected
  | skipped
deriving DecidableEq, Repr

structure MemoryCandidateDecision where
  status : DecisionStatus
  reason : String
  candidateId : Option String
  item : Option MemoryItem := none
deriving DecidableEq

/-- The thresholds of the extraction, and the float comparison
`candidate.confidence + 0.05 < _metadata_float(current, "confidence", 1.0)`. -/
structure CandidatePolicy where
  autoApplyThreshold : ℚ
  forgetThreshold : ℚ
  lowerThanCurrent : ℚ → MemoryItem → Bool

/-- How the provider calls of one candidate end, and the clocks they read. -/
structure CandidateCalls where
  lookup : Bool
  write : CallOutcome
  lookupTime : Time
  writeTime : Time
  clock : Time

/-- The double that `0.95` stands for. -/
def highConfidence : ℚ := 4278419646001971 / 4503599627370496

/-- The candidate may replace what the user saved explicitly. -/
def mayOverride (policy : CandidatePolicy) (candidate : MemoryCandidate) : Bool :=
  candidate.updateIntent && !(candidate.confidence < max policy.autoApplyThreshold highConfidence)

def sensitiveMemoryTerms : List String :=
  ["password", "passwd", "api_key", "apikey", "token", "secret", "private_key", "otp", "cvv",
   "密码", "口令", "验证码", "私钥", "身份证", "银行卡", "信用卡", "病史", "疾病", "宗教", "政治",
   "性取向", "种族", "工会", "犯罪记录"]

/-- `contains_sensitive_memory`. -/
def containsSensitiveMemory (lower : String → String) (candidate : MemoryCandidate) : Bool :=
  let haystack := " ".intercalate
    ([some candidate.nameSpace, some candidate.key, candidate.value, candidate.rationale].map
      fun text => lower (text.getD ""))
  sensitiveMemoryTerms.any fun term => decide (term.toList <:+: haystack.toList)

/-- What an applied candidate writes. -/
def candidateWrite (scope : MemoryScope) (candidate : MemoryCandidate) (value : String)
    (clock : Time) (hvalue : value ≠ "") : MemoryWrite where
  key := candidate.key
  value := value
  memoryType := candidate.memoryType
  sourceAgentId := (nonEmpty candidate.sourceAgentId).or scope.agentId
  sourceSessionId := (nonEmpty candidate.sourceSessionId).or scope.sessionId
  sourceTraceId := candidate.sourceTraceId
  sourceKind := .automatic
  confidence := candidate.confidence
  importance := candidate.importance
  expiresAt := candidate.ttlDays.map fun days => clock + days * 86400000000
  reason := some "automatic_candidate_applied"
  keyStripped := candidate.keyStripped
  keyNonblank := candidate.keyNonblank
  valueNonblank := hvalue
  confidenceUnit := candidate.confidenceUnit
  importanceUnit := candidate.importanceUnit

section Resolve

variable (service : MemoryService) (policy : CandidatePolicy) (calls : CandidateCalls)
  (scope : MemoryScope) (candidate : MemoryCandidate)

/-- A decision about this candidate. -/
def decideAs (status : DecisionStatus) (reason : String) (item : Option MemoryItem) :
    MemoryCandidateDecision :=
  ⟨status, reason, candidate.candidateId, item⟩

/-- The decision that the current item imposes on an upsert, if any. -/
def upsertConflict (current : Option MemoryItem) : Option MemoryCandidateDecision :=
  match current with
  | none => none
  | some item =>
      if some item.content = candidate.value then
        some (decideAs candidate .skipped "duplicate_current_value" current)
      else if item.sourceKind = "tenant" then
        some (decideAs candidate .rejected "cannot_override_tenant_memory" current)
      else if item.sourceKind = "explicit" ∧ candidate.updateIntent = false then
        some (decideAs candidate .needsReview "conflict_with_explicit_memory" current)
      else if item.sourceKind = "explicit"
          ∧ candidate.confidence < max policy.autoApplyThreshold highConfidence then
        some (decideAs candidate .needsReview "explicit_memory_update_requires_high_confidence"
          current)
      else if item.sourceKind = "automatic" ∧ policy.lowerThanCurrent candidate.confidence item
          ∧ candidate.updateIntent = false then
        some (decideAs candidate .needsReview "lower_confidence_than_current_memory" current)
      else none

/-- `_resolve_upsert_candidate`. -/
def resolveUpsertCandidate (t : MemoryTables) :
    Except String (MemoryTables × MemoryCandidateDecision) :=
  if candidate.confidence < policy.autoApplyThreshold then
    .ok (t, decideAs candidate .needsReview "below_auto_apply_threshold" none)
  else
    let current := service.getCurrent calls.lookup scope candidate.key calls.lookupTime t
    match upsertConflict policy candidate current with
    | some decision => .ok (t, decision)
    | none =>
        let value := candidate.value.getD ""
        if hvalue : value ≠ "" then
          let written := service.remember calls.write scope
            (candidateWrite scope candidate value calls.clock hvalue) calls.writeTime t
          match written.2.saved, written.2.item with
          | true, some item =>
              .ok (written.1, decideAs candidate .applied "automatic_candidate_applied"
                (some item))
          | _, _ =>
              .ok (written.1, decideAs candidate .needsReview
                (textOr (written.2.reason.getD "") "provider_write_failed") none)
        else .error "memory value is required"

/-- `_resolve_forget_candidate`. -/
def resolveForgetCandidate (t : MemoryTables) : MemoryTables × MemoryCandidateDecision :=
  if candidate.evidenceType ≠ .explicitInstruction then
    (t, decideAs candidate .rejected "forget_requires_explicit_instruction" none)
  else if candidate.confidence < policy.forgetThreshold then
    (t, decideAs candidate .needsReview "forget_below_threshold" none)
  else
    match service.getCurrent calls.lookup scope candidate.key calls.lookupTime t with
    | none => (t, decideAs candidate .skipped "memory_already_absent" none)
    | some item =>
        if item.sourceKind = "tenant" then
          (t, decideAs candidate .rejected "cannot_forget_tenant_memory" (some item))
        else
          let written := service.forget calls.write scope candidate.key calls.writeTime t
          (written.1,
            if written.2 then decideAs candidate .applied "automatic_explicit_forget" none
            else decideAs candidate .needsReview "provider_forget_failed" none)

end Resolve

/-- The scope a candidate is written in, or the reason there is none. -/
def candidateScope (scope : MemoryScope) (governance : MemoryGovernance)
    (candidate : MemoryCandidate) : Except String (MemoryScope ⊕ String) := do
  let proposedScope ← writeScopeFor governance candidate.nameSpace
  if proposedScope = "user_agent" ∧ nonEmpty governance.agentId = none then
    return .inr "agent_private_memory_requires_agent_id"
  let effective ← MemoryScope.make scope.userId scope.sessionId
    ((nonEmpty governance.agentId).or scope.agentId) (some governance.tenantId)
    candidate.nameSpace proposedScope
  return .inl effective

/-- `resolve_memory_candidate`, without the queue the decision is noted in. -/
def resolveMemoryCandidate (service : MemoryService) (policy : CandidatePolicy)
    (calls : CandidateCalls) (scope : MemoryScope) (governance : MemoryGovernance)
    (candidate : MemoryCandidate) (t : MemoryTables) :
    Except String (MemoryTables × MemoryCandidateDecision) := do
  let namespacePolicy ← governance.policyFor candidate.nameSpace
  match ← candidateScope scope governance candidate with
  | .inr reason => return (t, decideAs candidate .rejected reason none)
  | .inl effective =>
      if namespacePolicy.mode = .tenantRequired then
        return (t, decideAs candidate .rejected "tenant_managed_namespace" none)
      else if candidate.evidenceType = .inferred then
        return (t, decideAs candidate .rejected "inferred_memory_not_auto_applied" none)
      else if containsSensitiveMemory service.lower candidate then
        return (t, decideAs candidate .rejected "sensitive_memory_blocked" none)
      else
        match candidate.operation with
        | .forget => return resolveForgetCandidate service policy calls effective candidate t
        | .upsert => resolveUpsertCandidate service policy calls effective candidate t

end Aegora
