import Mathlib.Data.Rat.Defs
import Mathlib.Algebra.Order.Ring.Unbundled.Rat
import Aegora.MemoryPolicy

/-!
# Scopes, writes and candidates

The values that memory operations take. Each constructor of the source checks
its arguments, so each structure carries what was checked: a scope has a user
(and an agent where it is private to one), a write and a candidate have a
stripped key. The `make` functions are the constructors on raw arguments.
-/

namespace Aegora

open Py

/-! ## Scopes -/

inductive ScopeKind where
  | userGlobal
  | userAgent
  | tenantUser
deriving DecidableEq, Repr

def ScopeKind.text : ScopeKind → String
  | .userGlobal => "user_global"
  | .userAgent => "user_agent"
  | .tenantUser => "tenant_user"

def ScopeKind.parse (text : String) : Option ScopeKind :=
  if text = "user_global" then some .userGlobal
  else if text = "user_agent" then some .userAgent
  else if text = "tenant_user" then some .tenantUser
  else none

@[ext]
structure MemoryScope where
  userId : String
  sessionId : Option String := none
  agentId : Option String := none
  tenantId : Option String := none
  nameSpace : String := "preferences"
  memoryScope : ScopeKind := .userGlobal
  userStripped : strip userId = userId
  user : userId ≠ ""
  agent : memoryScope = .userAgent → agentId.any (· ≠ "") = true

/-- `MemoryScope(...)`. -/
def MemoryScope.make (userId : String) (sessionId agentId tenantId : Option String)
    (nameSpace memoryScope : String) : Except String MemoryScope :=
  if huser : strip userId = "" then .error "memory scope requires user_id"
  else match ScopeKind.parse memoryScope with
    | none => .error "unsupported memory scope"
    | some kind =>
        if hagent : kind = .userAgent → agentId.any (· ≠ "") = true then
          .ok ⟨strip userId, sessionId, agentId, tenantId, nameSpace, kind, strip_strip userId,
            huser, hagent⟩
        else .error "user_agent memory requires agent_id"

/-- A constructed scope keeps its arguments. -/
theorem MemoryScope.make_spec {userId nameSpace memoryScope : String}
    {sessionId agentId tenantId : Option String} {scope : MemoryScope}
    (h : MemoryScope.make userId sessionId agentId tenantId nameSpace memoryScope = .ok scope) :
    scope.userId = strip userId ∧ scope.tenantId = tenantId ∧ scope.agentId = agentId
      ∧ scope.nameSpace = nameSpace ∧ ScopeKind.parse memoryScope = some scope.memoryScope := by
  unfold MemoryScope.make at h
  split at h
  · cases h
  · split at h
    · cases h
    · rename_i kind hkind
      split at h
      · obtain rfl := Except.ok.inj h
        exact ⟨rfl, rfl, rfl, rfl, hkind⟩
      · cases h

/-- `scope.tenant_id or "default"`. -/
def MemoryScope.tenant (scope : MemoryScope) : String :=
  match scope.tenantId with
  | none => "default"
  | some tenantId => if tenantId = "" then "default" else tenantId

/-- The agent column of the rows of a scope. -/
def MemoryScope.rowAgent (scope : MemoryScope) : Option String :=
  if scope.memoryScope = .userAgent then scope.agentId else none

/-! ## Writes -/

inductive SourceKind where
  | explicit
  | automatic
  | tenant
  | legacy
deriving DecidableEq, Repr

def SourceKind.text : SourceKind → String
  | .explicit => "explicit"
  | .automatic => "automatic"
  | .tenant => "tenant"
  | .legacy => "legacy"

/-- The memory types that the table allows. -/
inductive MemoryType where
  | semantic
  | episodic
  | proceduralCandidate
  | profile
  | summary
deriving DecidableEq, Repr

def MemoryType.text : MemoryType → String
  | .semantic => "semantic"
  | .episodic => "episodic"
  | .proceduralCandidate => "procedural_candidate"
  | .profile => "profile"
  | .summary => "summary"

/-- A timestamp, as a number of microseconds. -/
abbrev Time := Int

/-- The confidence of a write and the importance that both models default to. -/
theorem defaultConfidence_unit : (0 : ℚ) ≤ 1 ∧ (1 : ℚ) ≤ 1 := by
  decide +kernel

theorem defaultImportance_unit : (0 : ℚ) ≤ 1 / 2 ∧ (1 / 2 : ℚ) ≤ 1 := by
  decide +kernel

/-- A finite double is a rational number. -/
structure MemoryWrite where
  key : String
  value : String
  memoryType : MemoryType := .semantic
  sourceAgentId : Option String := none
  sourceSessionId : Option String := none
  sourceTraceId : Option String := none
  sourceKind : SourceKind := .explicit
  confidence : ℚ := 1
  importance : ℚ := 1 / 2
  expiresAt : Option Time := none
  reason : Option String := none
  keyStripped : strip key = key
  keyNonblank : key ≠ ""
  valueNonblank : value ≠ ""
  confidenceUnit : 0 ≤ confidence ∧ confidence ≤ 1
  importanceUnit : 0 ≤ importance ∧ importance ≤ 1

/-- `MemoryWrite(...)` with the default confidence and importance, as
`save_user_memory` calls it. -/
def MemoryWrite.make (key value : String) (sourceAgentId sourceSessionId sourceTraceId :
    Option String) (reason : Option String) : Except String MemoryWrite :=
  if hkey : strip key = "" then .error "memory key is required"
  else if hvalue : strip value = "" then .error "memory value is required"
  else .ok {
    key := strip key
    value := strip value
    sourceAgentId := sourceAgentId
    sourceSessionId := sourceSessionId
    sourceTraceId := sourceTraceId
    reason := reason
    keyStripped := strip_strip key
    keyNonblank := hkey
    valueNonblank := hvalue
    confidenceUnit := defaultConfidence_unit
    importanceUnit := defaultImportance_unit }

/-- A constructed write is explicit, and without an end. -/
theorem MemoryWrite.make_spec {key value : String} {memory : MemoryWrite}
    {sourceAgentId sourceSessionId sourceTraceId reason : Option String}
    (h : MemoryWrite.make key value sourceAgentId sourceSessionId sourceTraceId reason
      = .ok memory) :
    memory.sourceKind = .explicit ∧ memory.expiresAt = none
      ∧ memory.sourceAgentId = sourceAgentId := by
  unfold MemoryWrite.make at h
  split at h
  · cases h
  · split at h
    · cases h
    · obtain rfl := Except.ok.inj h
      exact ⟨rfl, rfl, rfl⟩

/-! ## Candidates -/

inductive CandidateOperation where
  | upsert
  | forget
deriving DecidableEq, Repr

inductive EvidenceType where
  | explicitFact
  | explicitInstruction
  | inferred
deriving DecidableEq, Repr

structure MemoryCandidate where
  operation : CandidateOperation
  nameSpace : String
  key : String
  value : Option String := none
  memoryType : MemoryType := .semantic
  evidenceType : EvidenceType := .explicitFact
  confidence : ℚ := 0
  importance : ℚ := 1 / 2
  updateIntent : Bool := false
  ttlDays : Option Nat := none
  rationale : Option String := none
  sourceAgentId : Option String := none
  sourceSessionId : Option String := none
  sourceTraceId : Option String := none
  candidateId : Option String := none
  nameSpaceNonblank : strip nameSpace ≠ ""
  keyStripped : strip key = key
  keyNonblank : key ≠ ""
  valueStripped : ∀ text, value = some text → strip text = text
  upsertValue : operation = .upsert → value.any (· ≠ "") = true
  confidenceUnit : 0 ≤ confidence ∧ confidence ≤ 1
  importanceUnit : 0 ≤ importance ∧ importance ≤ 1

end Aegora
