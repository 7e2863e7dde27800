import Aegora.MemoryProtection

/-!
# Forgetting on request

A user who asks the agent to forget something is heard through a candidate of
the extraction. The check for sensitive terms stands before the operation, so
it also stops the deletion of a memory whose key holds such a term.

`forget_candidate_applied` is about all other requests: the memory is gone,
and the backfill does not bring it back.
-/

namespace Aegora

open Py

section Forget

variable {service : MemoryService} {policy : CandidatePolicy} {calls : CandidateCalls}
  {scope effective : MemoryScope} {governance : MemoryGovernance} {candidate : MemoryCandidate}
  {t : MemoryTables} {row : MemoryRow}

/-- No call of the provider fails. -/
structure ProviderWorks (service : MemoryService) (calls : CandidateCalls) : Prop where
  provider : service.hasProvider = true
  lookup : calls.lookup = true
  write : calls.write = .done

/-- The user asks to forget a memory that is there and is not the tenant's: the row `row`, found
in the scope `effective`. -/
structure AskedToForget (policy : CandidatePolicy) (calls : CandidateCalls) (scope : MemoryScope)
    (governance : MemoryGovernance) (candidate : MemoryCandidate) (t : MemoryTables)
    (effective : MemoryScope) (row : MemoryRow) : Prop where
  operation : candidate.operation = .forget
  evidence : candidate.evidenceType = .explicitInstruction
  confident : policy.forgetThreshold ≤ candidate.confidence
  mode : ∃ namespacePolicy, governance.policyFor candidate.nameSpace = .ok namespacePolicy
    ∧ namespacePolicy.mode ≠ .tenantRequired
  target : candidateScope scope governance candidate = .ok (.inl effective)
  current : t.current (effective.identity candidate.key) = some row
  unexpired : row.unexpired calls.lookupTime = true
  ordinary : row.sourceKind ≠ .tenant

/-- What is left of a memory: no row that is read, and no fact to fill it in again. -/
structure Forgotten (effective : MemoryScope) (key : String) (t : MemoryTables) : Prop where
  current : t.current (effective.identity key) = none
  lookup : ∀ now, getCurrent effective key now t = none
  fact : effective.legacy = true → t.fact effective.userId key = none

/-- A forget of a row that is there leaves nothing of it. -/
theorem forget_forgotten (ht : Constrained t) {key : String} (hstripped : strip key = key)
    (hkey : key ≠ "") (hrow : t.current (effective.identity key) = some row) (now : Time) :
    (forget effective key now t).2 = true
      ∧ Forgotten effective key (forget effective key now t).1 := by
  have hblank : strip key ≠ "" := by
    rw [hstripped]
    exact hkey
  have hcurrent : (forget effective key now t).1.current (effective.identity key) = none := by
    rw [forget_current ht hblank, hstripped, if_pos rfl]
  refine ⟨?_, hcurrent, fun later => ?_, fun hlegacy => ?_⟩
  · unfold forget
    rw [if_neg hblank, hstripped]
    dsimp only
    rw [hrow]
    rfl
  · rw [getCurrent_eq (forget_constrained ht key), hstripped, if_neg hkey, hcurrent]
    rfl
  · rw [forget_fact hblank, hstripped, hrow]
    exact if_pos ⟨rfl, hlegacy, rfl, rfl⟩

theorem tenant_text_ne {kind : SourceKind} (h : kind ≠ .tenant) : kind.text ≠ "tenant" := by
  revert h
  cases kind <;> decide

/-- The candidate is applied, and the memory is gone. -/
def ForgetsMemory (service : MemoryService) (policy : CandidatePolicy) (calls : CandidateCalls)
    (scope : MemoryScope) (governance : MemoryGovernance) (candidate : MemoryCandidate)
    (t : MemoryTables) (effective : MemoryScope) : Prop :=
  ∃ t' decision, resolveMemoryCandidate service policy calls scope governance candidate t
      = .ok (t', decision)
    ∧ decision.status = .applied ∧ Forgotten effective candidate.key t'

theorem resolveForget_applied (ht : Constrained t) (hworks : ProviderWorks service calls)
    (henabled : service.writeEnabled = true)
    (hasked : AskedToForget policy calls scope governance candidate t effective row) :
    ∃ t', resolveForgetCandidate service policy calls effective candidate t
        = (t', decideAs candidate .applied "automatic_explicit_forget" none)
      ∧ Forgotten effective candidate.key t' := by
  have hfound := service_getCurrent ht hworks.provider hworks.lookup candidate.keyStripped
    candidate.keyNonblank hasked.current hasked.unexpired
  obtain ⟨hchanged, hforgotten⟩ := forget_forgotten ht candidate.keyStripped
    candidate.keyNonblank hasked.current calls.writeTime
  have hwritten : service.forget calls.write effective candidate.key calls.writeTime t
      = forget effective candidate.key calls.writeTime t := by
    unfold MemoryService.forget
    rw [henabled, hworks.provider, hworks.write]
    rfl
  have hkind : (rowToItem service.floats row).sourceKind ≠ "tenant" :=
    tenant_text_ne hasked.ordinary
  refine ⟨_, ?_, hforgotten⟩
  unfold resolveForgetCandidate
  rw [if_neg (not_not.mpr hasked.evidence), if_neg (not_lt.mpr hasked.confident), hfound]
  dsimp only
  rw [if_neg hkind, hwritten, hchanged]
  rfl

/-- A forget that the user asked for is applied, unless the candidate holds a sensitive term:
the memory is gone, and the backfill does not bring it back. -/
theorem forget_candidate_applied (ht : Constrained t) (hworks : ProviderWorks service calls)
    (henabled : service.writeEnabled = true)
    (hasked : AskedToForget policy calls scope governance candidate t effective row)
    (hinsensitive : containsSensitiveMemory service.lower candidate = false) :
    ForgetsMemory service policy calls scope governance candidate t effective := by
  obtain ⟨t', hresolved, hforgotten⟩ := resolveForget_applied ht hworks henabled hasked
  obtain ⟨namespacePolicy, hpolicy, hmode⟩ := hasked.mode
  refine ⟨t', decideAs candidate .applied "automatic_explicit_forget" none, ?_, rfl, hforgotten⟩
  have hexplicit : candidate.evidenceType ≠ .inferred := by
    rw [hasked.evidence]
    decide
  unfold resolveMemoryCandidate
  rw [hpolicy, hasked.target]
  simp only [bind, Except.bind]
  rw [if_neg hmode, if_neg hexplicit, hinsensitive, if_neg Bool.false_ne_true, hasked.operation,
    hresolved]
  rfl

end Forget

/-! ### Notes to forget -/

/-- What the user asked to keep. -/
def noteMemory (key : String) (hkey : strip key = key ∧ key ≠ "") : MemoryWrite where
  key := key
  value := "1234"
  keyStripped := hkey.1
  keyNonblank := hkey.2
  valueNonblank := by decide
  confidenceUnit := defaultConfidence_unit
  importanceUnit := defaultImportance_unit

/-- A candidate to forget it again. -/
def forgetNote (key : String) (hkey : strip key = key ∧ key ≠ "") : MemoryCandidate where
  operation := .forget
  nameSpace := "preferences"
  key := key
  evidenceType := .explicitInstruction
  confidence := 99 / 100
  nameSpaceNonblank := preferences_nonblank
  keyStripped := hkey.1
  keyNonblank := hkey.2
  valueStripped := by rintro _ ⟨⟩
  upsertValue := by rintro ⟨⟩
  confidenceUnit := certain_unit
  importanceUnit := defaultImportance_unit

def noteTables (key : String) (hkey : strip key = key ∧ key ≠ "") : MemoryTables :=
  (remember exactFloats (preferences "default") (noteMemory key hkey) 1 emptyStore.tables).1

def notePolicy : CandidatePolicy := ⟨9 / 10, 49 / 50, fun _ _ => false⟩

def noteCalls : CandidateCalls := ⟨true, .done, 2, 2, 2⟩

theorem noteCalls_work (service : MemoryService) (h : service.hasProvider = true) :
    ProviderWorks service noteCalls := ⟨h, rfl, rfl⟩

/-- The scope in which the candidate is resolved. -/
def noteScope : MemoryScope :=
  { preferences "default" with agentId := some "a1", agent := fun h => by cases h }

instance : DecidableEq MemoryScope := fun _ _ =>
  decidable_of_iff' _ MemoryScope.ext_iff

theorem note_policy : MemoryGovernance.policyFor { agentId := some "a1" } "preferences"
    = .ok ⟨"preferences", .userControlled, false, by decide⟩ := by
  decide +kernel

theorem note_target : candidateScope (preferences "default") { agentId := some "a1" }
    (forgetNote "city" (by decide)) = .ok (.inl noteScope) := by
  decide +kernel

theorem note_asked {key : String} (hkey : strip key = key ∧ key ≠ "") :
    AskedToForget notePolicy noteCalls (preferences "default") { agentId := some "a1" }
      (forgetNote key hkey) (noteTables key hkey) noteScope
      (remember exactFloats (preferences "default") (noteMemory key hkey) 1
        emptyStore.tables).2 where
  operation := rfl
  evidence := rfl
  confident := show (49 / 50 : ℚ) ≤ 99 / 100 by decide +kernel
  mode := ⟨⟨"preferences", .userControlled, false, by decide⟩, note_policy, by decide⟩
  target := note_target
  current := by
    unfold noteTables
    rw [remember_current emptyStore.constrained]
    exact if_pos rfl
  unexpired := rfl
  ordinary := SourceKind.noConfusion

theorem forget_candidate_applied_city :
    ForgetsMemory plainService notePolicy noteCalls (preferences "default")
      { agentId := some "a1" } (forgetNote "city" (by decide)) (noteTables "city" (by decide))
      noteScope :=
  forget_candidate_applied (remember_constrained emptyStore.constrained)
    (noteCalls_work plainService rfl) rfl (note_asked _) (by decide +kernel)

/-- A password is not forgotten, and nothing is where writing is disabled. -/
theorem sensitive_forget_rejected :
    (¬ ∀ (service : MemoryService) (policy : CandidatePolicy) (calls : CandidateCalls)
        (scope : MemoryScope) (governance : MemoryGovernance) (candidate : MemoryCandidate)
        (t : MemoryTables) (effective : MemoryScope) (row : MemoryRow),
      Constrained t → ProviderWorks service calls → service.writeEnabled = true →
        AskedToForget policy calls scope governance candidate t effective row →
          ForgetsMemory service policy calls scope governance candidate t effective)
    ∧ ¬ ∀ (service : MemoryService) (policy : CandidatePolicy) (calls : CandidateCalls)
        (scope : MemoryScope) (governance : MemoryGovernance) (candidate : MemoryCandidate)
        (t : MemoryTables) (effective : MemoryScope) (row : MemoryRow),
      Constrained t → ProviderWorks service calls →
        containsSensitiveMemory service.lower candidate = false →
        AskedToForget policy calls scope governance candidate t effective row →
          ForgetsMemory service policy calls scope governance candidate t effective := by
  constructor
  · intro h
    obtain ⟨t', decision, hresolved, happlied, -⟩ := h plainService notePolicy noteCalls
      (preferences "default") { agentId := some "a1" } (forgetNote "password" (by decide))
      (noteTables "password" (by decide)) noteScope _ (remember_constrained emptyStore.constrained)
      (noteCalls_work plainService rfl) rfl (note_asked _)
    have hrejected : (resolveMemoryCandidate plainService notePolicy noteCalls
        (preferences "default") { agentId := some "a1" } (forgetNote "password" (by decide))
        (noteTables "password" (by decide))).toOption.map (·.2.status) = some .rejected := by
      decide +kernel
    rw [hresolved] at hrejected
    exact absurd (happlied.symm.trans (Option.some.inj hrejected)) (by decide)
  · intro h
    obtain ⟨t', decision, hresolved, happlied, -⟩ := h { plainService with writeEnabled := false }
      notePolicy noteCalls (preferences "default") { agentId := some "a1" }
      (forgetNote "city" (by decide)) (noteTables "city" (by decide)) noteScope _
      (remember_constrained emptyStore.constrained) (noteCalls_work _ rfl) (by decide +kernel)
      (note_asked _)
    have hkept : (resolveMemoryCandidate { plainService with writeEnabled := false } notePolicy
        noteCalls (preferences "default") { agentId := some "a1" }
        (forgetNote "city" (by decide)) (noteTables "city" (by decide))).toOption.map
        (·.2.status) = some .needsReview := by
      decide +kernel
    rw [hresolved] at hkept
    exact absurd (happlied.symm.trans (Option.some.inj hkept)) (by decide)

end Aegora
