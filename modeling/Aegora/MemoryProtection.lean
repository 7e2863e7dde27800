import Aegora.MemoryLifecycle
import Aegora.MemoryMigration

/-!
# What candidates must not change

Runs of saves, candidates and sweeps over one store. `saved` remembers the
identities that the user has saved explicitly, and `replaced` those whose saved
row a candidate with the right to has replaced or forgotten since. While every
save leaves an explicit row behind and every lookup finds what is protected, a
candidate without that right changes no saved value, and none changes a row of
the tenant.
-/

namespace Aegora

open Py Runs

/-! ## Runs -/

structure LifecycleState where
  tables : MemoryTables
  saved : List MemoryIdentity := []
  replaced : List MemoryIdentity := []

def MemoryStore.start (store : MemoryStore) : LifecycleState where
  tables := store.tables

inductive LifecycleOp where
  | save (request : SaveRequest) (key value : String) (outcome : CallOutcome) (now : Time)
  | candidate (policy : CandidatePolicy) (calls : CandidateCalls) (scope : MemoryScope)
      (governance : MemoryGovernance) (candidate : MemoryCandidate)
  | sweep (tenantId : Option String) (limit : Int) (now : Time)

/-- The memory a save addresses. -/
def savedIdentity (request : SaveRequest) (key value : String) : List MemoryIdentity :=
  match saveTarget request key value with
  | .ok (.inl (scope, memory)) => [scope.identity memory.key]
  | _ => []

/-- The candidate may replace or forget what the user has saved. -/
def mayReplace (policy : CandidatePolicy) (candidate : MemoryCandidate) : Bool :=
  candidate.operation = .forget || mayOverride policy candidate

def lifecycleStep (service : MemoryService) (s : LifecycleState) :
    LifecycleOp → Option LifecycleState
  | .save request key value outcome now =>
      match saveUserMemory service request key value outcome now s.tables with
      | .error _ => some s
      | .ok (t, result) =>
          let identities := savedIdentity request key value
          some (if result.saved then
              ⟨t, identities ++ s.saved, s.replaced.filter (· ∉ identities)⟩
            else { s with tables := t })
  | .candidate policy calls scope governance candidate =>
      match resolveMemoryCandidate service policy calls scope governance candidate s.tables with
      | .error _ => some s
      | .ok (t, _) =>
          let changed := s.saved.filter fun identity =>
            t.current identity ≠ s.tables.current identity
          some ⟨t, s.saved, if mayReplace policy candidate then changed ++ s.replaced
            else s.replaced⟩
  | .sweep tenantId limit now => some { s with tables := (expireDue tenantId limit now s.tables).1 }

/-! ## Protected memories and where a value is written back -/

/-- The value that `get_current` finds under an identity. -/
def currentValue (t : MemoryTables) (now : Time) (identity : MemoryIdentity) : Option String :=
  ((t.current identity).filter (MemoryRow.unexpired now)).map MemoryRow.content

/-- The user has saved the memory, or its current row is the tenant's. -/
def Protected (s : LifecycleState) (identity : MemoryIdentity) : Prop :=
  identity ∈ s.saved
    ∨ ∃ row, s.tables.current identity = some row ∧ row.sourceKind = .tenant

/-- A candidate changes no protected value that it has no right to, and no row
of the tenant. -/
def RespectsProtected (service : MemoryService) (s : LifecycleState) : LifecycleOp → Prop
  | .candidate policy calls scope governance candidate =>
      ∀ s', lifecycleStep service s (.candidate policy calls scope governance candidate)
          = some s' →
        (candidate.operation = .upsert → mayOverride policy candidate = false →
          ∀ identity, Protected s identity → ∀ now value,
            currentValue s.tables now identity = some value →
              currentValue s'.tables now identity = some value)
        ∧ ∀ row ∈ s.tables.rows, row.sourceKind = .tenant → row ∈ s'.tables.rows
  | _ => True

def SourceKind.guarded (kind : SourceKind) : Prop := kind = .explicit ∨ kind = .tenant

/-- A save that is acknowledged does not end on a row that only repeats it, from
an automatic or a legacy source. An upsert that meets a row of the tenant, or
without the right to a saved one, finds it: the lookup does not fail and the
row's time is not over. And the saved row is still there. -/
def FindsProtected (s : LifecycleState) : LifecycleOp → Prop
  | .save request key value outcome _ =>
      ∀ scope memory, saveTarget request key value = .ok (.inl (scope, memory)) →
        outcome = .done → ∀ row, s.tables.current (scope.identity memory.key) = some row →
          sameMemory memory row = true → row.sourceKind.guarded
  | .candidate policy calls scope governance candidate =>
      candidate.operation = .upsert →
        ∀ effective, candidateScope scope governance candidate = .ok (.inl effective) →
          ∀ row, s.tables.current (effective.identity candidate.key) = some row →
            row.sourceKind = .tenant
                ∨ mayOverride policy candidate = false
                  ∧ effective.identity candidate.key ∈ s.saved →
              calls.lookup = true ∧ row.unexpired calls.lookupTime = true
                ∧ (row.sourceKind = .tenant ∨ effective.identity candidate.key ∉ s.replaced)
  | .sweep _ _ _ => True

/-- What a saved memory rests on. -/
structure Guarded (s : LifecycleState) : Prop where
  constrained : Constrained s.tables
  rows : ∀ identity ∈ s.saved, identity ∉ s.replaced → ∃ row,
    s.tables.current identity = some row ∧ row.validUntil = none ∧ row.sourceKind.guarded

/-! ## What a candidate does -/

section Resolve

variable {service : MemoryService} {policy : CandidatePolicy} {calls : CandidateCalls}
  {scope : MemoryScope} {governance : MemoryGovernance} {candidate : MemoryCandidate}
  {t t' : MemoryTables} {decision : MemoryCandidateDecision}

variable (service scope t) in
theorem service_remember_tables (outcome : CallOutcome) (memory : MemoryWrite) (now : Time) :
    (service.remember outcome scope memory now t).1 = t
      ∨ (service.hasProvider = true
        ∧ (service.remember outcome scope memory now t).1
          = (remember service.floats scope memory now t).1) := by
  unfold MemoryService.remember
  cases service.writeEnabled <;> cases service.hasProvider <;> cases outcome <;> simp

variable (service scope t) in
theorem service_forget_tables (outcome : CallOutcome) (key : String) (now : Time) :
    (service.forget outcome scope key now t).1 = t
      ∨ (service.forget outcome scope key now t).1 = (forget scope key now t).1 := by
  unfold MemoryService.forget
  cases service.writeEnabled <;> cases service.hasProvider <;> cases outcome <;> simp

/-- An upsert writes only past the conflict check. -/
theorem resolveUpsert_tables
    (h : resolveUpsertCandidate service policy calls scope candidate t = .ok (t', decision)) :
    t' = t
      ∨ (service.hasProvider = true
        ∧ upsertConflict policy candidate
          (service.getCurrent calls.lookup scope candidate.key calls.lookupTime t) = none
        ∧ ∃ memory, memory.key = candidate.key
          ∧ t' = (remember service.floats scope memory calls.writeTime t).1) := by
  unfold resolveUpsertCandidate at h
  split at h
  · cases h
    exact Or.inl rfl
  · dsimp only at h
    split at h
    · cases h
      exact Or.inl rfl
    · rename_i hconflict
      split at h
      · rename_i hvalue
        have ht : t' = (service.remember calls.write scope
            (candidateWrite scope candidate (candidate.value.getD "") calls.clock hvalue)
            calls.writeTime t).1 := by
          split at h <;> cases h <;> rfl
        rw [ht]
        rcases service_remember_tables service scope t calls.write _ calls.writeTime with
          heq | ⟨hprovider, heq⟩
        · exact Or.inl heq
        · exact Or.inr ⟨hprovider, hconflict, _, rfl, heq⟩
      · cases h

variable (service policy calls scope candidate t) in
/-- A forget takes away only what the lookup found not to be the tenant's. -/
theorem resolveForget_tables :
    (resolveForgetCandidate service policy calls scope candidate t).1 = t
      ∨ ∃ item, service.getCurrent calls.lookup scope candidate.key calls.lookupTime t
          = some item
        ∧ item.sourceKind ≠ "tenant"
        ∧ (resolveForgetCandidate service policy calls scope candidate t).1
          = (forget scope candidate.key calls.writeTime t).1 := by
  unfold resolveForgetCandidate
  split
  · exact Or.inl rfl
  · split
    · exact Or.inl rfl
    · cases hfound : service.getCurrent calls.lookup scope candidate.key calls.lookupTime t with
      | none => exact Or.inl rfl
      | some item =>
          dsimp only
          split
          · exact Or.inl rfl
          · rename_i htenant
            rcases service_forget_tables service scope t calls.write candidate.key
              calls.writeTime with heq | heq
            · exact Or.inl heq
            · exact Or.inr ⟨item, rfl, htenant, heq⟩

/-- What one candidate can do to the tables. -/
inductive CandidateEffect (service : MemoryService) (policy : CandidatePolicy)
    (calls : CandidateCalls) (scope : MemoryScope) (governance : MemoryGovernance)
    (candidate : MemoryCandidate) (t : MemoryTables) : MemoryTables → Prop where
  | nothing : CandidateEffect service policy calls scope governance candidate t t
  | upsert (effective : MemoryScope) (memory : MemoryWrite)
      (operation : candidate.operation = .upsert)
      (target : candidateScope scope governance candidate = .ok (.inl effective))
      (provider : service.hasProvider = true)
      (conflict : upsertConflict policy candidate
        (service.getCurrent calls.lookup effective candidate.key calls.lookupTime t) = none)
      (key : memory.key = candidate.key) :
      CandidateEffect service policy calls scope governance candidate t
        (remember service.floats effective memory calls.writeTime t).1
  | forget (effective : MemoryScope) (item : MemoryItem)
      (operation : candidate.operation = .forget)
      (found : service.getCurrent calls.lookup effective candidate.key calls.lookupTime t
        = some item)
      (ordinary : item.sourceKind ≠ "tenant") :
      CandidateEffect service policy calls scope governance candidate t
        (Aegora.forget effective candidate.key calls.writeTime t).1

theorem candidate_effect
    (h : resolveMemoryCandidate service policy calls scope governance candidate t
      = .ok (t', decision)) :
    CandidateEffect service policy calls scope governance candidate t t' := by
  obtain ⟨namespacePolicy, -, h⟩ := bind_eq_ok.mp h
  obtain ⟨target, htarget, h⟩ := bind_eq_ok.mp h
  cases target with
  | inr reason =>
      cases h
      exact .nothing
  | inl effective =>
      dsimp only at h
      split at h
      · cases h
        exact .nothing
      · split at h
        · cases h
          exact .nothing
        · split at h
          · cases h
            exact .nothing
          · split at h
            · rename_i hoperation
              have ht := congrArg Prod.fst (Except.ok.inj h)
              rcases resolveForget_tables service policy calls effective candidate t with
                heq | ⟨item, hfound, hordinary, heq⟩
              · rw [show t' = t from ht.symm.trans heq]
                exact .nothing
              · rw [show t' = _ from ht.symm.trans heq]
                exact .forget effective item hoperation hfound hordinary
            · rename_i hoperation
              rcases resolveUpsert_tables h with rfl | ⟨hprovider, hconflict, memory, hkey, rfl⟩
              · exact .nothing
              · exact .upsert effective memory hoperation htarget hprovider hconflict hkey

/-- A lookup that does not fail finds the active row whose time is not over. -/
theorem service_getCurrent (h : Constrained t) {lookup : Bool} {key : String} {now : Time}
    {row : MemoryRow} (hprovider : service.hasProvider = true) (hlookup : lookup = true)
    (hstripped : strip key = key) (hnonblank : key ≠ "")
    (hcurrent : t.current (scope.identity key) = some row)
    (hunexpired : row.unexpired now = true) :
    service.getCurrent lookup scope key now t = some (rowToItem service.floats row) := by
  unfold MemoryService.getCurrent
  rw [getCurrent_eq h, hstripped, if_neg hnonblank, hcurrent, hprovider, hlookup,
    Option.filter_some, if_pos hunexpired]
  rfl

theorem service_getCurrent_row (h : Constrained t) {lookup : Bool} {key : String} {now : Time}
    {item : MemoryItem} (hstripped : strip key = key)
    (hfound : service.getCurrent lookup scope key now t = some item) :
    ∃ row, t.current (scope.identity key) = some row
      ∧ item = rowToItem service.floats row := by
  unfold MemoryService.getCurrent at hfound
  split at hfound
  · obtain ⟨row, hrow, rfl⟩ := Option.map_eq_some_iff.mp hfound
    rw [getCurrent_eq h, hstripped] at hrow
    split at hrow
    · cases hrow
    · exact ⟨row, (Option.filter_eq_some_iff.mp hrow).1, rfl⟩
  · cases hfound

/-- Past the conflict check the item is not the tenant's, and an explicit one
may be overridden. -/
theorem upsertConflict_none {item : MemoryItem}
    (h : upsertConflict policy candidate (some item) = none) :
    item.sourceKind ≠ "tenant"
      ∧ (item.sourceKind = "explicit" → mayOverride policy candidate = true) := by
  unfold upsertConflict at h
  dsimp only at h
  split at h
  · cases h
  · split at h
    · cases h
    · rename_i htenant
      split at h
      · cases h
      · rename_i hintent
        split at h
        · cases h
        · rename_i hconfident
          refine ⟨htenant, fun hexplicit => ?_⟩
          unfold mayOverride
          rw [Bool.and_eq_true, Bool.not_eq_true', decide_eq_false_iff_not]
          exact ⟨by simpa using fun hfalse => hintent ⟨hexplicit, hfalse⟩,
            fun hlow => hconfident ⟨hexplicit, hlow⟩⟩

theorem mem_retire_of_not {p : MemoryRow → Bool} {out : MemoryRow → MemoryRow} {row : MemoryRow}
    (hrow : row ∈ t.rows) (hp : p row = false) : row ∈ VersionedTable.retire p out t.rows :=
  VersionedTable.mem_retire.mpr (Or.inl ⟨hrow, hp⟩)

/-- `remember` only touches the current row of its identity. -/
theorem mem_remember (h : Constrained t) {env : FloatEnv} {memory : MemoryWrite} {now : Time}
    {row : MemoryRow} (hrow : row ∈ t.rows)
    (hother : t.current (scope.identity memory.key) ≠ some row) :
    row ∈ (remember env scope memory now t).1.rows := by
  rcases remember_cases env scope memory now t with ⟨_, -, -, heq⟩ | ⟨-, heq⟩
  · rw [heq]
    exact hrow
  · rw [heq, insertVersion_rows]
    refine List.mem_append_left _ (mem_retire_of_not hrow ?_)
    simp only [Option.any_eq_false, decide_eq_false_iff_not]
    intro old hold hsame
    rw [h.same_id hrow (current_spec hold).1 hsame] at hother
    exact hother hold

theorem mem_forget (h : Constrained t) {key : String} {now : Time} {row : MemoryRow}
    (hrow : row ∈ t.rows) (hother : t.current (scope.identity (strip key)) ≠ some row) :
    row ∈ (forget scope key now t).1.rows := by
  unfold forget
  split
  · exact hrow
  · refine mem_retire_of_not hrow ?_
    by_contra hp
    rw [Bool.not_eq_false, Bool.and_eq_true, decide_eq_true_eq] at hp
    exact hother (h.current_iff.mpr ⟨hrow, hp⟩)

variable {saved replaced : List MemoryIdentity}

/-- No candidate touches a row of the tenant. -/
theorem effect_tenant (h : Constrained t)
    (heffect : CandidateEffect service policy calls scope governance candidate t t')
    (hfinds : FindsProtected ⟨t, saved, replaced⟩
      (.candidate policy calls scope governance candidate))
    {row : MemoryRow} (hrow : row ∈ t.rows) (htenant : row.sourceKind = .tenant) :
    row ∈ t'.rows := by
  cases heffect with
  | nothing => exact hrow
  | upsert effective memory operation target provider conflict key =>
      refine mem_remember h hrow fun hcurrent => ?_
      rw [key] at hcurrent
      obtain ⟨hlookup, hunexpired, -⟩ :=
        hfinds operation effective target row hcurrent (Or.inl htenant)
      rw [service_getCurrent h provider hlookup candidate.keyStripped candidate.keyNonblank
        hcurrent hunexpired] at conflict
      exact (upsertConflict_none conflict).1 (by simp [rowToItem, htenant, SourceKind.text])
  | forget effective item operation found ordinary =>
      refine mem_forget h hrow fun hcurrent => ?_
      rw [candidate.keyStripped] at hcurrent
      obtain ⟨other, hother, rfl⟩ := service_getCurrent_row h candidate.keyStripped found
      cases hcurrent.symm.trans hother
      exact ordinary (by simp [rowToItem, htenant, SourceKind.text])

/-- An upsert without the right to leaves the protected row it meets. -/
theorem effect_protected (hguarded : Guarded ⟨t, saved, replaced⟩)
    (heffect : CandidateEffect service policy calls scope governance candidate t t')
    (hfinds : FindsProtected ⟨t, saved, replaced⟩
      (.candidate policy calls scope governance candidate))
    (hoperation : candidate.operation = .upsert)
    (hoverride : mayOverride policy candidate = false) {identity : MemoryIdentity}
    (hprotected : Protected ⟨t, saved, replaced⟩ identity) {row : MemoryRow}
    (hrow : t.current identity = some row) : t'.current identity = some row := by
  have h := hguarded.constrained
  cases heffect with
  | nothing => exact hrow
  | forget effective item operation found ordinary =>
      rw [hoperation] at operation
      cases operation
  | upsert effective memory operation target provider conflict key =>
      rw [remember_current h, key, if_neg]
      · exact hrow
      · rintro rfl
        have hshielded : row.sourceKind = .tenant
            ∨ effective.identity candidate.key ∈ saved :=
          hprotected.symm.imp (fun ⟨other, hother, htenant⟩ => by
            cases hrow.symm.trans hother
            exact htenant) id
        obtain ⟨hlookup, hunexpired, hstays⟩ := hfinds operation effective target row hrow
          (hshielded.imp id fun hsaved => ⟨hoverride, hsaved⟩)
        rw [service_getCurrent h provider hlookup candidate.keyStripped candidate.keyNonblank
          hrow hunexpired] at conflict
        obtain ⟨hordinary, hexplicit⟩ := upsertConflict_none conflict
        have hnotTenant : row.sourceKind ≠ .tenant := fun htenant =>
          hordinary (by simp [rowToItem, htenant, SourceKind.text])
        obtain ⟨other, hother, -, hkind⟩ := hguarded.rows _
          (hshielded.resolve_left hnotTenant) (hstays.resolve_left hnotTenant)
        cases hrow.symm.trans hother
        have hoverridden := hexplicit (by
          simp [rowToItem, hkind.resolve_right hnotTenant, SourceKind.text])
        rw [hoverridden] at hoverride
        cases hoverride

theorem effect_constrained (h : Constrained t)
    (heffect : CandidateEffect service policy calls scope governance candidate t t') :
    Constrained t' := by
  cases heffect with
  | nothing => exact h
  | upsert effective memory operation target provider conflict key => exact remember_constrained h
  | forget effective item operation found ordinary => exact forget_constrained h candidate.key

end Resolve

/-! ## Runs keep what is saved -/

section Steps

variable {service : MemoryService} {s s' : LifecycleState}

theorem saveTarget_explicit {request : SaveRequest} {key value : String} {scope : MemoryScope}
    {memory : MemoryWrite} (h : saveTarget request key value = .ok (.inl (scope, memory))) :
    memory.sourceKind = .explicit ∧ memory.expiresAt = none := by
  unfold saveTarget at h
  split at h
  · cases h
  · obtain ⟨policy, -, h⟩ := bind_eq_ok.mp h
    split at h
    · cases h
    · obtain ⟨memoryScope, -, h⟩ := bind_eq_ok.mp h
      obtain ⟨target, -, h⟩ := bind_eq_ok.mp h
      obtain ⟨written, hwritten, h⟩ := bind_eq_ok.mp h
      cases h
      obtain ⟨hkind, hexpires, -⟩ := MemoryWrite.make_spec hwritten
      exact ⟨hkind, hexpires⟩

/-- A save that is acknowledged has written. -/
theorem service_remember_saved {outcome : CallOutcome} {scope : MemoryScope}
    {memory : MemoryWrite} {now : Time} {t : MemoryTables}
    (h : (service.remember outcome scope memory now t).2.saved = true) :
    outcome = .done ∧ (service.remember outcome scope memory now t).1
      = (remember service.floats scope memory now t).1 := by
  unfold MemoryService.remember at h ⊢
  split
  · rw [if_pos (by assumption)] at h
    cases h
  · rw [if_neg (by assumption)] at h
    cases outcome with
    | done => exact ⟨rfl, rfl⟩
    | rolledBack => cases h
    | unacknowledged => cases h

/-- After an explicit save the current row of its identity is explicit, or the
one it repeats. -/
theorem remember_explicit (env : FloatEnv) (scope : MemoryScope) {memory : MemoryWrite}
    (now : Time) (t : MemoryTables) (hkind : memory.sourceKind = .explicit)
    (hexpires : memory.expiresAt = none) :
    (remember env scope memory now t).2.validUntil = none
      ∧ ((remember env scope memory now t).2.sourceKind.guarded
        ∨ ∃ row, t.current (scope.identity memory.key) = some row
          ∧ sameMemory memory row = true ∧ (remember env scope memory now t).2 = row) := by
  refine ⟨remember_row.2.1.trans hexpires, ?_⟩
  rcases remember_cases env scope memory now t with ⟨row, hrow, hsame, heq⟩ | ⟨-, heq⟩
  · exact Or.inr ⟨row, hrow, hsame, by rw [heq]⟩
  · rw [heq]
    exact Or.inl (Or.inl hkind)

/-- What a save can do: nothing, write without an acknowledgement, or write and
note the identity. -/
theorem save_cases {request : SaveRequest} {key value : String} {outcome : CallOutcome}
    {now : Time}
    (hstep : lifecycleStep service s (.save request key value outcome now) = some s') :
    s' = s
      ∨ ∃ scope memory, saveTarget request key value = .ok (.inl (scope, memory))
        ∧ (s' = { s with tables := (remember service.floats scope memory now s.tables).1 }
          ∨ (outcome = .done
            ∧ s' = ⟨(remember service.floats scope memory now s.tables).1,
              scope.identity memory.key :: s.saved,
              s.replaced.filter (· ≠ scope.identity memory.key)⟩)) := by
  simp only [lifecycleStep, saveUserMemory] at hstep
  cases htarget : saveTarget request key value with
  | error reason =>
      rw [htarget] at hstep
      cases hstep
      exact Or.inl rfl
  | ok target =>
      rw [htarget] at hstep
      cases target with
      | inr reason =>
          cases hstep
          exact Or.inl rfl
      | inl target =>
          obtain ⟨scope, memory⟩ := target
          have heq : s' = if (service.remember outcome scope memory now s.tables).2.saved = true
              then ⟨(service.remember outcome scope memory now s.tables).1,
                savedIdentity request key value ++ s.saved,
                s.replaced.filter (· ∉ savedIdentity request key value)⟩
              else { s with tables := (service.remember outcome scope memory now s.tables).1 } :=
            (Option.some.inj hstep).symm
          by_cases hsaved : (service.remember outcome scope memory now s.tables).2.saved = true
          · obtain ⟨houtcome, htables⟩ := service_remember_saved hsaved
            refine Or.inr ⟨scope, memory, rfl, Or.inr ⟨houtcome, ?_⟩⟩
            rw [heq, if_pos hsaved, htables, savedIdentity, htarget]
            simp only [List.mem_singleton, List.singleton_append, ne_eq]
          · rw [if_neg hsaved] at heq
            rcases service_remember_tables service scope s.tables outcome memory now with
              htables | ⟨-, htables⟩
            · rw [heq, htables]
              exact Or.inl rfl
            · rw [heq, htables]
              exact Or.inr ⟨scope, memory, rfl, Or.inl rfl⟩

theorem guarded_save {request : SaveRequest} {key value : String} {outcome : CallOutcome}
    {now : Time} (h : Guarded s) (hfinds : FindsProtected s (.save request key value outcome now))
    (hstep : lifecycleStep service s (.save request key value outcome now) = some s') :
    Guarded s' := by
  rcases save_cases hstep with rfl | ⟨scope, memory, htarget, hwritten⟩
  · exact h
  obtain ⟨hkind, hexpires⟩ := saveTarget_explicit htarget
  obtain ⟨hforever, hrow⟩ := remember_explicit service.floats scope now s.tables hkind hexpires
  have hconstrained : Constrained (remember service.floats scope memory now s.tables).1 :=
    remember_constrained h.constrained
  rcases hwritten with rfl | ⟨houtcome, rfl⟩
  · refine ⟨hconstrained, fun identity hid hstays => ?_⟩
    obtain ⟨old, hold, hrest⟩ := h.rows identity hid hstays
    rw [remember_current h.constrained]
    split
    · rename_i hsame
      refine ⟨_, rfl, hforever, hrow.elim id ?_⟩
      rintro ⟨row, hcurrent, -, heq⟩
      rw [hsame, hcurrent] at hold
      cases hold
      rw [heq]
      exact hrest.2
    · exact ⟨old, hold, hrest⟩
  · refine ⟨hconstrained, fun identity hid hstays => ?_⟩
    rw [remember_current h.constrained]
    split
    · refine ⟨_, rfl, hforever, hrow.elim id ?_⟩
      rintro ⟨row, hcurrent, hsame, heq⟩
      rw [heq]
      exact hfinds scope memory htarget houtcome row hcurrent hsame
    · rename_i hother
      refine h.rows identity ((List.mem_cons.mp hid).resolve_left hother) fun hreplaced => ?_
      exact hstays (List.mem_filter.mpr ⟨hreplaced, decide_eq_true hother⟩)

theorem guarded_candidate {policy : CandidatePolicy} {calls : CandidateCalls}
    {scope : MemoryScope} {governance : MemoryGovernance} {candidate : MemoryCandidate}
    (h : Guarded s)
    (hfinds : FindsProtected s (.candidate policy calls scope governance candidate))
    (hstep : lifecycleStep service s (.candidate policy calls scope governance candidate)
      = some s') : Guarded s' := by
  simp only [lifecycleStep] at hstep
  split at hstep
  · cases hstep
    exact h
  · rename_i t decision hresolve
    cases hstep
    have heffect := candidate_effect hresolve
    refine ⟨effect_constrained h.constrained heffect, fun identity hid hstays => ?_⟩
    dsimp only at hid hstays ⊢
    split at hstays
    · rename_i hright
      rw [List.mem_append, not_or, List.mem_filter] at hstays
      obtain ⟨hsame, hstays⟩ := hstays
      have hkept : t.current identity = s.tables.current identity := by
        by_contra hchanged
        exact hsame ⟨hid, decide_eq_true hchanged⟩
      rw [hkept]
      exact h.rows identity hid hstays
    · rename_i hright
      rw [mayReplace, Bool.or_eq_true, decide_eq_true_eq, not_or, Bool.not_eq_true] at hright
      obtain ⟨row, hrow, hrest⟩ := h.rows identity hid hstays
      have hoperation : candidate.operation = .upsert := by
        cases hop : candidate.operation with
        | upsert => rfl
        | forget => exact absurd hop hright.1
      exact ⟨row, effect_protected h heffect hfinds hoperation hright.2 (Or.inl hid) hrow, hrest⟩

/-- A row without an end is never due. -/
theorem guarded_sweep {tenantId : Option String} {limit : Int} {now : Time} (h : Guarded s) :
    Guarded { s with tables := (expireDue tenantId limit now s.tables).1 } := by
  refine ⟨expireDue_constrained h.constrained tenantId limit, fun identity hid hstays => ?_⟩
  obtain ⟨row, hrow, hforever, hguarded⟩ := h.rows identity hid hstays
  refine ⟨row, ?_, hforever, hguarded⟩
  rw [expireDue_current h.constrained, hrow, Option.filter_some, if_pos]
  refine decide_eq_true fun hdue => ?_
  have hover := (mem_dueRows hdue).2
  simp [MemoryRow.due, hforever] at hover

theorem guarded_step {op : LifecycleOp} (h : Guarded s) (hfinds : FindsProtected s op)
    (hstep : lifecycleStep service s op = some s') : Guarded s' := by
  cases op with
  | save request key value outcome now => exact guarded_save h hfinds hstep
  | candidate policy calls scope governance candidate =>
      exact guarded_candidate h hfinds hstep
  | sweep tenantId limit now =>
      cases hstep
      exact guarded_sweep h

theorem respects_step {op : LifecycleOp} (h : Guarded s) (hfinds : FindsProtected s op) :
    RespectsProtected service s op := by
  cases op with
  | save request key value outcome now => trivial
  | sweep tenantId limit now => trivial
  | candidate policy calls scope governance candidate =>
      intro s' hstep
      simp only [lifecycleStep] at hstep
      split at hstep
      · cases hstep
        exact ⟨fun _ _ _ _ _ _ hvalue => hvalue, fun _ hrow _ => hrow⟩
      · rename_i t decision hresolve
        cases hstep
        have heffect := candidate_effect hresolve
        refine ⟨fun hoperation hoverride identity hprotected now value hvalue => ?_,
          fun row hrow htenant => effect_tenant h.constrained heffect hfinds hrow htenant⟩
        obtain ⟨row, hrow, rfl⟩ := Option.map_eq_some_iff.mp hvalue
        obtain ⟨hcurrent, hunexpired⟩ := Option.filter_eq_some_iff.mp hrow
        have hkept := effect_protected h heffect hfinds hoperation hoverride hprotected hcurrent
        rw [currentValue, hkept, Option.filter_some, if_pos hunexpired]
        rfl

end Steps

theorem MemoryStore.guarded (store : MemoryStore) : Guarded store.start :=
  ⟨store.constrained, fun _ hid => absurd hid List.not_mem_nil⟩

/-- In a run whose saves and candidates find what is protected, no candidate changes a
protected value without the right to, or a row of the tenant. `saved` and `replaced` keep track
of what is protected, and the condition is about the state before each step. -/
theorem candidates_respect_protected (service : MemoryService) (store : MemoryStore)
    (ops : List LifecycleOp)
    (h : Meets (lifecycleStep service) FindsProtected store.start ops) :
    Meets (lifecycleStep service) (RespectsProtected service) store.start ops := by
  rw [meets_iff]
  rintro before op after s rfl hrun
  have hguarded : Guarded s :=
    run_invariant (fun _ _ _ hs hfinds hstep => guarded_step hs hfinds hstep) store.guarded
      (meets_append h).1 hrun
  exact respects_step hguarded (meets_at h hrun)

/-! ### Runs -/

def plainService : MemoryService where
  floats := exactFloats
  toFloat := fun _ => none
  lower := id

/-- The user keeps a city in mind, explicitly. -/
def saveCity (value : String) (now : Time) : LifecycleOp :=
  .save ⟨some "s1", some "u1", none, []⟩ "city" value .done now

theorem preferences_nonblank : strip "preferences" ≠ "" := by
  decide

theorem certain_unit : (0 : ℚ) ≤ 99 / 100 ∧ (99 / 100 : ℚ) ≤ 1 := by
  decide +kernel

/-- A candidate for the same key, without the intent to update it. -/
def cityCandidate (value : String) (hvalue : strip value = value ∧ value ≠ "") :
    MemoryCandidate where
  operation := .upsert
  nameSpace := "preferences"
  key := "city"
  value := some value
  confidence := 99 / 100
  nameSpaceNonblank := preferences_nonblank
  keyStripped := city_stripped
  keyNonblank := city_nonblank
  valueStripped := by
    rintro _ ⟨⟩
    exact hvalue.1
  upsertValue := fun _ => by simpa using hvalue.2
  confidenceUnit := certain_unit
  importanceUnit := defaultImportance_unit

/-- The candidate is resolved; `lookup` tells whether `get_current` succeeds. -/
def proposeCity (candidate : MemoryCandidate) (lookup : Bool) (now : Time) : LifecycleOp :=
  .candidate ⟨9 / 10, 49 / 50, fun _ _ => false⟩ ⟨lookup, .done, now, now, now⟩
    (preferences "default") {} candidate

def lyon : MemoryCandidate := cityCandidate "Lyon" (by decide)

def paris : MemoryCandidate := cityCandidate "Paris" (by decide)

theorem candidates_respect_protected_savedCity :
    Meets (lifecycleStep plainService) (RespectsProtected plainService) emptyStore.start
      [saveCity "Lyon" 1, proposeCity paris true 2] := by
  refine candidates_respect_protected plainService emptyStore _
    ⟨fun _ _ _ _ row hrow => ?_, fun s hs => ⟨fun _ effective _ row hrow _ => ?_,
      fun _ _ => trivial⟩⟩
  · cases hrow
  · have hstate : (lifecycleStep plainService emptyStore.start (saveCity "Lyon" 1)).all
        (fun s => decide (s.replaced = [] ∧ ∀ row ∈ s.tables.rows, row.validUntil = none))
        = true := by decide +kernel
    rw [hs, Option.all_some, decide_eq_true_eq] at hstate
    refine ⟨rfl, ?_, Or.inr (by rw [hstate.1]; exact List.not_mem_nil)⟩
    rw [MemoryRow.unexpired, hstate.2 row (current_spec hrow).1]
    rfl

/-- The row of a tenant, whose time ends at 5. -/
def tenantStore : MemoryStore where
  tables := {
    rows := [{ backfilledRow 0 "u1" "city" "Lyon" 1 with
      sourceKind := .tenant, validUntil := some 5 }]
    nextId := 2 }
  constrained := by
    refine ⟨by decide, by decide, ?_, by decide, by decide, by decide⟩
    unfold VersionedTable.UniqueLive
    decide

/-- The candidate changes the value that the user has saved. -/
def overridesSaved (identity : MemoryIdentity) (value : String) (now : Time)
    (op : LifecycleOp) (s : LifecycleState) : Bool :=
  identity ∈ s.saved && currentValue s.tables now identity = some value
    && (lifecycleStep plainService s op).any fun s' =>
      currentValue s'.tables now identity ≠ some value

theorem overridesSaved_not_meets (before : List LifecycleOp) (identity : MemoryIdentity)
    (value : String) {candidate : MemoryCandidate} {lookup : Bool} {now : Time}
    (hoperation : candidate.operation = .upsert) (hintent : candidate.updateIntent = false)
    (h : (run (lifecycleStep plainService) emptyStore.start before).any
      (overridesSaved identity value now (proposeCity candidate lookup now)) = true) :
    ¬ Meets (lifecycleStep plainService) (RespectsProtected plainService) emptyStore.start
      (before ++ [proposeCity candidate lookup now]) := by
  obtain ⟨s, hs, hover⟩ := (Option.any_eq_true _ _).mp h
  simp only [overridesSaved, Bool.and_eq_true, decide_eq_true_eq, Option.any_eq_true] at hover
  obtain ⟨⟨hsaved, hvalue⟩, s', hstep, hchanged⟩ := hover
  intro hmeets
  have hright : mayOverride ⟨9 / 10, 49 / 50, fun _ _ => false⟩ candidate = false := by
    rw [mayOverride, hintent, Bool.false_and]
  exact hchanged ((meets_at hmeets hs s' hstep).1 hoperation hright identity (Or.inl hsaved) now
    value hvalue)

/-- Runs that change what is protected: an explicit save that repeats an
automatic value, a lookup that fails, and a row of the tenant whose time is
over. -/
theorem candidates_override_protected :
    ¬ Meets (lifecycleStep plainService) (RespectsProtected plainService) emptyStore.start
        [proposeCity lyon true 1, saveCity "Lyon" 2, proposeCity paris true 3]
      ∧ ¬ Meets (lifecycleStep plainService) (RespectsProtected plainService) emptyStore.start
        [saveCity "Lyon" 1, proposeCity paris false 2]
      ∧ ¬ Meets (lifecycleStep plainService) (RespectsProtected plainService) tenantStore.start
        [proposeCity paris true 6] := by
  refine ⟨overridesSaved_not_meets [proposeCity lyon true 1, saveCity "Lyon" 2]
      (legacyIdentity "u1" "city") "Lyon" rfl rfl (by decide +kernel),
    overridesSaved_not_meets [saveCity "Lyon" 1] (legacyIdentity "u1" "city") "Lyon" rfl rfl
      (by decide +kernel), ?_⟩
  rintro ⟨hrespects, -⟩
  have hgone : (lifecycleStep plainService tenantStore.start (proposeCity paris true 6)).any
      (fun s => decide (∃ row ∈ tenantStore.tables.rows,
        row.sourceKind = .tenant ∧ row ∉ s.tables.rows)) = true := by decide +kernel
  obtain ⟨s, hs, hgone⟩ := (Option.any_eq_true _ _).mp hgone
  obtain ⟨row, hrow, htenant, hgone⟩ := of_decide_eq_true hgone
  exact hgone ((hrespects s hs).2 row hrow htenant)

end Aegora
