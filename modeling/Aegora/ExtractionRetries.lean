import Aegora.ExtractionAccounts

/-!
# Extraction runs after one another

A run that fails in the middle of a message leaves the candidates before that
point decided, and the next run takes the message up again from its first
candidate. Such a candidate meets its row and is decided once more, now
against the memory that it wrote itself.

`applied_rows_stay` and `applied_rows_faithful` are about sequences of runs
between which the memories may change, with any call of the store failing.
-/

namespace Aegora

open Py Handlers Runs

/-! ## What one candidate does to the tables -/

/-- The identity of the row that a message's candidate gets. -/
def MessageTurn.identity (turn : MessageTurn) (candidate : MemoryCandidate) :
    CandidateIdentity where
  tenantId := if turn.governance.tenantId = "" then "default" else turn.governance.tenantId
  subjectUserId := turn.userId
  sourceTraceId := candidate.sourceTraceId.getD ""
  nameSpace := candidate.nameSpace
  memoryKey := candidate.key
  operation := candidate.operation

/-- A candidate's scope, as the loop builds it. -/
def MessageTurn.ScopeOf (turn : MessageTurn) (candidate : MemoryCandidate) (scope : MemoryScope) :
    Prop :=
  ∃ proposedScope, writeScopeFor turn.governance candidate.nameSpace = .ok proposedScope
    ∧ MemoryScope.make turn.userId turn.sessionId turn.agentId (some turn.governance.tenantId)
      candidate.nameSpace proposedScope = .ok scope

theorem MessageTurn.ScopeOf.identity {turn : MessageTurn} {candidate : MemoryCandidate}
    {scope : MemoryScope} (h : turn.ScopeOf candidate scope) :
    queuedIdentity scope candidate = turn.identity candidate := by
  obtain ⟨proposedScope, -, hmake⟩ := h
  obtain ⟨huser, htenant, -⟩ := MemoryScope.make_spec hmake
  have hstripped : strip turn.userId = turn.userId := rawText_stripped _ _ _
  unfold queuedIdentity MessageTurn.identity MemoryScope.tenant
  rw [huser, htenant, hstripped]

/-- The decision about a queued candidate, and the memories it leaves. -/
inductive Judged (settings : ExtractionSettings) (calls : CandidateCalls) (scope : MemoryScope)
    (governance : MemoryGovernance) (candidate : MemoryCandidate) (t : MemoryTables) :
    MemoryTables → MemoryCandidateDecision → Prop where
  | deferred : Judged settings calls scope governance candidate t t
      (decideAs candidate .needsReview "auto_apply_disabled" none)
  | resolved {t' : MemoryTables} {decision : MemoryCandidateDecision}
      (auto : settings.autoApply = true)
      (h : resolveMemoryCandidate settings.service settings.policy calls scope governance
        candidate t = .ok (t', decision)) :
      Judged settings calls scope governance candidate t t' decision

/-- What one pass of the loop leaves of the tables, however its calls end. -/
inductive PassEffect (settings : ExtractionSettings) (turn : MessageTurn)
    (entry : MemoryCandidate × ℕ) (db : ExtractionDb) : ExtractionDb → Prop where
  | nothing : PassEffect settings turn entry db db
  | dry {scope : MemoryScope} {t : MemoryTables} {decision : MemoryCandidateDecision}
      (judged : Judged settings (turn.faults entry.2).calls scope turn.governance entry.1
        db.memories t decision) :
      PassEffect settings turn entry db { db with memories := t }
  | queued {scope : MemoryScope} {proposedScope : String} :
      PassEffect settings turn entry db
        (db.insertCandidate settings.service.floats scope entry.1 proposedScope)
  | judged {scope : MemoryScope} {proposedScope : String} {t : MemoryTables}
      {decision : MemoryCandidateDecision} {queued : MemoryCandidate}
      (judged : Judged settings (turn.faults entry.2).calls scope turn.governance queued
        db.memories t decision) :
      PassEffect settings turn entry db
        { db.insertCandidate settings.service.floats scope entry.1 proposedScope with
          memories := t }
  | decided {scope : MemoryScope} {proposedScope : String} {t : MemoryTables}
      {decision : MemoryCandidateDecision}
      (wet : settings.dryRun = false)
      (target : turn.ScopeOf entry.1 scope)
      (judged : Judged settings (turn.faults entry.2).calls scope turn.governance
        { entry.1 with candidateId := some (toString (db.queuedId scope entry.1)) }
        db.memories t decision) :
      PassEffect settings turn entry db
        (ExtractionDb.decideCandidate (db.queuedId scope entry.1) decision
          { db.insertCandidate settings.service.floats scope entry.1 proposedScope with
            memories := t })

theorem insertCandidate_memories (db : ExtractionDb) (floats : FloatEnv) (scope : MemoryScope)
    (candidate : MemoryCandidate) (proposedScope : String) :
    (db.insertCandidate floats scope candidate proposedScope).memories = db.memories := by
  unfold ExtractionDb.insertCandidate
  split <;> rfl

theorem after_bind_cases {α β : Type} (m : Extraction α) (f : α → Extraction β)
    (s : ExtractionState) :
    after (m >>= f) s = after m s
      ∨ ∃ a, outcome m s = .ok a ∧ after (m >>= f) s = after (f a) (after m s) := by
  cases h : outcome m s with
  | error e => exact Or.inl (after_bind_of_stops ⟨e, h⟩ f)
  | ok a => exact Or.inr ⟨a, rfl, after_bind_ok h⟩

section Pass

variable {settings : ExtractionSettings} {turn : MessageTurn} {s : ExtractionState}

/-- What only reads the state leaves the tables to what follows. -/
theorem after_checked_bind {α β : Type} (result : Except String α) (f : α → Extraction β)
    (s : ExtractionState) :
    after (checked result >>= f) s = s
      ∨ ∃ a, result = .ok a ∧ after (checked result >>= f) s = after (f a) s := by
  cases result with
  | error text => exact Or.inl rfl
  | ok a => exact Or.inr ⟨a, rfl, rfl⟩

theorem commit_cases (outcome : CallOutcome) (write : ExtractionDb → ExtractionDb)
    (s : ExtractionState) :
    Returns (commit outcome write) s () { s with db := write s.db }
      ∨ ∃ e t, Raises (commit outcome write) s e t ∧ (t.db = s.db ∨ t.db = write s.db) := by
  cases outcome with
  | done => exact Or.inl (returns_modify _ s)
  | rolledBack => exact Or.inr ⟨_, s, raises_throw _ s, Or.inl rfl⟩
  | unacknowledged =>
      exact Or.inr ⟨_, _, (returns_modify _ s).bind_raises (raises_throw _ _), Or.inr rfl⟩

theorem after_commit (outcome : CallOutcome) (write : ExtractionDb → ExtractionDb)
    (s : ExtractionState) :
    (after (commit outcome write) s).db = s.db
      ∨ (after (commit outcome write) s).db = write s.db := by
  rcases commit_cases outcome write s with ⟨-, hafter⟩ | ⟨e, t, ⟨-, hafter⟩, hdb⟩
  · exact Or.inr (congrArg ExtractionState.db hafter)
  · rw [hafter]
    exact hdb

variable (settings) in
/-- `enqueue` returns the candidate with the id of its row, or raises. -/
theorem enqueue_cases (outcome : CallOutcome) (scope : MemoryScope) (candidate : MemoryCandidate)
    (proposedScope : String) (s : ExtractionState) :
    Returns (enqueue settings outcome scope candidate proposedScope) s
        { candidate with candidateId := some (toString (s.db.queuedId scope candidate)) }
        { s with
          db := s.db.insertCandidate settings.service.floats scope candidate proposedScope }
      ∨ ∃ e t, Raises (enqueue settings outcome scope candidate proposedScope) s e t
        ∧ (t.db = s.db
          ∨ t.db = s.db.insertCandidate settings.service.floats scope candidate proposedScope) := by
  unfold enqueue
  rcases commit_cases outcome
    (·.insertCandidate settings.service.floats scope candidate proposedScope) s with
    hreturns | ⟨e, t, hraises, hdb⟩
  · exact Or.inl (Returns.bind (returns_get s) (hreturns.bind (returns_pure _ _)))
  · exact Or.inr ⟨e, t, Returns.bind_raises (returns_get s) (hraises.bind _), hdb⟩

theorem chooseDecision_judged (calls : CandidateCalls) (scope : MemoryScope)
    (governance : MemoryGovernance) (candidate : MemoryCandidate) (s : ExtractionState) :
    ∃ decision t, Judged settings calls scope governance candidate s.db.memories t decision
      ∧ Returns (chooseDecision settings calls scope governance candidate) s decision
        { s with db := { s.db with memories := t } } := by
  unfold chooseDecision
  cases hauto : settings.autoApply with
  | false => exact ⟨_, _, .deferred, returns_pure _ s⟩
  | true =>
      obtain ⟨result, hresult⟩ := resolveMemoryCandidate_total settings.service settings.policy
        calls scope governance candidate s.db.memories
      have hchecked : Returns (checked (resolveMemoryCandidate settings.service settings.policy
          calls scope governance candidate s.db.memories)) s result s := by
        rw [hresult]
        exact returns_pure result s
      exact ⟨result.2, result.1, .resolved hauto hresult, (returns_get s).bind
        (hchecked.bind ((returns_modify _ s).bind (returns_pure result.2 _)))⟩

/-- A decision changes the memories, and then at most the row of the candidate. -/
theorem after_candidateDecision (faults : CandidateFaults) (scope : MemoryScope)
    (governance : MemoryGovernance) (candidate : MemoryCandidate) (s : ExtractionState) :
    ∃ decision t, Judged settings faults.calls scope governance candidate s.db.memories t decision
      ∧ ((after (candidateDecision settings faults scope governance candidate) s).db
          = { s.db with memories := t }
        ∨ settings.dryRun = false ∧ ∃ id, candidate.candidateId.bind intOfText = some id
          ∧ (after (candidateDecision settings faults scope governance candidate) s).db
            = ExtractionDb.decideCandidate id decision { s.db with memories := t }) := by
  obtain ⟨decision, t, hjudged, hchosen, hafter⟩ :=
    chooseDecision_judged faults.calls scope governance candidate s
  refine ⟨decision, t, hjudged, ?_⟩
  unfold candidateDecision
  rw [after_bind_ok hchosen, hafter]
  have hmarked : (after (unlessDry settings (markDecision faults.mark candidate decision) >>=
      fun _ => pure decision) { s with db := { s.db with memories := t } })
      = after (unlessDry settings (markDecision faults.mark candidate decision))
        { s with db := { s.db with memories := t } } := by
    rcases after_bind_cases (unlessDry settings (markDecision faults.mark candidate decision))
      (fun _ => pure decision) { s with db := { s.db with memories := t } } with h | ⟨_, -, h⟩ <;>
      exact h
  rw [hmarked]
  unfold unlessDry
  cases hdry : settings.dryRun with
  | true => exact Or.inl rfl
  | false =>
      rw [if_neg Bool.false_ne_true]
      unfold markDecision
      cases hid : candidate.candidateId.bind intOfText with
      | none => exact Or.inl rfl
      | some id =>
          rcases after_commit faults.mark (·.decideCandidate id decision)
            { s with db := { s.db with memories := t } } with h | h
          · exact Or.inl h
          · exact Or.inr ⟨rfl, id, rfl, h⟩

theorem processCandidate_effect (entry : MemoryCandidate × ℕ) (s : ExtractionState) :
    PassEffect settings turn entry s.db (after (processCandidate settings turn entry) s).db := by
  unfold processCandidate
  dsimp only
  rcases after_checked_bind (writeScopeFor turn.governance entry.1.nameSpace) _ s with
    h | ⟨proposedScope, hproposed, h⟩
  · rw [h]
    exact .nothing
  rw [h]
  rcases after_checked_bind (MemoryScope.make turn.userId turn.sessionId turn.agentId
    (some turn.governance.tenantId) entry.1.nameSpace proposedScope) _ s with h | ⟨scope, hscope, h⟩
  · rw [h]
    exact .nothing
  rw [h]
  have htarget : turn.ScopeOf entry.1 scope := ⟨proposedScope, hproposed, hscope⟩
  have htail : ∀ (queued : MemoryCandidate) (u : ExtractionState),
      (after (candidateDecision settings (turn.faults entry.2) scope turn.governance queued >>=
        fun decision => modify fun s =>
          { s with
            metrics := s.metrics.count decision.status
            items := s.items ++ [turn.item queued decision] }) u).db
        = (after (candidateDecision settings (turn.faults entry.2) scope turn.governance
          queued) u).db := by
    intro queued u
    rcases after_bind_cases (candidateDecision settings (turn.faults entry.2) scope
      turn.governance queued) (fun decision => modify fun s =>
        { s with
          metrics := s.metrics.count decision.status
          items := s.items ++ [turn.item queued decision] }) u with h | ⟨_, -, h⟩
    · rw [h]
    · rw [h]
      rfl
  unfold queueCandidate
  cases hdry : settings.dryRun with
  | true =>
      rw [if_pos rfl, after_bind_ok (outcome_pure entry.1 s), after_pure, htail]
      obtain ⟨decision, t, hjudged, hdb | ⟨hwet, -⟩⟩ := after_candidateDecision
        (turn.faults entry.2) scope turn.governance entry.1 s
      · rw [hdb]
        exact .dry hjudged
      · rw [hdry] at hwet
        cases hwet
  | false =>
      rw [if_neg Bool.false_ne_true]
      rcases enqueue_cases settings (turn.faults entry.2).enqueue scope entry.1
        proposedScope s with hqueued | ⟨e, t, hqueued, hdb⟩
      · rw [after_bind_ok hqueued.1, hqueued.2, htail]
        have hmemories : (s.db.insertCandidate settings.service.floats scope entry.1
            proposedScope).memories = s.db.memories := insertCandidate_memories ..
        obtain ⟨decision, t, hjudged, hdb⟩ := after_candidateDecision (turn.faults entry.2) scope
          turn.governance
          { entry.1 with candidateId := some (toString (s.db.queuedId scope entry.1)) }
          { s with
            db := s.db.insertCandidate settings.service.floats scope entry.1 proposedScope }
        dsimp only at hjudged
        rw [hmemories] at hjudged
        rcases hdb with hdb | ⟨hwet, _, hid, hdb⟩
        · rw [hdb]
          exact .judged hjudged
        · rw [Option.bind_some, intOfText_toString] at hid
          obtain rfl := Option.some.inj hid
          rw [hdb]
          exact .decided hwet htarget hjudged
      · rw [after_bind_of_stops ⟨e, hqueued.1⟩, hqueued.2]
        rcases hdb with hdb | hdb
        · rw [hdb]
          exact .nothing
        · rw [hdb]
          exact .queued

end Pass

/-! ## Conditions on the passes of a run -/

/-- A condition on a candidate that a message proposes, in the state it is taken up in. -/
abbrev PassCondition := MessageTurn → ExtractionState → MemoryCandidate × ℕ → Prop

/-- The state once the candidates of a message are counted. -/
def ExtractionState.proposing (s : ExtractionState) (count : ℕ) : ExtractionState :=
  { s with metrics :=
      { s.metrics with
        messagesProcessed := s.metrics.messagesProcessed + 1
        candidates := s.metrics.candidates + count } }

/-- The passes over the candidates of a message meet `C`. -/
def ExtractMeets (C : PassCondition) (settings : ExtractionSettings) (turn : MessageTurn)
    (s : ExtractionState) : Prop :=
  ∀ candidates, turn.candidates settings.env = .ok candidates →
    Along (C turn) (processCandidate settings turn) (s.proposing candidates.length)
      candidates.zipIdx

/-- Unless the message is passed over, its candidates meet `C`. -/
def MessageMeets (C : PassCondition) (settings : ExtractionSettings) (s : ExtractionState)
    (turn : MessageTurn) : Prop :=
  turn.Eligible → outcome (readCompleted settings turn) s = .ok false →
    ExtractMeets C settings turn s

/-- The state in which a run begins with its messages. -/
def scanState (settings : ExtractionSettings) (now : Time) (turns : List MessageTurn)
    (db : ExtractionDb) : ExtractionState where
  db := (expireMemories settings now db).1
  metrics :=
    { expiredMemories := (expireMemories settings now db).2
      messagesScanned := turns.length }

/-- All candidates that a run takes up meet `C`. -/
def RunMeets (C : PassCondition) (settings : ExtractionSettings) (now : Time)
    (turns : List MessageTurn) (db : ExtractionDb) : Prop :=
  settings.enabled = true →
    Along (MessageMeets C settings) (runMessage settings) (scanState settings now turns db) turns

section Invariant

variable {I : ExtractionDb → Prop} {C : PassCondition} {settings : ExtractionSettings}
  {turn : MessageTurn} {s : ExtractionState}

theorem unlessDry_invariant {act : Extraction Unit} (hs : I s.db)
    (hact : I (after act s).db) : I (after (unlessDry settings act) s).db := by
  unfold unlessDry
  split
  · exact hs
  · exact hact

variable (settings) in
theorem record_invariant (hrecord : ∀ db row, I db → I (db.recordMessage row))
    (outcome : CallOutcome) (row : ExtractionRow) (hs : I s.db) :
    I (after (unlessDry settings (commit outcome (·.recordMessage row))) s).db := by
  refine unlessDry_invariant hs ?_
  rcases after_commit outcome (·.recordMessage row) s with h | h <;> rw [h]
  · exact hs
  · exact hrecord _ row hs

variable (hpass : ∀ s entry, I s.db → C turn s entry →
    I (after (processCandidate settings turn entry) s).db)
  (hrecord : ∀ db row, I db → I (db.recordMessage row))

include hpass hrecord

theorem extractMessage_invariant (hs : I s.db) (hmeets : ExtractMeets C settings turn s) :
    I (after (extractMessage settings turn) s).db := by
  unfold extractMessage proposed
  cases hcandidates : turn.candidates settings.env with
  | error raised => exact hs
  | ok candidates =>
      have hloop := each_invariant (I := fun s : ExtractionState => I s.db)
        hpass (s := s.proposing candidates.length) hs (hmeets candidates hcandidates)
      rcases after_bind_cases (each (processCandidate settings turn) candidates.zipIdx)
        (fun _ => unlessDry settings (commit turn.completed
          (·.recordMessage (turn.record settings .completed candidates.length none))))
        (s.proposing candidates.length) with h | ⟨_, -, h⟩
      · rw [← h] at hloop
        exact hloop
      · have hrecorded := record_invariant settings hrecord turn.completed
          (turn.record settings .completed candidates.length none) hloop
        rw [← h] at hrecorded
        exact hrecorded

omit hpass in
theorem failMessage_invariant (error : String) (hs : I s.db) :
    I (after (failMessage settings turn error) s).db := by
  unfold failMessage tally
  rw [after_bind_ok (outcome_modify _ s), after_modify]
  exact record_invariant settings hrecord turn.failed _ hs

theorem runMessage_invariant (hs : I s.db) (hmeets : MessageMeets C settings s turn) :
    I (after (runMessage settings turn) s).db := by
  unfold runMessage
  split
  · exact hs
  rename_i hnamed
  split
  · exact hs
  rename_i howned
  have hread : after (readCompleted settings turn) s = s := by
    unfold readCompleted demand
    split
    · rfl
    · split <;> rfl
  rcases after_bind_cases (readCompleted settings turn) _ s with h | ⟨completed, hcompleted, h⟩
  · rw [h, hread]
    exact hs
  rw [h, hread]
  cases completed with
  | true =>
      rw [if_pos rfl]
      exact hs
  | false =>
      rw [if_neg Bool.false_ne_true]
      cases hpolicy : turn.policyAvailable with
      | false =>
          rw [if_pos (by decide)]
          exact hs
      | true =>
          have heligible : turn.Eligible :=
            ⟨fun htrace => hnamed (Or.inl htrace), fun huser => hnamed (Or.inr huser),
              Bool.eq_false_iff.mpr howned, hpolicy⟩
          have hextracted := extractMessage_invariant hpass hrecord hs
            (hmeets heligible hcompleted)
          rw [if_neg (by decide)]
          cases hout : outcome (extractMessage settings turn) s with
          | ok =>
              rw [after_rescue_ok hout]
              exact hextracted
          | error e =>
              rw [after_rescue_error hout]
              exact failMessage_invariant hrecord e hextracted

end Invariant

/-- What every pass under `C` keeps, a run whose passes meet `C` keeps. -/
theorem runMemoryExtraction_invariant {I : ExtractionDb → Prop} {C : PassCondition}
    {settings : ExtractionSettings}
    (hpass : ∀ turn s entry, I s.db → C turn s entry →
      I (after (processCandidate settings turn entry) s).db)
    (hrecord : ∀ db row, I db → I (db.recordMessage row))
    {now : Time} (hexpire : ∀ db, I db → I (expireMemories settings now db).1)
    {turns : List MessageTurn} {db : ExtractionDb} (hdb : I db)
    (hmeets : RunMeets C settings now turns db) :
    I (after (runMemoryExtraction settings now turns) { db := db }).db := by
  have hstart : I (scanState settings now turns db).db := hexpire db hdb
  show I (after (if settings.enabled then scanMessages settings turns else pure ())
    { db := (expireMemories settings now db).1
      metrics := { expiredMemories := (expireMemories settings now db).2 } }).db
  cases henabled : settings.enabled with
  | false => exact hstart
  | true =>
      exact each_invariant (I := fun s : ExtractionState => I s.db)
        (fun s turn hs hturn => runMessage_invariant (hpass turn) hrecord hs hturn)
        hstart (hmeets henabled)

/-! ## Runs after one another -/

/-- A run of the extraction, or a call of the memory provider between runs. -/
inductive RetryOp where
  | extraction (settings : ExtractionSettings) (now : Time) (turns : List MessageTurn)
  | memory (op : MemoryOp)

/-- A run stops at an exception; what it wrote stays. -/
def retryStep (floats : FloatEnv) (db : ExtractionDb) : RetryOp → Option ExtractionDb
  | .extraction settings now turns =>
      some (after (runMemoryExtraction settings now turns) { db := db }).db
  | .memory op => some { db with memories := applyOp floats db.memories op }

/-- The passes of a run meet the condition that goes with its settings. -/
def OpMeets (C : ExtractionSettings → PassCondition) (db : ExtractionDb) : RetryOp → Prop
  | .extraction settings now turns => RunMeets (C settings) settings now turns db
  | .memory _ => True

theorem expireMemories_memories (settings : ExtractionSettings) (now : Time) (db : ExtractionDb) :
    ∃ t, (expireMemories settings now db).1 = { db with memories := t }
      ∧ (t = db.memories
        ∨ ∃ limit, t = (expireDue none limit now db.memories).1) := by
  unfold expireMemories
  split
  · exact ⟨db.memories, rfl, Or.inl rfl⟩
  · exact ⟨_, rfl, Or.inr ⟨_, rfl⟩⟩

theorem expireMemories_candidates (settings : ExtractionSettings) (now : Time)
    (db : ExtractionDb) : (expireMemories settings now db).1.candidates = db.candidates := by
  obtain ⟨t, heq, -⟩ := expireMemories_memories settings now db
  rw [heq]

theorem judged_constrained {settings : ExtractionSettings} {calls : CandidateCalls}
    {scope : MemoryScope} {governance : MemoryGovernance} {candidate : MemoryCandidate}
    {t t' : MemoryTables} {decision : MemoryCandidateDecision} (h : Constrained t)
    (hjudged : Judged settings calls scope governance candidate t t' decision) :
    Constrained t' := by
  cases hjudged with
  | deferred => exact h
  | resolved _ hresolved => exact effect_constrained h (candidate_effect hresolved)

theorem ExtractionDb.Constrained.withMemories {db : ExtractionDb} (h : db.Constrained)
    {t : MemoryTables} (ht : Aegora.Constrained t) :
    ExtractionDb.Constrained { db with memories := t } :=
  { h with memories := ht }

theorem pass_constrained {settings : ExtractionSettings} {turn : MessageTurn}
    {entry : MemoryCandidate × ℕ} {db db' : ExtractionDb} (h : db.Constrained)
    (heffect : PassEffect settings turn entry db db') : db'.Constrained := by
  cases heffect with
  | nothing => exact h
  | dry judged => exact h.withMemories (judged_constrained h.memories judged)
  | queued => exact insertCandidate_constrained h
  | judged judged =>
      exact (insertCandidate_constrained h).withMemories (judged_constrained h.memories judged)
  | decided wet target judged =>
      exact decideCandidate_constrained ((insertCandidate_constrained h).withMemories
        (judged_constrained h.memories judged)) _ _

/-! ## Rows that are applied -/

def CandidateRow.applied (row : CandidateRow) : Prop := row.status = .decided .applied

/-- The candidate has no applied row that the pass would decide again. -/
def NotApplied (settings : ExtractionSettings) (turn : MessageTurn) (s : ExtractionState)
    (entry : MemoryCandidate × ℕ) : Prop :=
  settings.dryRun = false →
    ∀ row ∈ s.db.candidates, row.identity = turn.identity entry.1 → ¬ row.applied

/-- The applied rows of `db` are rows of `db'`. -/
def KeepsApplied (db db' : ExtractionDb) : Prop :=
  ∀ row ∈ db.candidates, row.applied → row ∈ db'.candidates

theorem pass_keepsApplied {settings : ExtractionSettings} {turn : MessageTurn}
    {entry : MemoryCandidate × ℕ} {s : ExtractionState} {db' : ExtractionDb}
    (h : s.db.Constrained) (hentry : NotApplied settings turn s entry)
    (heffect : PassEffect settings turn entry s.db db') : KeepsApplied s.db db' := by
  intro row hrow happlied
  cases heffect with
  | nothing => exact hrow
  | dry _ => exact hrow
  | queued => exact mem_insertCandidate hrow
  | judged _ => exact mem_insertCandidate hrow
  | decided wet target judged =>
      refine mem_decideCandidate (mem_insertCandidate hrow) ?_ _
      rw [Ne, Nat.cast_inj]
      intro hid
      have hidentity := queuedId_identity h hrow hid
      rw [target.identity] at hidentity
      exact hentry wet row hrow hidentity happlied

/-- What a condition on the passes keeps, a run of operations that meets it keeps. -/
theorem retries_invariant {floats : FloatEnv} {I : ExtractionDb → Prop}
    {C : ExtractionSettings → PassCondition}
    (hpass : ∀ settings turn s entry, I s.db → C settings turn s entry →
      I (after (processCandidate settings turn entry) s).db)
    (hrecord : ∀ db row, I db → I (db.recordMessage row))
    (hmemory : ∀ db op, I db → I { db with memories := applyOp floats db.memories op })
    {db t : ExtractionDb} {ops : List RetryOp} (hdb : I db)
    (hmeets : Meets (retryStep floats) (OpMeets C) db ops)
    (ht : run (retryStep floats) db ops = some t) : I t := by
  refine run_invariant (fun db op db' hI hC hstep => ?_) hdb hmeets ht
  cases op with
  | memory op =>
      cases hstep
      exact hmemory db op hI
  | extraction settings now turns =>
      cases hstep
      refine runMemoryExtraction_invariant (hpass settings) hrecord (fun db hI => ?_) hI hC
      obtain ⟨t, heq, rfl | ⟨limit, rfl⟩⟩ := expireMemories_memories settings now db <;> rw [heq]
      · exact hI
      · exact hmemory db (.expireDue none limit now) hI

/-- Applied rows stay as they are while no pass takes up a candidate whose row is applied. A
decision is written to the row of its own candidate only. -/
theorem applied_rows_stay (floats : FloatEnv) (db : ExtractionDb) (hdb : db.Constrained)
    (before later : List RetryOp)
    (hmeets : Meets (retryStep floats) (OpMeets NotApplied) db (before ++ later))
    (s t : ExtractionDb) (hs : run (retryStep floats) db before = some s)
    (ht : run (retryStep floats) s later = some t) : KeepsApplied s t := by
  obtain ⟨hbefore, hlater⟩ := meets_append hmeets
  have hconstrained : s.Constrained := retries_invariant (I := ExtractionDb.Constrained)
    (fun settings turn u entry hu _ => pass_constrained hu (processCandidate_effect entry u))
    (fun u row hu => recordMessage_constrained hu row)
    (fun u op hu => hu.withMemories (applyOp_constrained hu.memories op)) hdb hbefore hs
  refine (retries_invariant (I := fun u => u.Constrained ∧ KeepsApplied s u)
    (fun settings turn u entry hu hentry => ?_) (fun u row hu => ?_) (fun u op hu => ?_)
    ⟨hconstrained, fun row hrow _ => hrow⟩ (hlater s hs) ht).2
  · have heffect : PassEffect settings turn entry u.db
        (after (processCandidate settings turn entry) u).db := processCandidate_effect entry u
    exact ⟨pass_constrained hu.1 heffect, fun row hrow happlied =>
      pass_keepsApplied hu.1 hentry heffect row (hu.2 row hrow happlied) happlied⟩
  · refine ⟨recordMessage_constrained hu.1 row, fun old hold happlied => ?_⟩
    rw [recordMessage_candidates]
    exact hu.2 old hold happlied
  · exact ⟨hu.1.withMemories (applyOp_constrained hu.1.memories op), hu.2⟩

/-! ### Two runs over a message -/

def emptyQueue : ExtractionDb := { memories := emptyStore.tables }

theorem emptyQueue_constrained : emptyQueue.Constrained where
  memories := emptyStore.constrained
  ids := List.nodup_nil
  identities := List.nodup_nil
  fresh := fun _ h => by cases h

def jobRun : RetryOp := .extraction plainSettings 1 [jobTurn (.str "a1")]

/-- The queue once the job is decided. -/
def jobQueue : ExtractionDb :=
  (after (runMemoryExtraction plainSettings 1 [jobTurn (.str "a1")]) { db := emptyQueue }).db

/-- The second run finds the message completed. -/
theorem jobQueue_completed : (outcome (readCompleted plainSettings (jobTurn (.str "a1")))
    (scanState plainSettings 1 [jobTurn (.str "a1")] jobQueue)).toOption = some true := by
  decide +kernel

theorem jobRun_meets :
    Meets (retryStep plainService.floats) (OpMeets NotApplied) emptyQueue [jobRun, jobRun] := by
  refine ⟨fun _ => ⟨fun _ _ candidates hcandidates => ?_, fun _ => trivial⟩, fun db hdb => ?_⟩
  · have hnames := jobTurn_nameSpaces (.str "a1") (by decide)
    rw [hcandidates] at hnames
    have hlength : candidates.length = 1 := by
      simpa using congrArg List.length (Option.some.inj hnames)
    obtain ⟨candidate, rfl⟩ := List.length_eq_one_iff.mp hlength
    refine ⟨fun _ row hrow => ?_, fun _ => trivial⟩
    have hsame : (scanState plainSettings 1 [jobTurn (.str "a1")] emptyQueue).db.candidates
        = emptyQueue.candidates := expireMemories_candidates ..
    rw [ExtractionState.proposing, hsame] at hrow
    cases hrow
  · obtain rfl : jobQueue = db := Option.some.inj hdb
    refine ⟨fun _ => ⟨fun _ hread => ?_, fun _ => trivial⟩, fun _ _ => trivial⟩
    have hdone := jobQueue_completed
    rw [hread] at hdone
    exact absurd hdone (by decide)

theorem jobRun_once :
    run (retryStep plainService.floats) emptyQueue [jobRun] = some jobQueue :=
  run_cons_eq.mpr ⟨jobQueue, rfl, rfl⟩

theorem applied_rows_stay_job :
    ∃ t, run (retryStep plainService.floats) jobQueue [jobRun] = some t
      ∧ KeepsApplied jobQueue t := by
  obtain ⟨t, ht⟩ : ∃ t, run (retryStep plainService.floats) jobQueue [jobRun] = some t := ⟨_, rfl⟩
  exact ⟨t, ht, applied_rows_stay plainService.floats emptyQueue emptyQueue_constrained [jobRun]
    [jobRun] jobRun_meets jobQueue t jobRun_once ht⟩

/-! ### A message without an agent -/

/-- The model proposes a preference and a job. -/
def languageAnswer : Dict :=
  [("candidates", .arr
    [.obj [("operation", .str "upsert"), ("namespace", .str "preferences"), ("key", .str "tone"),
      ("value", .str "calm"), ("evidence_type", .str "explicit_fact")],
     .obj [("operation", .str "upsert"), ("namespace", .str "profile"), ("key", .str "job"),
      ("value", .str "nurse"), ("evidence_type", .str "explicit_fact")]])]

def languageTurn : MessageTurn := { jobTurn .null with answer := .ok languageAnswer }

def languageRun : RetryOp := .extraction plainSettings 1 [languageTurn]

theorem languageRun_once :
    (run (retryStep plainService.floats) emptyQueue [languageRun]).map
      (fun db => db.candidates.map fun row => (row.id, row.status, row.appliedMemoryId))
      = some [(1, .decided .applied, some 1)] := by
  decide +kernel

theorem languageRun_twice :
    (run (retryStep plainService.floats) emptyQueue [languageRun, languageRun]).map
      (fun db => db.candidates.map fun row => (row.id, row.status, row.appliedMemoryId))
      = some [(1, .decided .skipped, some 1)] := by
  decide +kernel

/-- The job has no scope, so the message fails and is retried; then the memory that the preference
wrote makes it a duplicate. -/
theorem retry_unapplies :
    ¬ ∀ (floats : FloatEnv) (db : ExtractionDb), db.Constrained →
      ∀ (before later : List RetryOp) (s t : ExtractionDb),
        run (retryStep floats) db before = some s → run (retryStep floats) s later = some t →
        ∀ row ∈ s.candidates, row.applied → ∃ kept ∈ t.candidates,
          kept.id = row.id ∧ kept.status = row.status
            ∧ kept.appliedMemoryId = row.appliedMemoryId := by
  intro h
  have honce := languageRun_once
  have htwice := languageRun_twice
  obtain ⟨s, hs, hcandidates⟩ := Option.map_eq_some_iff.mp honce
  obtain ⟨t, ht, hretried⟩ := Option.map_eq_some_iff.mp htwice
  have hboth : run (retryStep plainService.floats) emptyQueue ([languageRun] ++ [languageRun])
      = some t := ht
  obtain ⟨s', hs', ht'⟩ := run_append.mp hboth
  obtain rfl : s = s' := Option.some.inj (hs.symm.trans hs')
  have happlied : (1, .decided .applied, some 1) ∈ s.candidates.map fun row =>
      (row.id, row.status, row.appliedMemoryId) := by
    rw [hcandidates]
    exact List.mem_singleton_self _
  obtain ⟨row, hrow, heq⟩ := List.mem_map.mp happlied
  rw [Prod.mk.injEq, Prod.mk.injEq] at heq
  obtain ⟨kept, hkept, -, hstatus, -⟩ := h plainService.floats emptyQueue emptyQueue_constrained
    [languageRun] [languageRun] s t hs ht' row hrow heq.2.1
  have hskipped : kept.status ∈ (t.candidates.map fun row =>
      (row.id, row.status, row.appliedMemoryId)).map (·.2.1) := by
    rw [List.map_map]
    exact List.mem_map_of_mem hkept
  rw [hretried, hstatus, heq.2.1] at hskipped
  exact absurd hskipped (by decide)

/-! ## What applied rows say -/

/-- The ids and contents of the memories. -/
def MemoryTables.contents (t : MemoryTables) : List (ℕ × String) :=
  t.rows.map fun row => (row.id, row.content)

theorem contents_retire (t : MemoryTables) (p : MemoryRow → Bool) {out : MemoryRow → MemoryRow}
    (hout : ∀ row, ((out row).id, (out row).content) = (row.id, row.content)) :
    (VersionedTable.retire p out t.rows).map (fun row => (row.id, row.content)) = t.contents :=
  VersionedTable.map_retire hout

theorem supersedeCurrent_contents (now : Time) (t : MemoryTables) (identity : MemoryIdentity) :
    (supersedeCurrent now t identity).contents = t.contents :=
  contents_retire t _ fun _ => rfl

theorem remember_contents (floats : FloatEnv) (scope : MemoryScope) (memory : MemoryWrite)
    (now : Time) (t : MemoryTables) :
    t.contents ⊆ (remember floats scope memory now t).1.contents := by
  rcases remember_cases floats scope memory now t with ⟨_, -, -, heq⟩ | ⟨-, heq⟩
  · rw [heq]
    exact fun _ h => h
  · rw [heq]
    intro entry hentry
    have hkept : entry ∈ (supersedeCurrent now t (scope.identity memory.key)).contents := by
      rw [supersedeCurrent_contents]
      exact hentry
    unfold MemoryTables.contents
    rw [insertVersion_rows, List.map_append]
    exact List.mem_append_left _ hkept

theorem forget_contents (scope : MemoryScope) (key : String) (now : Time) (t : MemoryTables) :
    (forget scope key now t).1.contents = t.contents := by
  unfold forget
  split
  · rfl
  · exact contents_retire t _ fun _ => rfl

/-- The content of a memory never changes. -/
theorem applyOp_contents (floats : FloatEnv) (t : MemoryTables) (op : MemoryOp) :
    t.contents ⊆ (applyOp floats t op).contents := by
  cases op with
  | remember scope memory now => exact remember_contents floats scope memory now t
  | forget scope key now =>
      have heq := forget_contents scope key now t
      show t.contents ⊆ (forget scope key now t).1.contents
      rw [heq]
      exact List.Subset.refl _
  | expireDue tenantId limit now =>
      have heq : (expireDue tenantId limit now t).1.contents = t.contents :=
        contents_retire t _ fun _ => rfl
      show t.contents ⊆ (expireDue tenantId limit now t).1.contents
      rw [heq]
      exact List.Subset.refl _
  | migrate now =>
      unfold applyOp migrate MemoryTables.contents
      rw [List.map_append]
      exact List.subset_append_left _ _

theorem effect_contents {service : MemoryService} {policy : CandidatePolicy}
    {calls : CandidateCalls} {scope : MemoryScope} {governance : MemoryGovernance}
    {candidate : MemoryCandidate} {t t' : MemoryTables}
    (heffect : CandidateEffect service policy calls scope governance candidate t t') :
    t.contents ⊆ t'.contents := by
  cases heffect with
  | nothing => exact fun _ h => h
  | upsert effective memory operation target provider conflict key =>
      exact remember_contents service.floats effective memory calls.writeTime t
  | forget effective item operation found ordinary =>
      exact applyOp_contents service.floats t (.forget effective candidate.key calls.writeTime)

/-- The gates that a candidate passes before it is written to the memories. -/
structure ReachesWrite (service : MemoryService) (policy : CandidatePolicy)
    (calls : CandidateCalls) (scope : MemoryScope) (governance : MemoryGovernance)
    (candidate : MemoryCandidate) (t : MemoryTables) : Prop where
  mode : ∃ namespacePolicy, governance.policyFor candidate.nameSpace = .ok namespacePolicy
    ∧ namespacePolicy.mode ≠ .tenantRequired
  evidence : candidate.evidenceType ≠ .inferred
  ordinary : containsSensitiveMemory service.lower candidate = false
  confident : ¬ candidate.confidence < policy.autoApplyThreshold
  target : ∃ effective, candidateScope scope governance candidate = .ok (.inl effective)
    ∧ upsertConflict policy candidate
      (service.getCurrent calls.lookup effective candidate.key calls.lookupTime t) = none
  written : service.writeEnabled = true ∧ service.hasProvider = true ∧ calls.write = .done

theorem upsertConflict_unapplied {policy : CandidatePolicy} {candidate : MemoryCandidate}
    {current : Option MemoryItem} {decision : MemoryCandidateDecision}
    (h : upsertConflict policy candidate current = some decision) :
    decision.status ≠ .applied := by
  unfold upsertConflict at h
  cases current with
  | none => cases h
  | some item =>
      dsimp only at h
      repeat' split at h
      all_goals cases h
      all_goals exact DecisionStatus.noConfusion

section Applied

variable {service : MemoryService} {policy : CandidatePolicy} {calls : CandidateCalls}
  {scope : MemoryScope} {governance : MemoryGovernance} {candidate : MemoryCandidate}
  {t t' : MemoryTables} {decision : MemoryCandidateDecision}

/-- A save returns the item of the row that it leaves. -/
theorem service_remember_item (ht : Constrained t) {outcome : CallOutcome} {memory : MemoryWrite}
    {now : Time} {item : MemoryItem}
    (hsaved : (service.remember outcome scope memory now t).2.saved = true)
    (hitem : (service.remember outcome scope memory now t).2.item = some item) :
    (service.writeEnabled = true ∧ service.hasProvider = true ∧ outcome = .done)
      ∧ ∃ id : ℕ, intOfText item.memoryId = some (id : Int)
        ∧ (id, memory.value) ∈ (service.remember outcome scope memory now t).1.contents := by
  obtain ⟨rfl, htables⟩ := service_remember_saved hsaved
  have hrow : (remember service.floats scope memory now t).2
      ∈ (remember service.floats scope memory now t).1.rows :=
    (current_spec (by rw [remember_current ht, if_pos rfl])).1
  have hlisted := List.mem_map_of_mem (f := fun row : MemoryRow => (row.id, row.content)) hrow
  rw [remember_row.1] at hlisted
  rw [htables]
  unfold MemoryService.remember at hsaved hitem
  split at hsaved
  · cases hsaved
  · rename_i henabled
    rw [if_neg henabled] at hitem
    obtain rfl := Option.some.inj hitem
    rw [Bool.or_eq_true, not_or, Bool.not_eq_true', Bool.not_eq_true', Bool.not_eq_false,
      Bool.not_eq_false] at henabled
    exact ⟨⟨henabled.1, henabled.2, rfl⟩, _, intOfText_toString _, hlisted⟩

theorem upsert_applied (ht : Constrained t)
    (h : resolveUpsertCandidate service policy calls scope candidate t = .ok (t', decision))
    (happlied : decision.status = .applied) :
    ¬ candidate.confidence < policy.autoApplyThreshold
      ∧ upsertConflict policy candidate
        (service.getCurrent calls.lookup scope candidate.key calls.lookupTime t) = none
      ∧ (service.writeEnabled = true ∧ service.hasProvider = true ∧ calls.write = .done)
      ∧ ∃ (id : ℕ) (content : String), candidate.value = some content
        ∧ (decision.item.bind fun item => intOfText item.memoryId) = some (id : Int)
        ∧ (id, content) ∈ t'.contents := by
  unfold resolveUpsertCandidate at h
  split at h
  · cases h
    cases happlied
  rename_i hconfident
  dsimp only at h
  split at h
  · rename_i hconflict
    cases h
    exact (upsertConflict_unapplied hconflict happlied).elim
  rename_i hconflict
  split at h
  · rename_i hvalue
    have hgiven : candidate.value = some (candidate.value.getD "") := by
      cases hv : candidate.value with
      | none =>
          rw [hv] at hvalue
          exact absurd rfl hvalue
      | some value => rfl
    split at h
    · rename_i item hsaved hitem
      cases h
      obtain ⟨hwritten, id, hid, hmem⟩ := service_remember_item ht hsaved hitem
      exact ⟨hconfident, hconflict, hwritten, id, _, hgiven, hid, hmem⟩
    · cases h
      cases happlied
  · cases h

/-- An applied upsert has passed the gates, and its memory says what the candidate does. -/
theorem resolve_applied_upsert (ht : Constrained t) (hoperation : candidate.operation = .upsert)
    (h : resolveMemoryCandidate service policy calls scope governance candidate t
      = .ok (t', decision))
    (happlied : decision.status = .applied) :
    ReachesWrite service policy calls scope governance candidate t
      ∧ ∃ (id : ℕ) (content : String), candidate.value = some content
        ∧ (decision.item.bind fun item => intOfText item.memoryId) = some (id : Int)
        ∧ (id, content) ∈ t'.contents := by
  obtain ⟨namespacePolicy, hpolicy, h⟩ := bind_eq_ok.mp h
  obtain ⟨target, htarget, h⟩ := bind_eq_ok.mp h
  cases target with
  | inr reason =>
      cases h
      cases happlied
  | inl effective =>
      dsimp only at h
      split at h
      · cases h
        cases happlied
      rename_i hmode
      split at h
      · cases h
        cases happlied
      rename_i hevidence
      split at h
      · cases h
        cases happlied
      rename_i hordinary
      rw [hoperation] at h
      obtain ⟨hconfident, hconflict, hwritten, hmemory⟩ := upsert_applied ht h happlied
      exact
        ⟨{ mode := ⟨namespacePolicy, hpolicy, hmode⟩
           evidence := hevidence
           ordinary := Bool.eq_false_iff.mpr hordinary
           confident := hconfident
           target := ⟨effective, htarget, hconflict⟩
           written := hwritten }, hmemory⟩

theorem upsertConflict_id (current : Option MemoryItem) (id : Option String) :
    upsertConflict policy { candidate with candidateId := id } current
      = (upsertConflict policy candidate current).map
        fun decision => { decision with candidateId := id } := by
  unfold upsertConflict
  cases current with
  | none => rfl
  | some item =>
      dsimp only
      split_ifs <;> rfl

/-- The gates do not look at the id of the candidate. -/
theorem ReachesWrite.of_id {id : Option String}
    (h : ReachesWrite service policy calls scope governance
      { candidate with candidateId := id } t) :
    ReachesWrite service policy calls scope governance candidate t where
  mode := h.mode
  evidence := h.evidence
  ordinary := h.ordinary
  confident := h.confident
  target :=
    let ⟨effective, htarget, hconflict⟩ := h.target
    ⟨effective, htarget, Option.map_eq_none_iff.mp ((upsertConflict_id _ id).symm.trans hconflict)⟩
  written := h.written

end Applied

/-- The row that a candidate would be applied in has its content. -/
def KeepsContent (settings : ExtractionSettings) (turn : MessageTurn) (s : ExtractionState)
    (entry : MemoryCandidate × ℕ) : Prop :=
  settings.dryRun = false → settings.autoApply = true → entry.1.operation = .upsert →
    ∀ scope, turn.ScopeOf entry.1 scope →
      ReachesWrite settings.service settings.policy (turn.faults entry.2).calls scope
        turn.governance entry.1 s.db.memories →
      ∀ row ∈ s.db.candidates, row.identity = turn.identity entry.1 →
        row.content = entry.1.value

/-- An applied upsert refers to a memory that says what the row does. -/
def CandidateRow.Faithful (contents : List (ℕ × String)) (row : CandidateRow) : Prop :=
  row.applied → row.operation = .upsert → ∃ (id : ℕ) (content : String),
    row.appliedMemoryId = some (id : Int) ∧ row.content = some content ∧ (id, content) ∈ contents

def ExtractionDb.Faithful (db : ExtractionDb) : Prop :=
  ∀ row ∈ db.candidates, row.Faithful db.memories.contents

theorem CandidateRow.Faithful.mono {contents contents' : List (ℕ × String)} {row : CandidateRow}
    (h : row.Faithful contents) (hsub : contents ⊆ contents') : row.Faithful contents' := by
  intro happlied hoperation
  obtain ⟨id, content, hid, hcontent, hmem⟩ := h happlied hoperation
  exact ⟨id, content, hid, hcontent, hsub hmem⟩

theorem judged_contents {settings : ExtractionSettings} {calls : CandidateCalls}
    {scope : MemoryScope} {governance : MemoryGovernance} {candidate : MemoryCandidate}
    {t t' : MemoryTables} {decision : MemoryCandidateDecision}
    (hjudged : Judged settings calls scope governance candidate t t' decision) :
    t.contents ⊆ t'.contents := by
  cases hjudged with
  | deferred => exact fun _ h => h
  | resolved _ hresolved => exact effect_contents (candidate_effect hresolved)

section FaithfulPass

variable {settings : ExtractionSettings} {turn : MessageTurn} {entry : MemoryCandidate × ℕ}
  {s : ExtractionState} {db : ExtractionDb}

theorem faithful_memories (h : db.Faithful) {t : MemoryTables}
    (ht : db.memories.contents ⊆ t.contents) : ExtractionDb.Faithful { db with memories := t } :=
  fun row hrow => (h row hrow).mono ht

theorem faithful_insert (h : db.Faithful) (floats : FloatEnv) (scope : MemoryScope)
    (candidate : MemoryCandidate) (proposedScope : String) :
    (db.insertCandidate floats scope candidate proposedScope).Faithful := by
  intro row hrow
  rw [insertCandidate_memories]
  rcases insertCandidate_cases hrow with hrow | rfl
  · exact h row hrow
  · intro happlied
    cases happlied

/-- A row that is decided as applied gets the memory that its candidate wrote. -/
theorem faithful_decided (hdb : s.db.Constrained) (hentry : KeepsContent settings turn s entry)
    {scope : MemoryScope} {proposedScope : String} {t : MemoryTables}
    {decision : MemoryCandidateDecision} (wet : settings.dryRun = false)
    (target : turn.ScopeOf entry.1 scope)
    (judged : Judged settings (turn.faults entry.2).calls scope turn.governance
      { entry.1 with candidateId := some (toString (s.db.queuedId scope entry.1)) }
      s.db.memories t decision)
    {old : CandidateRow}
    (hold : old ∈ (s.db.insertCandidate settings.service.floats scope entry.1
      proposedScope).candidates)
    (hid : old.id = s.db.queuedId scope entry.1) :
    (old.withDecision decision).Faithful t.contents := by
  intro happlied hoperation
  have hdecided : decision.status = .applied := CandidateStatus.decided.inj happlied
  have hidentity : old.identity = queuedIdentity scope entry.1 := by
    rcases insertCandidate_cases hold with hold | rfl
    · exact queuedId_identity hdb hold hid
    · rfl
  have hupsert : entry.1.operation = .upsert :=
    (congrArg CandidateIdentity.operation hidentity).symm.trans hoperation
  cases judged with
  | deferred => cases hdecided
  | resolved auto hresolved =>
      obtain ⟨hreaches, id, content, hvalue, hitem, hmem⟩ :=
        resolve_applied_upsert hdb.memories
          (show ({ entry.1 with candidateId := some (toString (s.db.queuedId scope entry.1)) } :
            MemoryCandidate).operation = .upsert from hupsert) hresolved hdecided
      refine ⟨id, content, hitem, ?_, hmem⟩
      show old.content = some content
      rw [← hvalue]
      rcases insertCandidate_cases hold with hold | rfl
      · rw [target.identity] at hidentity
        exact hentry wet auto hupsert scope target hreaches.of_id old hold hidentity
      · rfl

theorem pass_faithful (hdb : s.db.Constrained) (h : s.db.Faithful)
    (hentry : KeepsContent settings turn s entry) {db' : ExtractionDb}
    (heffect : PassEffect settings turn entry s.db db') : db'.Faithful := by
  cases heffect with
  | nothing => exact h
  | dry judged => exact faithful_memories h (judged_contents judged)
  | queued => exact faithful_insert h _ _ _ _
  | judged judged =>
      refine faithful_memories (faithful_insert h _ _ _ _) ?_
      rw [insertCandidate_memories]
      exact judged_contents judged
  | decided wet target judged =>
      intro row hrow
      obtain ⟨old, hold, rfl⟩ := List.mem_map.mp hrow
      dsimp only at hold ⊢
      split
      · rename_i hid
        exact faithful_decided hdb hentry wet target judged hold (Nat.cast_injective hid)
      · have hkept := faithful_insert h _ _ _ _ old hold
        rw [insertCandidate_memories] at hkept
        exact hkept.mono (judged_contents judged)

end FaithfulPass

/-- Applied upserts refer to memories that say what the rows do, while no pass applies a
candidate to a row of another content. The content of a memory row never changes, so that what
held when the row was applied holds in every later state. -/
theorem applied_rows_faithful (floats : FloatEnv) (db : ExtractionDb) (hdb : db.Constrained)
    (hfaithful : db.Faithful) (ops : List RetryOp)
    (hmeets : Meets (retryStep floats) (OpMeets KeepsContent) db ops) (t : ExtractionDb)
    (ht : run (retryStep floats) db ops = some t) : t.Faithful := by
  refine (retries_invariant (I := fun u => u.Constrained ∧ u.Faithful)
    (fun settings turn u entry hu hentry => ?_) (fun u row hu => ?_) (fun u op hu => ?_)
    ⟨hdb, hfaithful⟩ hmeets ht).2
  · have heffect : PassEffect settings turn entry u.db
        (after (processCandidate settings turn entry) u).db := processCandidate_effect entry u
    exact ⟨pass_constrained hu.1 heffect, pass_faithful hu.1 hu.2 hentry heffect⟩
  · refine ⟨recordMessage_constrained hu.1 row, fun old hold => ?_⟩
    rw [recordMessage_candidates] at hold
    rw [recordMessage_memories]
    exact hu.2 old hold
  · exact ⟨hu.1.withMemories (applyOp_constrained hu.1.memories op),
      faithful_memories hu.2 (applyOp_contents floats u.memories op)⟩

/-! ### Two values for a key -/

/-- The model proposes two values for one preference. -/
def toneAnswer : Dict :=
  [("candidates", .arr
    [.obj [("operation", .str "upsert"), ("namespace", .str "preferences"), ("key", .str "tone"),
      ("value", .str "calm"), ("evidence_type", .str "explicit_fact")],
     .obj [("operation", .str "upsert"), ("namespace", .str "preferences"), ("key", .str "tone"),
      ("value", .str "terse"), ("evidence_type", .str "explicit_fact")]])]

def toneRun : RetryOp :=
  .extraction plainSettings 1 [{ jobTurn .null with answer := .ok toneAnswer }]

theorem toneRun_memories :
    (run (retryStep plainService.floats) emptyQueue [toneRun]).map (·.memories.contents)
      = some [(1, "calm"), (2, "terse")] := by
  decide +kernel

theorem toneRun_rows :
    (run (retryStep plainService.floats) emptyQueue [toneRun]).map
      (fun db => db.candidates.map fun row =>
        (row.operation, row.content, row.status, row.appliedMemoryId))
      = some [(.upsert, some "calm", .decided .applied, some 2)] := by
  decide +kernel

/-- The row keeps the first value and is applied with the second. -/
theorem second_value_applied :
    ¬ ∀ (floats : FloatEnv) (db : ExtractionDb), db.Constrained → db.Faithful →
      ∀ (ops : List RetryOp) (t : ExtractionDb),
        run (retryStep floats) db ops = some t → t.Faithful := by
  intro h
  obtain ⟨t, ht, hcandidates⟩ := Option.map_eq_some_iff.mp toneRun_rows
  have hcontents := toneRun_memories
  rw [ht] at hcontents
  replace hcontents : t.memories.contents = [(1, "calm"), (2, "terse")] :=
    Option.some.inj hcontents
  have hlisted : (.upsert, some "calm", .decided .applied, some 2) ∈ t.candidates.map fun row =>
      (row.operation, row.content, row.status, row.appliedMemoryId) := by
    rw [hcandidates]
    exact List.mem_singleton_self _
  obtain ⟨row, hrow, heq⟩ := List.mem_map.mp hlisted
  rw [Prod.mk.injEq, Prod.mk.injEq, Prod.mk.injEq] at heq
  obtain ⟨hoperation, hcontent, hstatus, happlied⟩ := heq
  obtain ⟨id, content, hid, hsays, hmem⟩ := h plainService.floats emptyQueue
    emptyQueue_constrained (fun _ hrow => by cases hrow) [toneRun] t ht row hrow hstatus hoperation
  rw [happlied] at hid
  rw [hcontent] at hsays
  obtain rfl : 2 = id := by exact_mod_cast Option.some.inj hid
  obtain rfl := Option.some.inj hsays
  rw [hcontents] at hmem
  exact absurd hmem (by decide)

/-! ### One value twice -/

/-- The model proposes a preference, to forget it, and the same again. -/
def calmAnswer : Dict :=
  let entry := fun operation => Json.obj [("operation", .str operation),
    ("namespace", .str "preferences"), ("key", .str "tone"), ("value", .str "calm"),
    ("evidence_type", .str "explicit_instruction")]
  [("candidates", .arr [entry "upsert", entry "forget", entry "upsert"])]

def calmTurn : MessageTurn := { jobTurn .null with answer := .ok calmAnswer }

/-- The queue once the proposals are decided. -/
def calmQueue : ExtractionDb :=
  (after (runMemoryExtraction plainSettings 1 [calmTurn]) { db := emptyQueue }).db

/-- The value of each candidate with the contents of the rows that its pass meets. -/
def contentsMet (settings : ExtractionSettings) (turn : MessageTurn) :
    ExtractionState → List (MemoryCandidate × ℕ) → List (Option String × List (Option String))
  | _, [] => []
  | s, entry :: entries =>
      (entry.1.value, s.db.candidates.map CandidateRow.content)
        :: contentsMet settings turn (after (processCandidate settings turn entry) s) entries

theorem keepsContent_of_contentsMet {settings : ExtractionSettings} {turn : MessageTurn}
    {s : ExtractionState} {entries : List (MemoryCandidate × ℕ)}
    (h : ∀ met ∈ contentsMet settings turn s entries, ∀ content ∈ met.2, content = met.1) :
    Along (KeepsContent settings turn) (processCandidate settings turn) s entries := by
  induction entries generalizing s with
  | nil => trivial
  | cons entry entries ih =>
      rw [contentsMet, List.forall_mem_cons] at h
      refine ⟨fun _ _ _ _ _ _ row hrow _ => ?_, fun _ => ih h.2⟩
      exact h.1 row.content (List.mem_map_of_mem hrow)

/-- The third pass meets the row of the first. -/
theorem calmTurn_contentsMet :
    (calmTurn.candidates plainSettings.env).toOption.map (fun candidates =>
        contentsMet plainSettings calmTurn
          ((scanState plainSettings 1 [calmTurn] emptyQueue).proposing candidates.length)
          candidates.zipIdx)
      = some [(some "calm", []), (some "calm", [some "calm"]),
          (some "calm", [some "calm", some "calm"])] := by
  decide +kernel

theorem applied_rows_faithful_calm :
    calmQueue.Faithful
      ∧ calmQueue.candidates.map (fun row => (row.operation, row.status, row.appliedMemoryId))
        = [(.upsert, .decided .applied, some 2), (.forget, .decided .applied, none)]
      ∧ calmQueue.memories.contents = [(1, "calm"), (2, "calm")] := by
  refine ⟨applied_rows_faithful plainService.floats emptyQueue emptyQueue_constrained
    (fun _ hrow => by cases hrow) [.extraction plainSettings 1 [calmTurn]]
    ⟨fun _ => ⟨fun _ _ candidates hcandidates => ?_, fun _ => trivial⟩, fun _ _ => trivial⟩
    calmQueue (run_cons_eq.mpr ⟨calmQueue, rfl, rfl⟩), by decide +kernel, by decide +kernel⟩
  have hmet := calmTurn_contentsMet
  rw [hcandidates] at hmet
  have hpasses : contentsMet plainSettings calmTurn
      ((scanState plainSettings 1 [calmTurn] emptyQueue).proposing candidates.length)
      candidates.zipIdx = _ := Option.some.inj hmet
  refine keepsContent_of_contentsMet ?_
  rw [hpasses]
  decide

end Aegora
