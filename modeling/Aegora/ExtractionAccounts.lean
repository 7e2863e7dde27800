import Aegora.MemoryExtraction
import Aegora.MemoryProtection

/-!
# What a run of the extraction accounts for

While the store does not fail, a run decides every candidate it counts unless
a message raises: when the model's answer holds a number that overflows, or
when a message without an agent proposes something for a namespace that is
private to agents. The candidates before that one stay decided, the message is
counted as failed.
-/

namespace Aegora

open Py Handlers

/-! ## Scopes -/

/-- A namespace that is not blank has one of the three scopes. -/
theorem writeScopeFor_total (governance : MemoryGovernance) {nameSpace : String}
    (h : strip nameSpace ≠ "") : ∃ kind : ScopeKind,
      writeScopeFor governance nameSpace = .ok kind.text := by
  obtain ⟨policy, hpolicy⟩ := policyFor_total governance h
  unfold writeScopeFor
  rw [hpolicy]
  simp only [bind, Except.bind, pure, Except.pure]
  cases policy.mode with
  | tenantRequired => exact ⟨.tenantUser, rfl⟩
  | userControlled => exact ⟨.userGlobal, rfl⟩
  | agentPrivate => exact ⟨.userAgent, rfl⟩

theorem ScopeKind.parse_text (kind : ScopeKind) : ScopeKind.parse kind.text = some kind := by
  cases kind <;> decide

theorem MemoryScope.make_ok {userId : String} {agentId : Option String} {kind : ScopeKind}
    (huser : strip userId ≠ "") (hagent : kind = .userAgent → agentId.any (· ≠ "") = true)
    (sessionId tenantId : Option String) (nameSpace : String) :
    ∃ scope, MemoryScope.make userId sessionId agentId tenantId nameSpace kind.text
      = .ok scope := by
  unfold MemoryScope.make
  rw [dif_neg huser, ScopeKind.parse_text]
  dsimp only
  rw [dif_pos hagent]
  exact ⟨_, rfl⟩

/-- There is no private scope without an agent. -/
theorem MemoryScope.make_agentless {userId : String} (huser : strip userId ≠ "")
    (sessionId tenantId : Option String) (nameSpace : String) :
    MemoryScope.make userId sessionId none tenantId nameSpace ScopeKind.userAgent.text
      = .error "user_agent memory requires agent_id" := by
  unfold MemoryScope.make
  rw [dif_neg huser, ScopeKind.parse_text]
  rfl

/-! ## Deciding a candidate -/

theorem resolveUpsertCandidate_total (service : MemoryService) (policy : CandidatePolicy)
    (calls : CandidateCalls) (scope : MemoryScope) {candidate : MemoryCandidate}
    (h : candidate.operation = .upsert) (t : MemoryTables) :
    ∃ result, resolveUpsertCandidate service policy calls scope candidate t = .ok result := by
  have hvalue : candidate.value.getD "" ≠ "" := by
    have hgiven := candidate.upsertValue h
    cases hv : candidate.value with
    | none =>
        rw [hv] at hgiven
        cases hgiven
    | some value =>
        rw [hv] at hgiven
        exact of_decide_eq_true hgiven
  unfold resolveUpsertCandidate
  split
  · exact ⟨_, rfl⟩
  · dsimp only
    split
    · exact ⟨_, rfl⟩
    · rw [dif_pos hvalue]
      split <;> exact ⟨_, rfl⟩

theorem candidateScope_total (scope : MemoryScope) (governance : MemoryGovernance)
    (candidate : MemoryCandidate) :
    ∃ target, candidateScope scope governance candidate = .ok target := by
  obtain ⟨kind, hkind⟩ := writeScopeFor_total governance candidate.nameSpaceNonblank
  unfold candidateScope
  rw [hkind]
  simp only [bind, Except.bind]
  split
  · exact ⟨_, rfl⟩
  · rename_i hagent
    have huser : strip scope.userId ≠ "" := by
      rw [scope.userStripped]
      exact scope.user
    have hnamed : kind = .userAgent →
        ((nonEmpty governance.agentId).or scope.agentId).any (· ≠ "") = true := by
      rintro rfl
      cases hgoverned : nonEmpty governance.agentId with
      | none => exact (hagent ⟨rfl, hgoverned⟩).elim
      | some agentId => exact decide_eq_true fun hblank =>
                  nonEmpty_ne_blank _ (hblank ▸ hgoverned)
    obtain ⟨effective, heffective⟩ := MemoryScope.make_ok huser hnamed scope.sessionId
      (some governance.tenantId) candidate.nameSpace
    rw [heffective]
    exact ⟨_, rfl⟩

/-- No candidate makes `resolve_memory_candidate` raise. -/
theorem resolveMemoryCandidate_total (service : MemoryService) (policy : CandidatePolicy)
    (calls : CandidateCalls) (scope : MemoryScope) (governance : MemoryGovernance)
    (candidate : MemoryCandidate) (t : MemoryTables) :
    ∃ result, resolveMemoryCandidate service policy calls scope governance candidate t
      = .ok result := by
  obtain ⟨namespacePolicy, hpolicy⟩ := policyFor_total governance candidate.nameSpaceNonblank
  obtain ⟨target, htarget⟩ := candidateScope_total scope governance candidate
  unfold resolveMemoryCandidate
  rw [hpolicy, htarget]
  cases target with
  | inr reason => exact ⟨_, rfl⟩
  | inl effective =>
      simp only [bind, Except.bind]
      split
      · exact ⟨_, rfl⟩
      split
      · exact ⟨_, rfl⟩
      split
      · exact ⟨_, rfl⟩
      split
      · exact ⟨_, rfl⟩
      · rename_i hoperation
        exact resolveUpsertCandidate_total service policy calls effective hoperation t

/-! ## One candidate -/

/-- No call of the store fails. -/
structure MessageTurn.StoreWorks (turn : MessageTurn) : Prop where
  status : turn.statusRead = true
  enqueue : ∀ n, (turn.faults n).enqueue = .done
  mark : ∀ n, (turn.faults n).mark = .done
  completed : turn.completed = .done
  failed : turn.failed = .done

/-- The scope of a candidate can be built: the message names an agent or the namespace is not
private to agents. -/
def MessageTurn.Scoped (turn : MessageTurn) (candidate : MemoryCandidate) : Prop :=
  turn.agentId = none → writeScopeFor turn.governance candidate.nameSpace ≠ .ok "user_agent"

theorem rawText_stripped (raw : Dict) (name fallback : String) :
    strip (rawText raw name fallback) = rawText raw name fallback := strip_strip _

theorem MessageTurn.agentId_ne {turn : MessageTurn} {agentId : String}
    (h : turn.agentId = some agentId) : agentId ≠ "" := by
  unfold MessageTurn.agentId extractionAgentId strippedOr at h
  dsimp only at h
  split at h
  · cases h
  · rename_i hne
    rw [← Option.some.inj h]
    exact hne

section Candidate

variable {settings : ExtractionSettings} {turn : MessageTurn} {candidate : MemoryCandidate}
  {s : ExtractionState}

theorem commit_done (write : ExtractionDb → ExtractionDb) (s : ExtractionState) :
    Returns (commit .done write) s () { s with db := write s.db } := returns_modify _ s

/-- The scope of a candidate, or the exception that there is none. -/
theorem candidate_scope_cases (huser : turn.userId ≠ "") (candidate : MemoryCandidate) :
    ∃ kind : ScopeKind, writeScopeFor turn.governance candidate.nameSpace = .ok kind.text
      ∧ (turn.Scoped candidate → ∃ scope, MemoryScope.make turn.userId turn.sessionId turn.agentId
          (some turn.governance.tenantId) candidate.nameSpace kind.text = .ok scope)
      ∧ (¬ turn.Scoped candidate → MemoryScope.make turn.userId turn.sessionId turn.agentId
          (some turn.governance.tenantId) candidate.nameSpace kind.text
            = .error "user_agent memory requires agent_id") := by
  obtain ⟨kind, hkind⟩ := writeScopeFor_total turn.governance candidate.nameSpaceNonblank
  have hstripped : strip turn.userId ≠ "" := by
    rw [show strip turn.userId = turn.userId from rawText_stripped _ _ _]
    exact huser
  refine ⟨kind, hkind, fun hscoped => ?_, fun hunscoped => ?_⟩
  · refine MemoryScope.make_ok hstripped ?_ _ _ _
    rintro rfl
    cases hagent : turn.agentId with
    | none => exact (hscoped hagent hkind).elim
    | some agentId => exact decide_eq_true (MessageTurn.agentId_ne hagent)
  · unfold MessageTurn.Scoped at hunscoped
    push Not at hunscoped
    obtain ⟨hagent, hprivate⟩ := hunscoped
    have htext : kind.text = ScopeKind.userAgent.text :=
      Except.ok.inj (hkind.symm.trans hprivate)
    rw [hagent, htext]
    exact MemoryScope.make_agentless hstripped _ _ _

theorem enqueue_returns (scope : MemoryScope) (candidate : MemoryCandidate)
    (proposedScope : String) (s : ExtractionState) :
    ∃ queued t, Returns (enqueue settings .done scope candidate proposedScope) s queued t
      ∧ t.metrics = s.metrics ∧ t.items = s.items ∧ t.db.messages = s.db.messages := by
  refine ⟨_, _, (returns_get s).bind ((commit_done _ s).bind (returns_pure _ _)), rfl, rfl, ?_⟩
  dsimp only
  unfold ExtractionDb.insertCandidate
  split <;> rfl

theorem markDecision_returns (candidate : MemoryCandidate) (decision : MemoryCandidateDecision)
    (s : ExtractionState) : ∃ t, Returns (markDecision .done candidate decision) s () t
      ∧ t.metrics = s.metrics ∧ t.items = s.items ∧ t.db.messages = s.db.messages := by
  unfold markDecision
  split
  · exact ⟨s, returns_pure () s, rfl, rfl, rfl⟩
  · exact ⟨_, commit_done _ s, rfl, rfl, rfl⟩

variable (settings) in
theorem unlessDry_returns {act : Extraction Unit}
    (h : ∃ t, Returns act s () t
      ∧ t.metrics = s.metrics ∧ t.items = s.items ∧ t.db.messages = s.db.messages) :
    ∃ t, Returns (unlessDry settings act) s () t
      ∧ t.metrics = s.metrics ∧ t.items = s.items ∧ t.db.messages = s.db.messages := by
  unfold unlessDry
  split
  · exact ⟨s, returns_pure () s, rfl, rfl, rfl⟩
  · exact h

theorem resolveQueued_returns (calls : CandidateCalls) (scope : MemoryScope)
    (governance : MemoryGovernance) (candidate : MemoryCandidate) (s : ExtractionState) :
    ∃ decision t, Returns (resolveQueued settings calls scope governance candidate) s decision t
      ∧ t.metrics = s.metrics ∧ t.items = s.items ∧ t.db.messages = s.db.messages := by
  obtain ⟨result, hresolved⟩ := resolveMemoryCandidate_total settings.service settings.policy calls
    scope governance candidate s.db.memories
  have hchecked : Returns (checked (resolveMemoryCandidate settings.service settings.policy calls
      scope governance candidate s.db.memories)) s result s := by
    rw [hresolved]
    exact returns_pure result s
  exact ⟨_, _, (returns_get s).bind (hchecked.bind
    ((returns_modify _ s).bind (returns_pure result.2 _))), rfl, rfl, rfl⟩

variable (settings) in
theorem candidateDecision_returns {faults : CandidateFaults} (hmark : faults.mark = .done)
    (scope : MemoryScope) (governance : MemoryGovernance) (candidate : MemoryCandidate)
    (s : ExtractionState) :
    ∃ decision t, Returns (candidateDecision settings faults scope governance candidate) s
        decision t
      ∧ t.metrics = s.metrics ∧ t.items = s.items ∧ t.db.messages = s.db.messages := by
  have hdecided : ∃ decision u, Returns (chooseDecision settings faults.calls scope governance
        candidate) s decision u
      ∧ u.metrics = s.metrics ∧ u.items = s.items ∧ u.db.messages = s.db.messages := by
    unfold chooseDecision
    split
    · exact resolveQueued_returns faults.calls scope governance candidate s
    · exact ⟨_, s, returns_pure _ s, rfl, rfl, rfl⟩
  obtain ⟨decision, u, hdecide, hmetrics, hitems, hmessages⟩ := hdecided
  obtain ⟨t, hmarked, hmetrics', hitems', hmessages'⟩ :=
    unlessDry_returns settings (markDecision_returns candidate decision u)
  rw [← hmark] at hmarked
  exact ⟨decision, t, hdecide.bind (hmarked.bind (returns_pure decision t)),
    hmetrics'.trans hmetrics, hitems'.trans hitems, hmessages'.trans hmessages⟩

variable (settings) in
theorem queueCandidate_returns (scope : MemoryScope) (candidate : MemoryCandidate)
    (proposedScope : String) (s : ExtractionState) :
    ∃ queued t, Returns (queueCandidate settings .done scope candidate proposedScope) s queued t
      ∧ t.metrics = s.metrics ∧ t.items = s.items ∧ t.db.messages = s.db.messages := by
  unfold queueCandidate
  split
  · exact ⟨candidate, s, returns_pure candidate s, rfl, rfl, rfl⟩
  · exact enqueue_returns scope candidate proposedScope s

variable (settings) in
/-- A candidate with a scope is decided and counted. -/
theorem processCandidate_returns (hstore : turn.StoreWorks) (huser : turn.userId ≠ "")
    (hscoped : turn.Scoped candidate) (n : ℕ) (s : ExtractionState) :
    ∃ status item t, Returns (processCandidate settings turn (candidate, n)) s () t
      ∧ t.metrics = s.metrics.count status ∧ t.items = s.items ++ [item]
      ∧ t.db.messages = s.db.messages := by
  obtain ⟨kind, hkind, hmake, -⟩ := candidate_scope_cases huser candidate
  obtain ⟨scope, hscope⟩ := hmake hscoped
  have hproposed : Returns (checked (writeScopeFor turn.governance candidate.nameSpace)) s
      kind.text s := by
    rw [hkind]
    exact returns_pure kind.text s
  have hmade : Returns (checked (MemoryScope.make turn.userId turn.sessionId turn.agentId
      (some turn.governance.tenantId) candidate.nameSpace kind.text)) s scope s := by
    rw [hscope]
    exact returns_pure scope s
  obtain ⟨queued, u, hqueue, hmetrics, hitems, hmessages⟩ :=
    queueCandidate_returns settings scope candidate kind.text s
  rw [← hstore.enqueue n] at hqueue
  obtain ⟨decision, t, hdecide, hmetrics', hitems', hmessages'⟩ :=
    candidateDecision_returns settings (hstore.mark n) scope turn.governance queued u
  exact ⟨decision.status, turn.item queued decision, _,
    hproposed.bind (hmade.bind (hqueue.bind (hdecide.bind (returns_modify _ t)))),
    congrArg (ExtractionMetrics.count · decision.status) (hmetrics'.trans hmetrics),
    congrArg (· ++ [turn.item queued decision]) (hitems'.trans hitems),
    hmessages'.trans hmessages⟩

variable (settings) in
/-- One without a scope raises before anything is written. -/
theorem processCandidate_raises (huser : turn.userId ≠ "") (hunscoped : ¬ turn.Scoped candidate)
    (n : ℕ) (s : ExtractionState) :
    ∃ e, Raises (processCandidate settings turn (candidate, n)) s e s := by
  obtain ⟨kind, hkind, -, hmake⟩ := candidate_scope_cases huser candidate
  have hproposed : Returns (checked (writeScopeFor turn.governance candidate.nameSpace)) s
      kind.text s := by
    rw [hkind]
    exact returns_pure kind.text s
  have hrefused : Raises (checked (MemoryScope.make turn.userId turn.sessionId turn.agentId
      (some turn.governance.tenantId) candidate.nameSpace kind.text)) s
      ("ValueError: " ++ "user_agent memory requires agent_id") s := by
    rw [hmake hunscoped]
    exact raises_throw _ s
  exact ⟨_, hproposed.bind_raises (hrefused.bind _)⟩

end Candidate

/-! ## One message -/

def ExtractionMetrics.decided (metrics : ExtractionMetrics) : ℕ :=
  metrics.applied + metrics.needsReview + metrics.rejected + metrics.skipped

theorem decided_count (metrics : ExtractionMetrics) (status : DecisionStatus) :
    (metrics.count status).decided = metrics.decided + 1
      ∧ (metrics.count status).candidates = metrics.candidates
      ∧ (metrics.count status).messagesFailed = metrics.messagesFailed := by
  unfold ExtractionMetrics.decided
  cases status <;> dsimp only [ExtractionMetrics.count] <;> exact ⟨by omega, rfl, rfl⟩

/-- The model proposes candidates that all have a scope. -/
def MessageTurn.Decides (env : ExtractorEnv) (turn : MessageTurn) : Prop :=
  ∃ candidates, turn.candidates env = .ok candidates
    ∧ ∀ candidate ∈ candidates, turn.Scoped candidate

/-- Between two states `n` candidates were proposed and decided, and no message failed. -/
structure Counted (s t : ExtractionState) (n : ℕ) : Prop where
  decided : t.metrics.decided = s.metrics.decided + n
  candidates : t.metrics.candidates = s.metrics.candidates + n
  items : t.items.length = s.items.length + n
  failed : t.metrics.messagesFailed = s.metrics.messagesFailed

theorem Counted.trans {s t u : ExtractionState} {m n : ℕ} (h : Counted s t m) (k : Counted t u n) :
    Counted s u (m + n) where
  decided := by rw [k.decided, h.decided, Nat.add_assoc]
  candidates := by rw [k.candidates, h.candidates, Nat.add_assoc]
  items := by rw [k.items, h.items, Nat.add_assoc]
  failed := k.failed.trans h.failed

section Message

variable {settings : ExtractionSettings} {turn : MessageTurn}

variable (settings) in
/-- All candidates with a scope are decided. -/
theorem each_candidate_returns (hstore : turn.StoreWorks) (huser : turn.userId ≠ "")
    (entries : List (MemoryCandidate × ℕ)) (hscoped : ∀ entry ∈ entries, turn.Scoped entry.1)
    (s : ExtractionState) :
    ∃ t, Returns (each (processCandidate settings turn) entries) s () t
      ∧ t.metrics.decided = s.metrics.decided + entries.length
      ∧ t.metrics.candidates = s.metrics.candidates
      ∧ t.metrics.messagesFailed = s.metrics.messagesFailed
      ∧ t.items.length = s.items.length + entries.length
      ∧ t.db.messages = s.db.messages := by
  induction entries generalizing s with
  | nil => exact ⟨s, returns_pure () s, rfl, rfl, rfl, rfl, rfl⟩
  | cons entry entries ih =>
      obtain ⟨status, item, u, hfirst, hmetrics, hitems, hmessages⟩ :=
        processCandidate_returns settings hstore huser
          (hscoped entry List.mem_cons_self) entry.2 s
      obtain ⟨t, hrest, hdecided, hcandidates, hfailed, hlength, hmessages'⟩ :=
        ih (fun other hother => hscoped other (List.mem_cons_of_mem _ hother)) u
      obtain ⟨hone, hsame, hnone⟩ := decided_count s.metrics status
      rw [hmetrics] at hdecided hcandidates hfailed
      rw [hitems, List.length_append, List.length_singleton] at hlength
      refine ⟨t, hfirst.bind hrest, ?_, hcandidates.trans hsame, hfailed.trans hnone, ?_,
        hmessages'.trans hmessages⟩
      · rw [hdecided, hone, List.length_cons]
        omega
      · rw [hlength, List.length_cons]
        omega

variable (settings) in
/-- A candidate without a scope ends the loop. -/
theorem each_candidate_raises (hstore : turn.StoreWorks) (huser : turn.userId ≠ "")
    (entries : List (MemoryCandidate × ℕ)) (hunscoped : ∃ entry ∈ entries, ¬ turn.Scoped entry.1)
    (s : ExtractionState) :
    ∃ e t, Raises (each (processCandidate settings turn) entries) s e t
      ∧ t.metrics.messagesFailed = s.metrics.messagesFailed := by
  induction entries generalizing s with
  | nil =>
      obtain ⟨entry, hentry, -⟩ := hunscoped
      cases hentry
  | cons entry entries ih =>
      by_cases hscoped : turn.Scoped entry.1
      · obtain ⟨status, item, u, hfirst, hmetrics, -, -⟩ :=
          processCandidate_returns settings hstore huser hscoped entry.2 s
        have hrest : ∃ other ∈ entries, ¬ turn.Scoped other.1 := by
          obtain ⟨other, hother, hnot⟩ := hunscoped
          rcases List.mem_cons.mp hother with rfl | hother
          · exact (hnot hscoped).elim
          · exact ⟨other, hother, hnot⟩
        obtain ⟨e, t, hraises, hfailed⟩ := ih hrest u
        refine ⟨e, t, hfirst.bind_raises hraises, hfailed.trans ?_⟩
        rw [hmetrics]
        exact (decided_count s.metrics status).2.2
      · obtain ⟨e, hraises⟩ := processCandidate_raises settings huser hscoped entry.2 s
        exact ⟨e, s, hraises.bind _, rfl⟩

/-- What the record of a finished message leaves of the others. -/
def Completes (settings : ExtractionSettings) (turn : MessageTurn) (db db' : ExtractionDb) : Prop :=
  settings.dryRun = false → ∀ traceId,
    db'.isCompleted traceId = true ↔ db.isCompleted traceId = true ∨ traceId = turn.traceId

theorem completes_record {db db' : ExtractionDb} (hmessages : db'.messages = db.messages)
    (count : ℕ) : Completes settings turn db
      (db'.recordMessage (turn.record settings .completed count none)) := by
  intro _ traceId
  have hsame : db'.isCompleted traceId = db.isCompleted traceId := by
    unfold ExtractionDb.isCompleted
    rw [hmessages]
  by_cases htrace : traceId = turn.traceId
  · rw [htrace]
    exact iff_of_true
      ((isCompleted_record_self (turn.record settings .completed count none)).mpr rfl) (Or.inr rfl)
  · have hother : (turn.record settings .completed count none).traceId ≠ traceId :=
      fun heq => htrace heq.symm
    rw [isCompleted_record_other hother, hsame]
    exact ⟨Or.inl, fun h => h.resolve_right htrace⟩

variable (settings) in
theorem proposed_returns {candidates : List MemoryCandidate}
    (h : turn.candidates settings.env = .ok candidates) (s : ExtractionState) :
    Returns (proposed settings turn) s candidates s := by
  unfold proposed
  rw [h]
  exact returns_pure candidates s

theorem extractMessage_returns (hstore : turn.StoreWorks) (huser : turn.userId ≠ "")
    (hdecides : turn.Decides settings.env) (s : ExtractionState) :
    ∃ n t, Returns (extractMessage settings turn) s () t ∧ Counted s t n
      ∧ Completes settings turn s.db t.db := by
  obtain ⟨candidates, hcandidates, hscoped⟩ := hdecides
  let counted : ExtractionState :=
    { s with metrics :=
        { s.metrics with
          messagesProcessed := s.metrics.messagesProcessed + 1
          candidates := s.metrics.candidates + candidates.length } }
  obtain ⟨u, hloop, hdecided, hsame, hfailed, hlength, hmessages⟩ :=
    each_candidate_returns settings hstore huser candidates.zipIdx
      (fun entry hentry => hscoped entry.1 (List.fst_mem_of_mem_zipIdx hentry)) counted
  rw [List.length_zipIdx] at hdecided hlength
  have hcounts : Counted s u candidates.length :=
    { decided := hdecided, candidates := hsame, items := hlength, failed := hfailed }
  have hfirst := proposed_returns settings hcandidates s
  have htally : Returns (tally fun metrics : ExtractionMetrics =>
      { metrics with
        messagesProcessed := metrics.messagesProcessed + 1
        candidates := metrics.candidates + candidates.length }) s () counted := returns_modify _ s
  unfold extractMessage
  cases hdry : settings.dryRun with
  | true =>
      have hrecord : Returns (unlessDry settings (commit turn.completed
          (·.recordMessage (turn.record settings .completed candidates.length none)))) u () u := by
        unfold unlessDry
        rw [hdry]
        exact returns_pure () u
      exact ⟨candidates.length, u, hfirst.bind (htally.bind (hloop.bind hrecord)), hcounts,
        fun hwet => absurd (hdry.symm.trans hwet) (by decide)⟩
  | false =>
      have hrecord : Returns (unlessDry settings (commit turn.completed
          (·.recordMessage (turn.record settings .completed candidates.length none)))) u ()
          { u with
            db := u.db.recordMessage
              (turn.record settings .completed candidates.length none) } := by
        unfold unlessDry
        rw [hdry, hstore.completed]
        exact commit_done _ u
      exact ⟨candidates.length, _, hfirst.bind (htally.bind (hloop.bind hrecord)),
        { hcounts with }, completes_record hmessages candidates.length⟩

theorem extractMessage_raises (hstore : turn.StoreWorks) (huser : turn.userId ≠ "")
    (hdecides : ¬ turn.Decides settings.env) (s : ExtractionState) :
    ∃ e t, Raises (extractMessage settings turn) s e t
      ∧ t.metrics.messagesFailed = s.metrics.messagesFailed := by
  cases hcandidates : turn.candidates settings.env with
  | error raised =>
      have hproposed : Raises (proposed settings turn) s raised s := by
        unfold proposed
        rw [hcandidates]
        exact raises_throw raised s
      exact ⟨raised, s, hproposed.bind _, rfl⟩
  | ok candidates =>
      have hunscoped : ∃ candidate ∈ candidates, ¬ turn.Scoped candidate := by
        by_contra hall
        push Not at hall
        exact hdecides ⟨candidates, hcandidates, hall⟩
      obtain ⟨candidate, hmem, hnot⟩ := hunscoped
      obtain ⟨n, hn, rfl⟩ := List.getElem_of_mem hmem
      obtain ⟨e, t, hloop, hfailed⟩ :=
        each_candidate_raises settings hstore huser candidates.zipIdx
          ⟨(candidates[n], n), List.mem_zipIdx_iff_getElem?.mpr (List.getElem?_eq_getElem hn), hnot⟩
          { s with metrics :=
              { s.metrics with
                messagesProcessed := s.metrics.messagesProcessed + 1
                candidates := s.metrics.candidates + candidates.length } }
      exact ⟨e, t, (proposed_returns settings hcandidates s).bind_raises
        ((returns_modify _ s).bind_raises (hloop.bind _)), hfailed⟩

variable (settings) in
theorem failMessage_returns (hstore : turn.StoreWorks) (error : String) (s : ExtractionState) :
    ∃ t, Returns (failMessage settings turn error) s () t
      ∧ t.metrics.messagesFailed = s.metrics.messagesFailed + 1 := by
  have hnote : ∀ u : ExtractionState, ∃ t, Returns (unlessDry settings (commit turn.failed
      (·.recordMessage (turn.record settings .failed 0 (some (takeText 2000 error)))))) u () t
      ∧ t.metrics = u.metrics := by
    intro u
    unfold unlessDry
    split
    · exact ⟨u, returns_pure () u, rfl⟩
    · rw [hstore.failed]
      exact ⟨_, commit_done _ u, rfl⟩
  obtain ⟨t, hnoted, hmetrics⟩ := hnote
    { s with metrics := { s.metrics with messagesFailed := s.metrics.messagesFailed + 1 } }
  exact ⟨t, (returns_modify _ s).bind hnoted, congrArg ExtractionMetrics.messagesFailed hmetrics⟩

/-- The run does not pass over the message before it knows what is done. -/
def MessageTurn.Eligible (turn : MessageTurn) : Prop :=
  turn.traceId ≠ "" ∧ turn.userId ≠ "" ∧ turn.anonymous = false ∧ turn.policyAvailable = true

/-- The message is extracted. -/
def MessageTurn.Reached (settings : ExtractionSettings) (turn : MessageTurn) (db : ExtractionDb) :
    Prop :=
  turn.Eligible ∧ (settings.dryRun = false → db.isCompleted turn.traceId = false)

variable (settings) in
theorem readCompleted_returns (hstore : turn.StoreWorks) (s : ExtractionState) :
    Returns (readCompleted settings turn) s
      (if settings.dryRun then false else s.db.isCompleted turn.traceId) s := by
  unfold readCompleted
  split
  · exact returns_pure false s
  · rw [demand_of hstore.status]
    exact (returns_pure () s).bind ((returns_get s).bind (returns_pure _ s))

variable (settings) in
/-- A message is passed over, decided or failed. -/
theorem runMessage_cases (hstore : turn.StoreWorks) (s : ExtractionState) :
    ∃ t, Returns (runMessage settings turn) s () t
      ∧ (¬ turn.Reached settings s.db ∧ t.db = s.db ∧ Counted s t 0
        ∨ turn.Reached settings s.db ∧ turn.Decides settings.env
          ∧ Completes settings turn s.db t.db ∧ (∃ n, Counted s t n)
        ∨ turn.Reached settings s.db ∧ ¬ turn.Decides settings.env
          ∧ t.metrics.messagesFailed = s.metrics.messagesFailed + 1) := by
  unfold runMessage
  by_cases hblank : turn.traceId = "" ∨ turn.userId = ""
  · rw [if_pos hblank]
    refine ⟨s, returns_pure () s, Or.inl ⟨fun h => ?_, rfl, ⟨rfl, rfl, rfl, rfl⟩⟩⟩
    exact hblank.elim h.1.1 h.1.2.1
  obtain ⟨htrace, huser⟩ := not_or.mp hblank
  rw [if_neg hblank]
  cases hanonymous : turn.anonymous with
  | true =>
      refine ⟨_, returns_modify _ s, Or.inl ⟨fun h => ?_, rfl, ⟨rfl, rfl, rfl, rfl⟩⟩⟩
      exact absurd (hanonymous.symm.trans h.1.2.2.1) (by decide)
  | false =>
      have hread := readCompleted_returns settings hstore s
      cases hdone : (if settings.dryRun then false else s.db.isCompleted turn.traceId) with
      | true =>
          rw [hdone] at hread
          refine ⟨_, hread.bind (returns_modify _ s), Or.inl ⟨fun h => ?_, rfl,
            ⟨rfl, rfl, rfl, rfl⟩⟩⟩
          split at hdone
          · cases hdone
          · rename_i hwet
            rw [h.2 (Bool.eq_false_iff.mpr hwet)] at hdone
            cases hdone
      | false =>
          rw [hdone] at hread
          have hfresh : settings.dryRun = false → s.db.isCompleted turn.traceId = false := by
            intro hwet
            rw [hwet] at hdone
            exact hdone
          cases hpolicy : turn.policyAvailable with
          | false =>
              refine ⟨_, hread.bind (returns_modify _ s), Or.inl ⟨fun h => ?_, rfl,
                ⟨rfl, rfl, rfl, rfl⟩⟩⟩
              exact absurd (hpolicy.symm.trans h.1.2.2.2) (by decide)
          | true =>
              have hreached : turn.Reached settings s.db :=
                ⟨⟨htrace, huser, hanonymous, hpolicy⟩, hfresh⟩
              by_cases hdecides : turn.Decides settings.env
              · obtain ⟨n, t, hextract, hcounted, hcompletes⟩ :=
                  extractMessage_returns hstore huser hdecides s
                have hrescued : Returns (rescue (extractMessage settings turn)
                    (failMessage settings turn)) s () t := Returns.rescue hextract _
                exact ⟨t, hread.bind hrescued,
                  Or.inr (Or.inl ⟨hreached, hdecides, hcompletes, n, hcounted⟩)⟩
              · obtain ⟨e, u, hextract, hfailed⟩ :=
                  extractMessage_raises hstore huser hdecides s
                obtain ⟨t, hfail, hcount⟩ := failMessage_returns settings hstore e u
                have hrescued : Returns (rescue (extractMessage settings turn)
                    (failMessage settings turn)) s () t := Raises.rescue hextract hfail
                refine ⟨t, hread.bind hrescued, Or.inr (Or.inr ⟨hreached, hdecides, ?_⟩)⟩
                rw [hcount, hfailed]

end Message

/-! ## The run -/

section Run

variable {settings : ExtractionSettings}

/-- Each message that the run extracts has an answer without overflows, and names an agent
wherever it proposes something private to one. A message is extracted unless it is done, or an
earlier one of the run has its trace. -/
def AllDecide (settings : ExtractionSettings) (db : ExtractionDb) (turns : List MessageTurn) :
    Prop :=
  ∀ before turn after, turns = before ++ turn :: after → turn.Eligible →
    (settings.dryRun = false → db.isCompleted turn.traceId = false
      ∧ ∀ earlier ∈ before, earlier.Eligible → earlier.traceId ≠ turn.traceId) →
    turn.Decides settings.env

theorem allDecide_passed {turn : MessageTurn} {turns : List MessageTurn} {db : ExtractionDb}
    (hpassed : ¬ turn.Reached settings db) :
    AllDecide settings db (turn :: turns) ↔ AllDecide settings db turns := by
  constructor
  · rintro h before other after rfl heligible hfresh
    refine h (turn :: before) other after rfl heligible fun hwet => ?_
    obtain ⟨hundone, hearlier⟩ := hfresh hwet
    refine ⟨hundone, fun earlier hmem hturn => ?_⟩
    rcases List.mem_cons.mp hmem with rfl | hmem
    · rintro heq
      exact hpassed ⟨hturn, fun _ => by rw [heq]; exact hundone⟩
    · exact hearlier earlier hmem hturn
  · rintro h (- | ⟨first, before⟩) other after heq heligible hfresh
    · obtain ⟨rfl, rfl⟩ := List.cons.inj heq
      exact (hpassed ⟨heligible, fun hwet => (hfresh hwet).1⟩).elim
    · obtain ⟨rfl, rfl⟩ := List.cons.inj heq
      refine h before other after rfl heligible fun hwet => ?_
      obtain ⟨hundone, hearlier⟩ := hfresh hwet
      exact ⟨hundone, fun earlier hmem => hearlier earlier (List.mem_cons_of_mem _ hmem)⟩

theorem allDecide_decided {turn : MessageTurn} {turns : List MessageTurn} {db db' : ExtractionDb}
    (hreached : turn.Reached settings db) (hdecides : turn.Decides settings.env)
    (hcompletes : Completes settings turn db db') :
    AllDecide settings db (turn :: turns) ↔ AllDecide settings db' turns := by
  have hdone : settings.dryRun = false → ∀ traceId, db'.isCompleted traceId = false
      ↔ db.isCompleted traceId = false ∧ turn.traceId ≠ traceId := by
    intro hwet traceId
    rw [← Bool.not_eq_true, ← Bool.not_eq_true, hcompletes hwet, not_or, ne_comm]
  constructor
  · rintro h before other after rfl heligible hfresh
    refine h (turn :: before) other after rfl heligible fun hwet => ?_
    obtain ⟨hundone, hearlier⟩ := hfresh hwet
    obtain ⟨hold, hother⟩ := (hdone hwet _).mp hundone
    refine ⟨hold, fun earlier hmem hturn => ?_⟩
    rcases List.mem_cons.mp hmem with rfl | hmem
    · exact hother
    · exact hearlier earlier hmem hturn
  · rintro h (- | ⟨first, before⟩) other after heq heligible hfresh
    · obtain ⟨rfl, rfl⟩ := List.cons.inj heq
      exact hdecides
    · obtain ⟨rfl, rfl⟩ := List.cons.inj heq
      refine h before other after rfl heligible fun hwet => ?_
      obtain ⟨hundone, hearlier⟩ := hfresh hwet
      exact ⟨(hdone hwet _).mpr
          ⟨hundone, hearlier turn List.mem_cons_self hreached.1⟩,
        fun earlier hmem => hearlier earlier (List.mem_cons_of_mem _ hmem)⟩

theorem allDecide_failed {turn : MessageTurn} (turns : List MessageTurn) {db : ExtractionDb}
    (hreached : turn.Reached settings db) (hdecides : ¬ turn.Decides settings.env) :
    ¬ AllDecide settings db (turn :: turns) := fun h =>
  hdecides (h [] turn turns rfl hreached.1 fun hwet =>
    ⟨hreached.2 hwet, fun _ hmem => by cases hmem⟩)

variable (settings) in
/-- What the loop over the messages accounts for. -/
theorem each_message_returns (turns : List MessageTurn) (hstore : ∀ turn ∈ turns, turn.StoreWorks)
    (s : ExtractionState) :
    ∃ t, Returns (each (runMessage settings) turns) s () t
      ∧ s.metrics.messagesFailed ≤ t.metrics.messagesFailed
      ∧ (t.metrics.messagesFailed = s.metrics.messagesFailed → AllDecide settings s.db turns)
      ∧ (AllDecide settings s.db turns → (∃ n, Counted s t n)
        ∧ (settings.dryRun = false →
          (∀ traceId, s.db.isCompleted traceId = true → t.db.isCompleted traceId = true)
          ∧ ∀ turn ∈ turns, turn.Eligible → t.db.isCompleted turn.traceId = true)) := by
  induction turns generalizing s with
  | nil =>
      refine ⟨s, returns_pure () s, Nat.le_refl _, fun _ => ?_, fun _ => ?_⟩
      · rintro before turn after heq
        exact absurd heq (by simp)
      · exact ⟨⟨0, rfl, rfl, rfl, rfl⟩, fun _ => ⟨fun _ h => h, fun _ h => by cases h⟩⟩
  | cons turn turns ih =>
      obtain ⟨u, hfirst, hcases⟩ := runMessage_cases settings
        (hstore turn List.mem_cons_self) s
      obtain ⟨t, hrest, hmonotone, hall, hcounted⟩ :=
        ih (fun other hother => hstore other (List.mem_cons_of_mem _ hother)) u
      refine ⟨t, hfirst.bind hrest, ?_⟩
      rcases hcases with ⟨hpassed, hdb, hnone⟩ | ⟨hreached, hdecides, hcompletes, n, hsome⟩
        | ⟨hreached, hdecides, hfailed⟩
      · rw [hdb] at hall hcounted
        rw [allDecide_passed hpassed]
        have hsame := hnone.failed
        refine ⟨by omega, fun h => hall (by omega), fun h => ?_⟩
        obtain ⟨⟨m, hm⟩, hdone⟩ := hcounted h
        refine ⟨⟨0 + m, hnone.trans hm⟩, fun hwet => ?_⟩
        obtain ⟨hkept, hrestDone⟩ := hdone hwet
        refine ⟨hkept, fun other hother heligible => ?_⟩
        rcases List.mem_cons.mp hother with rfl | hother
        · refine hkept _ (Bool.eq_true_of_not_eq_false fun hundone => ?_)
          exact hpassed ⟨heligible, fun _ => hundone⟩
        · exact hrestDone other hother heligible
      · rw [allDecide_decided hreached hdecides hcompletes]
        have hsame := hsome.failed
        refine ⟨by omega, fun h => hall (by omega), fun h => ?_⟩
        obtain ⟨⟨m, hm⟩, hdone⟩ := hcounted h
        refine ⟨⟨n + m, hsome.trans hm⟩, fun hwet => ?_⟩
        obtain ⟨hkept, hrestDone⟩ := hdone hwet
        have hfinished := hcompletes hwet
        refine ⟨fun traceId hold => hkept _ ((hfinished _).mpr (Or.inl hold)),
          fun other hother heligible => ?_⟩
        rcases List.mem_cons.mp hother with rfl | hother
        · exact hkept _ ((hfinished _).mpr (Or.inr rfl))
        · exact hrestDone other hother heligible
      · have hnot := allDecide_failed turns hreached hdecides
        exact ⟨by omega, fun h => by omega, fun h => (hnot h).elim⟩

/-- A run that accounts for all it proposed. -/
structure AllAccounted (settings : ExtractionSettings) (turns : List MessageTurn)
    (s : ExtractionState) : Prop where
  decided : s.metrics.applied + s.metrics.needsReview + s.metrics.rejected + s.metrics.skipped
    = s.metrics.candidates
  items : s.items.length = s.metrics.candidates
  failed : s.metrics.messagesFailed = 0
  completed : settings.enabled = true → settings.dryRun = false →
    ∀ turn ∈ turns, turn.Eligible →
      (∃ candidates, turn.candidates settings.env = .ok candidates ∧ candidates ≠ []) →
        s.db.isCompleted turn.traceId = true

variable (settings) in
theorem expireMemories_messages (now : Time) (db : ExtractionDb) :
    (expireMemories settings now db).1.messages = db.messages := by
  unfold expireMemories
  split <;> rfl

theorem allDecide_congr {db db' : ExtractionDb} (h : db'.messages = db.messages)
    (turns : List MessageTurn) :
    AllDecide settings db' turns ↔ AllDecide settings db turns := by
  have hsame : ∀ traceId, db'.isCompleted traceId = db.isCompleted traceId := fun traceId => by
    unfold ExtractionDb.isCompleted
    rw [h]
  unfold AllDecide
  simp only [hsame]

/-- The state after the sweep. -/
def sweptState (settings : ExtractionSettings) (now : Time) (db : ExtractionDb) :
    ExtractionState where
  db := (expireMemories settings now db).1
  metrics := { expiredMemories := (expireMemories settings now db).2 }

variable (settings) in
/-- The run, past its sweep. -/
theorem runMemoryExtraction_returns (now : Time) (turns : List MessageTurn)
    (hstore : ∀ turn ∈ turns, turn.StoreWorks) (db : ExtractionDb) :
    ∃ t, Returns (runMemoryExtraction settings now turns) { db := db } () t
      ∧ (AllAccounted settings turns t
        ↔ settings.enabled = true → AllDecide settings db turns) := by
  have hsweep : Returns (sweepMemories settings now) { db := db } ()
      (sweptState settings now db) := returns_modify _ _
  have hmessages := expireMemories_messages settings now db
  cases hon : settings.enabled with
  | false =>
      have hrest : Returns
          (if settings.enabled = true then scanMessages settings turns else pure ())
          (sweptState settings now db) () (sweptState settings now db) := by
        rw [hon]
        exact returns_pure () _
      exact ⟨_, hsweep.bind hrest, iff_of_true
        ⟨rfl, rfl, rfl, fun h => absurd (hon.symm.trans h) (by decide)⟩ fun h => by cases h⟩
  | true =>
      obtain ⟨t, hloop, -, hall, hcounted⟩ := each_message_returns settings turns hstore
        { sweptState settings now db with
          metrics := { (sweptState settings now db).metrics with messagesScanned := turns.length } }
      have hrest : Returns
          (if settings.enabled = true then scanMessages settings turns else pure ())
          (sweptState settings now db) () t := by
        rw [hon]
        exact (returns_modify _ _).bind hloop
      have hcongr : AllDecide settings (sweptState settings now db).db turns
          ↔ AllDecide settings db turns := allDecide_congr hmessages turns
      rw [hcongr] at hall hcounted
      refine ⟨t, hsweep.bind hrest, fun haccounted _ => hall haccounted.failed, fun hdecide => ?_⟩
      obtain ⟨⟨n, hn⟩, hdone⟩ := hcounted (hdecide rfl)
      have hdecided : t.metrics.decided = 0 + n := hn.decided
      have hcandidates : t.metrics.candidates = 0 + n := hn.candidates
      have hitems : t.items.length = 0 + n := hn.items
      exact
        { decided := hdecided.trans hcandidates.symm
          items := hitems.trans hcandidates.symm
          failed := hn.failed
          completed := fun _ hwet turn hturn heligible _ =>
            (hdone hwet).2 turn hturn heligible }

/-- A run over a store that does not fail accounts for every candidate exactly when each message
it extracts has an answer without overflows, and names an agent wherever it proposes something
private to one. -/
theorem extraction_accounts_iff (settings : ExtractionSettings) (now : Time)
    (turns : List MessageTurn) (hstore : ∀ turn ∈ turns, turn.StoreWorks) (db : ExtractionDb) :
    outcome (runMemoryExtraction settings now turns) { db := db } = .ok ()
      ∧ (AllAccounted settings turns (after (runMemoryExtraction settings now turns) { db := db })
        ↔ settings.enabled = true → AllDecide settings db turns) := by
  obtain ⟨t, ⟨houtcome, rfl⟩, hiff⟩ :=
    runMemoryExtraction_returns settings now turns hstore db
  exact ⟨houtcome, hiff⟩

end Run

/-! ### One message -/

def plainSettings : ExtractionSettings where
  service := plainService
  policy := ⟨9 / 10, 49 / 50, fun _ _ => false⟩
  env := ⟨id, fun _ => .ok ⟨1, defaultConfidence_unit⟩⟩
  chatModel := "m"

/-- The model proposes a job for the profile of the user. -/
def jobAnswer : Dict :=
  [("candidates", .arr [.obj [("operation", .str "upsert"), ("namespace", .str "profile"),
    ("key", .str "job"), ("value", .str "nurse"), ("evidence_type", .str "explicit_fact")]])]

/-- A message of a user, to an agent or to none. -/
def jobTurn (agent : Json) : MessageTurn where
  row := [("trace_id", .str "t1"), ("user_id", .str "u1"), ("content", .str "hi"),
    ("metadata", .obj [("agent_id", agent)])]
  tables := ⟨some [], some []⟩
  tenantEnv := none
  lookupFailure := none
  answer := .ok jobAnswer
  statusRead := true
  faults := fun _ => ⟨.done, ⟨true, .done, 1, 1, 1⟩, .done⟩
  completed := .done
  failed := .done

theorem jobTurn_storeWorks (agent : Json) : (jobTurn agent).StoreWorks :=
  ⟨rfl, fun _ => rfl, fun _ => rfl, rfl, rfl⟩

theorem jobTurn_nameSpaces : ∀ agent ∈ [Json.null, .str "a1"],
    ((jobTurn agent).candidates plainSettings.env).toOption.map
      (List.map MemoryCandidate.nameSpace) = some ["profile"] := by
  decide +kernel

theorem jobTurn_candidates {agent : Json} (h : agent ∈ [Json.null, .str "a1"]) :
    ∃ candidates, (jobTurn agent).candidates plainSettings.env = .ok candidates
      ∧ ∃ candidate ∈ candidates, candidate.nameSpace = "profile" := by
  have hnames := jobTurn_nameSpaces agent h
  cases hcandidates : (jobTurn agent).candidates plainSettings.env with
  | error raised =>
      rw [hcandidates] at hnames
      cases hnames
  | ok candidates =>
      rw [hcandidates] at hnames
      have hmap : candidates.map MemoryCandidate.nameSpace = ["profile"] := Option.some.inj hnames
      have hmem : "profile" ∈ candidates.map MemoryCandidate.nameSpace := by
        rw [hmap]
        exact List.mem_singleton_self _
      obtain ⟨candidate, hcandidate, hname⟩ := List.mem_map.mp hmem
      exact ⟨candidates, rfl, candidate, hcandidate, hname⟩

theorem extraction_accounts_named :
    AllAccounted plainSettings [jobTurn (.str "a1")]
      (after (runMemoryExtraction plainSettings 1 [jobTurn (.str "a1")])
        { db := { memories := emptyStore.tables } }) := by
  refine (extraction_accounts_iff plainSettings 1 [jobTurn (.str "a1")]
    (fun turn hturn => ?_) { memories := emptyStore.tables }).2.mpr fun _ => ?_
  · rw [List.mem_singleton.mp hturn]
    exact jobTurn_storeWorks _
  · intro before turn after heq _ _
    have hturn : turn ∈ [jobTurn (.str "a1")] := by
      rw [heq]
      exact List.mem_append_right _ List.mem_cons_self
    obtain ⟨candidates, hcandidates, -⟩ := jobTurn_candidates
      (List.mem_cons_of_mem _ List.mem_cons_self : Json.str "a1" ∈ [Json.null, .str "a1"])
    have hagent : (jobTurn (.str "a1")).agentId = some "a1" := by decide
    rw [List.mem_singleton.mp hturn]
    exact ⟨candidates, hcandidates, fun _ _ hnone => by rw [hagent] at hnone; cases hnone⟩

/-- Without an agent the message is counted as failed. -/
theorem agentless_message_fails :
    ¬ ∀ (settings : ExtractionSettings) (now : Time) (turns : List MessageTurn) (db : ExtractionDb),
      (∀ turn ∈ turns, turn.StoreWorks ∧ turn.policyAvailable = true
        ∧ ∃ payload, turn.answer = .ok payload) →
        AllAccounted settings turns
          (after (runMemoryExtraction settings now turns) { db := db }) := by
  intro h
  have haccounted := h plainSettings 1 [jobTurn .null] { memories := emptyStore.tables }
    fun turn hturn => by
      rw [List.mem_singleton.mp hturn]
      exact ⟨jobTurn_storeWorks _, by decide, _, rfl⟩
  obtain ⟨t, ⟨-, rfl⟩, hiff⟩ := runMemoryExtraction_returns plainSettings 1
    [jobTurn .null] (fun turn hturn => by
      rw [List.mem_singleton.mp hturn]
      exact jobTurn_storeWorks _) { memories := emptyStore.tables }
  have heligible : (jobTurn .null).Eligible := by
    unfold MessageTurn.Eligible
    decide
  obtain ⟨candidates, hcandidates, hscoped⟩ := hiff.mp haccounted rfl [] _ [] rfl heligible
    fun _ => ⟨rfl, fun _ hmem => by cases hmem⟩
  obtain ⟨proposed, hproposed, candidate, hcandidate, hname⟩ :=
    jobTurn_candidates List.mem_cons_self
  have hmem : candidate ∈ candidates := by
    rw [Except.ok.inj (hcandidates.symm.trans hproposed)]
    exact hcandidate
  refine hscoped candidate hmem (by decide) ?_
  rw [hname]
  decide

end Aegora
