import Aegora.PlannerEngines

/-!
# What a planner node changes

Two facts per node. It does not look at the `runtime_context` entry of the
context by itself (`…_withRuntimeContext`): only a dependency can. And what
authorizes and bounds the turn is kept (`Keeps`): the tool catalog, the
scopes `load_skill` enforces, the status and the loop counter, with the
exceptions each node's lemma names.
-/

namespace Aegora

open Py Flows

/-! ## The runtime context is opaque to the nodes -/

/-- A node's result with the runtime context of its state replaced. -/
def relive (live : Option Json) (result : NodeResult) : NodeResult :=
  result.map fun p => (p.1.withRuntimeContext live, p.2)

theorem loadSkillsPost_withRuntimeContext (request : AgentRequest) (s : PlannerState)
    (live : Option Json) (result : Dict) :
    loadSkillsPost ⟨request, s.withRuntimeContext live⟩ result
      = relive live (loadSkillsPost ⟨request, s⟩ result) := by
  unfold loadSkillsPost
  cases skillRetrievalPayload request result with
  | error e => rfl
  | ok payload => rfl

theorem preGuardPost_withRuntimeContext (request : AgentRequest) (s : PlannerState)
    (live : Option Json) (result : Dict) :
    preGuardPost ⟨request, s.withRuntimeContext live⟩ result
      = relive live (preGuardPost ⟨request, s⟩ result) := by
  have hsame : preGuardPayload request (s.withRuntimeContext live).context result
      = preGuardPayload request s.context result := rfl
  unfold preGuardPost
  rw [hsame]
  cases preGuardPayload request s.context result with
  | error e => rfl
  | ok payload => rfl

theorem mergeToolLoadedSkill_withRuntimeContext (s : PlannerState) (live : Option Json)
    (result : Dict) :
    mergeToolLoadedSkill (s.withRuntimeContext live) result
      = (mergeToolLoadedSkill s result).map (·.withRuntimeContext live) := by
  have hsame : loadedSkills (s.withRuntimeContext live).skills result
      = loadedSkills s.skills result := rfl
  unfold mergeToolLoadedSkill
  rw [hsame]
  cases loadedSkills s.skills result with
  | error e => rfl
  | ok skills =>
      cases skills with
      | none => rfl
      | some skills => rfl

/-- The gathered results with another runtime context. -/
def BatchFold.withRuntimeContext (acc : BatchFold) (live : Option Json) : BatchFold :=
  { acc with state := acc.state.withRuntimeContext live }

theorem loadResult_withRuntimeContext (s : PlannerState) (live : Option Json)
    (result : Dict) :
    loadResult (s.withRuntimeContext live) result
      = (loadResult s result).map (·.withRuntimeContext live) := by
  unfold loadResult
  split
  · exact mergeToolLoadedSkill_withRuntimeContext s live result
  · rfl

theorem foldResult_withRuntimeContext (acc : BatchFold) (live : Option Json) (item : Json) :
    foldResult (acc.withRuntimeContext live) item
      = (foldResult acc item).map (·.withRuntimeContext live) := by
  unfold foldResult
  cases getter item with
  | error e => rfl
  | ok result =>
      have hload : loadResult (acc.withRuntimeContext live).state result
          = (loadResult acc.state result).map (·.withRuntimeContext live) :=
        loadResult_withRuntimeContext acc.state live result
      simp only [bind, Except.bind, hload]
      cases loadResult acc.state result with
      | error e => rfl
      | ok state => cases searchResult result <;> rfl

theorem foldResults_withRuntimeContext (items : List Json) (acc : BatchFold)
    (live : Option Json) :
    items.foldlM foldResult (acc.withRuntimeContext live)
      = (items.foldlM foldResult acc).map (·.withRuntimeContext live) := by
  induction items generalizing acc with
  | nil => rfl
  | cons item items ih =>
      rw [List.foldlM_cons, List.foldlM_cons, foldResult_withRuntimeContext]
      cases foldResult acc item with
      | error e => rfl
      | ok next => exact ih next

theorem ranPost_withRuntimeContext (s : PlannerState) (live : Option Json) (batch : Dict) :
    ranPost (s.withRuntimeContext live) batch = relive live (ranPost s batch) := by
  have hfold := foldResults_withRuntimeContext (batchResults batch) { state := s } live
  have hsame : ranEvents (s.withRuntimeContext live) batch = ranEvents s batch := rfl
  have hevents : ∀ (events : List Dict) (t : PlannerState),
      events.foldl appendObservability (t.withRuntimeContext live)
        = (events.foldl appendObservability t).withRuntimeContext live := by
    intro events
    induction events with
    | nil => exact fun t => rfl
    | cons event events ih => exact fun t => ih (appendObservability t event)
  unfold ranPost
  rw [hsame]
  change (List.foldlM foldResult (BatchFold.withRuntimeContext { state := s } live) _ >>= _) = _
  rw [hfold]
  cases (batchResults batch).foldlM foldResult { state := s } with
  | error e => rfl
  | ok acc =>
      have hfaqs : gatheredFaqs (acc.withRuntimeContext live) = gatheredFaqs acc := rfl
      simp only [Except.map, bind, Except.bind, hfaqs]
      cases gatheredFaqs acc with
      | error e => rfl
      | ok faqs =>
          cases ranEvents s batch with
          | error e => rfl
          | ok reported =>
              have h := hevents reported.2.1 (appendObservability
                (appendTrace { acc.state with retrievedFaqs := faqs } "ExecuteToolNode"
                  reported.2.2 reported.1)
                ([("event", Json.str "tool_batch"), ("node", .str "ExecuteToolNode")]
                  ++ reported.1))
              exact congrArg (fun t => Except.ok (t, reported.2.2)) h

theorem executeToolPost_withRuntimeContext (s : PlannerState) (live : Option Json)
    (batch : Dict) :
    executeToolPost (s.withRuntimeContext live) batch
      = relive live (executeToolPost s batch) := by
  unfold executeToolPost
  dsimp only
  split
  · have hsame : ∀ t : PlannerState,
        pendingPayload (t.withRuntimeContext live) batch = pendingPayload t batch := fun _ => rfl
    unfold pendingPost
    change (pendingPayload (PlannerState.withRuntimeContext { s with
      toolObservations := s.toolObservations ++ batchResults batch } live) batch >>= _) = _
    rw [hsame]
    cases pendingPayload { s with
      toolObservations := s.toolObservations ++ batchResults batch } batch <;> rfl
  · exact ranPost_withRuntimeContext
      { s with toolObservations := s.toolObservations ++ batchResults batch } live batch

theorem selfCheckPost_withRuntimeContext (s : PlannerState) (live : Option Json)
    (result : SelfCheckResult) :
    selfCheckPost (s.withRuntimeContext live) result
      = (selfCheckPost s result).withRuntimeContext live := by
  have hstatus : (s.withRuntimeContext live).status = s.status := rfl
  unfold selfCheckPost
  rw [hstatus]
  split <;> rfl

/-! ## What the nodes keep -/

/-- The scopes `current_tool_scope` chooses from. -/
def PlannerState.toolScopes (s : PlannerState) : Dict :=
  (s.context.get "tool_scopes").dictOrEmpty

/-- The same authorization, bound and status. -/
structure Keeps (s s' : PlannerState) : Prop where
  toolCatalog : s'.toolCatalog = s.toolCatalog
  toolScopes : s'.toolScopes = s.toolScopes
  live : s'.context.runtimeContext = s.context.runtimeContext
  status : s'.status = s.status
  loopCount : s'.loopCount = s.loopCount

theorem Keeps.rfl {s : PlannerState} : Keeps s s := ⟨by rfl, by rfl, by rfl, by rfl, by rfl⟩

theorem Keeps.trans {s s' s'' : PlannerState} (h : Keeps s s') (h' : Keeps s' s'') :
    Keeps s s'' where
  toolCatalog := h'.toolCatalog.trans h.toolCatalog
  toolScopes := h'.toolScopes.trans h.toolScopes
  live := h'.live.trans h.live
  status := h'.status.trans h.status
  loopCount := h'.loopCount.trans h.loopCount

theorem appendTrace_keeps (s : PlannerState) (node action : String) (payload : Dict) :
    Keeps s (appendTrace s node action payload) := ⟨rfl, rfl, rfl, rfl, rfl⟩

theorem appendObservability_keeps (s : PlannerState) (event : Dict) :
    Keeps s (appendObservability s event) := ⟨rfl, rfl, rfl, rfl, rfl⟩

theorem appendEvents_keeps (events : List Dict) (s : PlannerState) :
    Keeps s (events.foldl appendObservability s) := by
  induction events generalizing s with
  | nil => exact .rfl
  | cons event events ih => exact (appendObservability_keeps s event).trans (ih _)

theorem get_set_context (c : PlannerContext) (key other : String) (value : Json)
    (hkey : key ≠ "runtime_context") (hother : other ≠ "runtime_context") (hne : other ≠ key) :
    (c.set key value).get other = c.get other := by
  simp [PlannerContext.set, PlannerContext.get, hkey, hother, Dict.get_set, hne]

theorem runtimeContext_set (c : PlannerContext) (key : String) (value : Json)
    (hkey : key ≠ "runtime_context") : (c.set key value).runtimeContext = c.runtimeContext := by
  simp [PlannerContext.set, hkey]

theorem loadSkillsPost_keeps {request : AgentRequest} {s s' : PlannerState} {result : Dict}
    {action : String} (h : loadSkillsPost ⟨request, s⟩ result = .ok (s', action)) :
    Keeps s s' ∧ action = "ok" := by
  unfold loadSkillsPost at h
  obtain ⟨payload, -, h⟩ := bind_eq_ok.mp h
  cases h
  refine ⟨⟨rfl, ?_, ?_, rfl, rfl⟩, rfl⟩
  · change Json.dictOrEmpty (PlannerContext.get _ _) = _
    simp only [appendObservability, appendTrace]
    rw [get_set_context _ _ _ _ (by decide) (by decide) (by decide),
      get_set_context _ _ _ _ (by decide) (by decide) (by decide),
      get_set_context _ _ _ _ (by decide) (by decide) (by decide),
      get_set_context _ _ _ _ (by decide) (by decide) (by decide)]
    rfl
  · simp only [appendObservability, appendTrace]
    rw [runtimeContext_set _ _ _ (by decide), runtimeContext_set _ _ _ (by decide),
      runtimeContext_set _ _ _ (by decide), runtimeContext_set _ _ _ (by decide)]

theorem preGuardPost_keeps {request : AgentRequest} {s s' : PlannerState} {result : Dict}
    {action : String} (h : preGuardPost ⟨request, s⟩ result = .ok (s', action)) :
    Keeps s s' ∧ action = "ok" := by
  unfold preGuardPost at h
  obtain ⟨payload, -, h⟩ := bind_eq_ok.mp h
  cases h
  exact ⟨⟨rfl, rfl, rfl, rfl, rfl⟩, rfl⟩

theorem mergeToolLoadedSkill_keeps {s s' : PlannerState} {result : Dict}
    (h : mergeToolLoadedSkill s result = .ok s') : Keeps s s' := by
  unfold mergeToolLoadedSkill at h
  obtain ⟨skills, -, h⟩ := bind_eq_ok.mp h
  cases skills with
  | none => cases h; exact .rfl
  | some skills =>
      cases h
      refine ⟨rfl, ?_, runtimeContext_set _ _ _ (by decide), rfl, rfl⟩
      exact congrArg Json.dictOrEmpty
        (get_set_context s.context _ _ _ (by decide) (by decide) (by decide))

theorem foldResults_keeps {items : List Json} {acc acc' : BatchFold}
    (h : items.foldlM foldResult acc = .ok acc') : Keeps acc.state acc'.state := by
  induction items generalizing acc with
  | nil => cases h; exact .rfl
  | cons item items ih =>
      rw [List.foldlM_cons] at h
      obtain ⟨next, hnext, h⟩ := bind_eq_ok.mp h
      refine Keeps.trans ?_ (ih h)
      unfold foldResult at hnext
      obtain ⟨result, -, hnext⟩ := bind_eq_ok.mp hnext
      obtain ⟨state, hstate, hnext⟩ := bind_eq_ok.mp hnext
      obtain ⟨found, -, hnext⟩ := bind_eq_ok.mp hnext
      cases hnext
      unfold loadResult at hstate
      split at hstate
      · exact mergeToolLoadedSkill_keeps hstate
      · cases hstate; exact .rfl

theorem ranPost_keeps {s s' : PlannerState} {batch : Dict} {action : String}
    (h : ranPost s batch = .ok (s', action)) :
    Keeps s s' ∧ (action = "ok" ∨ action = "error") := by
  unfold ranPost at h
  obtain ⟨acc, hacc, h⟩ := bind_eq_ok.mp h
  obtain ⟨faqs, -, h⟩ := bind_eq_ok.mp h
  obtain ⟨⟨payload, events, action'⟩, hevents, h⟩ := bind_eq_ok.mp h
  cases h
  constructor
  · have hgathered : Keeps acc.state { acc.state with retrievedFaqs := faqs } :=
      ⟨rfl, rfl, rfl, rfl, rfl⟩
    exact ((((foldResults_keeps hacc).trans hgathered).trans
      (appendTrace_keeps _ _ _ _)).trans (appendObservability_keeps _ _)).trans
      (appendEvents_keeps _ _)
  · unfold ranEvents at hevents
    obtain ⟨results, -, hevents⟩ := bind_eq_ok.mp hevents
    obtain ⟨events', -, hevents⟩ := bind_eq_ok.mp hevents
    cases hevents
    split
    · exact Or.inr rfl
    · exact Or.inl rfl

theorem pendingPost_spec {s s' : PlannerState} {batch : Dict} {action : String}
    (h : pendingPost s batch = .ok (s', action)) :
    Keeps { s with status := "pending_approval" } s' ∧ action = "pending_approval" := by
  unfold pendingPost at h
  obtain ⟨payload, -, h⟩ := bind_eq_ok.mp h
  cases h
  exact ⟨⟨rfl, rfl, rfl, rfl, rfl⟩, rfl⟩

/-- A batch keeps the status, or waits for approval and says so. -/
theorem executeToolPost_spec {s s' : PlannerState} {batch : Dict} {action : String}
    (h : executeToolPost s batch = .ok (s', action)) :
    (batchPending batch = false ∧ Keeps s s' ∧ (action = "ok" ∨ action = "error"))
      ∨ (batchPending batch = true ∧ Keeps { s with status := "pending_approval" } s'
          ∧ action = "pending_approval") := by
  have hobserved : Keeps s { s with
      toolObservations := s.toolObservations ++ batchResults batch } := ⟨rfl, rfl, rfl, rfl, rfl⟩
  unfold executeToolPost at h
  dsimp only at h
  split at h
  · rename_i hpending
    obtain ⟨hkeeps, haction⟩ := pendingPost_spec h
    exact Or.inr ⟨hpending, ⟨hkeeps.1, hkeeps.2, hkeeps.3, hkeeps.4, hkeeps.5⟩, haction⟩
  · rename_i hpending
    obtain ⟨hkeeps, haction⟩ := ranPost_keeps h
    exact Or.inl ⟨by simpa using hpending, hobserved.trans hkeeps, haction⟩

/-- Thinking counts; the route it sets picks the edge. -/
theorem thinkPost_spec (s : PlannerState) (d : AgentDecision) :
    Keeps { s with loopCount := s.loopCount + 1 } (thinkPost s d).1
      ∧ (thinkPost s d).1.route = some d.route
      ∧ (thinkPost s d).1.decision = some (decisionAsDict d) :=
  ⟨⟨rfl, rfl, rfl, rfl, rfl⟩, rfl, rfl⟩

/-! ## One lemma for each node -/

section

variable {maxIterations : Int} {deps : AgentDependencies} {request : AgentRequest}
  {s s' : PlannerState} {action : String}

theorem loadContextNode_spec (h : loadContextNode deps ⟨request, s⟩ = .ok (s', action)) :
    ∃ context, deps.loadContext request = .ok context
      ∧ Keeps { s with context := .ofDict context } s' ∧ action = "ok" := by
  unfold loadContextNode at h
  obtain ⟨context, hcontext, h⟩ := bind_eq_ok.mp h
  cases h
  exact ⟨context, hcontext, appendTrace_keeps _ _ _ _, rfl⟩

theorem loadSkillsNode_spec (h : loadSkillsNode deps ⟨request, s⟩ = .ok (s', action)) :
    Keeps s s' ∧ action = "ok" :=
  loadSkillsPost_keeps h

theorem preGuardNode_spec (h : preGuardNode deps ⟨request, s⟩ = .ok (s', action)) :
    Keeps s s' ∧ action = "ok" := by
  unfold preGuardNode at h
  obtain ⟨result, -, h⟩ := bind_eq_ok.mp h
  exact preGuardPost_keeps h

theorem thinkNode_spec (h : thinkNode maxIterations deps ⟨request, s⟩ = .ok (s', action)) :
    ∃ d : Decided, thinkExec maxIterations deps ⟨request, s⟩ = .ok d
      ∧ s' = (thinkPost s d.1).1 ∧ action = (thinkPost s d.1).2 := by
  unfold thinkNode at h
  obtain ⟨d, hd, h⟩ := bind_eq_ok.mp h
  have hpair : thinkPost s d.1 = (s', action) := Except.ok.inj h
  exact ⟨d, hd, (congrArg Prod.fst hpair).symm, (congrArg Prod.snd hpair).symm⟩

theorem executeToolNode_spec (h : executeToolNode deps ⟨request, s⟩ = .ok (s', action)) :
    ∃ batch, executeToolExec deps ⟨request, s⟩ = .ok batch
      ∧ executeToolPost s batch = .ok (s', action) :=
  bind_eq_ok.mp h

theorem selfCheckNode_spec (h : selfCheckNode deps ⟨request, s⟩ = .ok (s', action)) :
    ∃ result, selfCheckExec deps ⟨request, s⟩ = .ok result ∧ s' = selfCheckPost s result
      ∧ action = "done" := by
  unfold selfCheckNode at h
  obtain ⟨result, hresult, h⟩ := bind_eq_ok.mp h
  cases h
  exact ⟨result, hresult, rfl, rfl⟩

/-- Every node after `load_context` keeps the runtime context. -/
theorem visitNode_live {node : PlannerNode} (hnode : node ≠ .loadContext)
    (h : visitNode maxIterations deps node ⟨request, s⟩ = .ok (s', action)) :
    s'.context.runtimeContext = s.context.runtimeContext := by
  cases node with
  | loadContext => exact absurd rfl hnode
  | loadSkills => exact (loadSkillsNode_spec h).1.live
  | preGuard => exact (preGuardNode_spec h).1.live
  | think =>
      obtain ⟨d, -, rfl, -⟩ := thinkNode_spec h
      exact (thinkPost_spec s d.1).1.live
  | executeTool =>
      obtain ⟨batch, -, hpost⟩ := executeToolNode_spec h
      rcases executeToolPost_spec hpost with ⟨-, hkeeps, -⟩ | ⟨-, hkeeps, -⟩
      · exact hkeeps.live
      · exact hkeeps.live
  | selfCheck =>
      obtain ⟨result, -, rfl, -⟩ := selfCheckNode_spec h
      unfold selfCheckPost
      split <;> rfl

/-- The edges out of `think`: a tool call, or the self check. -/
theorem thinkPost_edge (s : PlannerState) (d : Decided) :
    plannerEdge .think (thinkPost s d.1).2
      = some (if d.1.route = "tool_call" then .executeTool else .selfCheck) := by
  obtain ⟨d, hd⟩ := d
  have hroutes : d.route = "faq_answer" ∨ d.route = "answer" ∨ d.route = "tool_call"
      ∨ d.route = "clarify" ∨ d.route = "handoff" ∨ d.route = "chat" := by
    simpa [plannerRoutes] using hd
  unfold thinkPost
  rcases hroutes with h | h | h | h | h | h <;> simp [h, plannerEdge]

/-! ## Moves

What the edges of either engine do, as far as the loop counter tells: one
relation that both flows follow, and the rank that every move lowers. -/

/-- `execute_tool` is about to return a batch that waits for approval. -/
def batchWaits (deps : AgentDependencies) (s : Store) : Bool :=
  match executeToolExec deps s with
  | .ok batch => batchPending batch
  | .error _ => false

/-- From a node and loop counter to the next ones. -/
inductive Moves (maxIterations : Int) (waits : Bool) :
    PlannerNode → Int → PlannerNode → Int → Prop where
  | loadContext (n : Int) : Moves maxIterations waits .loadContext n .loadSkills n
  | loadSkills (n : Int) : Moves maxIterations waits .loadSkills n .preGuard n
  | preGuard (n : Int) : Moves maxIterations waits .preGuard n .think n
  | toolCall (n : Int) (hle : n + 1 ≤ maxIterations) :
      Moves maxIterations waits .think n .executeTool (n + 1)
  | answer (n : Int) : Moves maxIterations waits .think n .selfCheck (n + 1)
  | ran (n : Int) (hran : waits = false) : Moves maxIterations waits .executeTool n .think n
  | parked (n : Int) (hwaits : waits = true) :
      Moves maxIterations waits .executeTool n .selfCheck n

/-- A bound on the visits after this one: two for each iteration left, and the nodes
before the first. -/
def plannerRank (maxIterations : Int) : PlannerNode → Int → Nat
  | .selfCheck, _ => 0
  | .think, n => 2 * (maxIterations - n).toNat + 1
  | .executeTool, n => 2 * (maxIterations - n).toNat + 2
  | .preGuard, n => 2 * (maxIterations - n).toNat + 2
  | .loadSkills, n => 2 * (maxIterations - n).toNat + 3
  | .loadContext, n => 2 * (maxIterations - n).toNat + 4

theorem Moves.rank_lt {waits : Bool} {node next : PlannerNode} {n n' : Int}
    (h : Moves maxIterations waits node n next n') :
    plannerRank maxIterations next n' < plannerRank maxIterations node n := by
  cases h <;> simp only [plannerRank] <;> omega

/-- A tool call is decided within the bound. -/
theorem thinkExec_toolCall {store : Store} {d : Decided}
    (h : thinkExec maxIterations deps store = .ok d) (hd : d.1.route = "tool_call") :
    store.state.loopCount + 1 ≤ maxIterations := by
  unfold thinkExec at h
  split at h
  · cases h
    exact absurd hd (by decide)
  · omega

theorem plannerVisit_goto {node next : PlannerNode}
    (h : plannerVisit maxIterations request deps node s = .goto next s') :
    ∃ action, visitNode maxIterations deps node ⟨request, s⟩ = .ok (s', action)
      ∧ plannerEdge node action = some next := by
  unfold plannerVisit at h
  cases hv : visitNode maxIterations deps node ⟨request, s⟩ with
  | error e => rw [hv] at h; cases h
  | ok result =>
      obtain ⟨t, action⟩ := result
      rw [hv] at h
      dsimp only at h
      cases hedge : plannerEdge node action with
      | none => rw [hedge] at h; cases h
      | some next' =>
          rw [hedge] at h
          cases h
          exact ⟨action, rfl, hedge⟩

/-- What a visit of `execute_tool` says about its batch. -/
theorem executeToolNode_waits
    (h : executeToolNode deps ⟨request, s⟩ = .ok (s', action)) :
    s'.loopCount = s.loopCount
      ∧ (batchWaits deps ⟨request, s⟩ = false ∧ s'.status = s.status
            ∧ (action = "ok" ∨ action = "error")
          ∨ batchWaits deps ⟨request, s⟩ = true ∧ s'.status = "pending_approval"
            ∧ action = "pending_approval") := by
  obtain ⟨batch, hexec, hpost⟩ := executeToolNode_spec h
  have hwaits : batchWaits deps ⟨request, s⟩ = batchPending batch := by
    unfold batchWaits
    rw [hexec]
  rw [hwaits]
  rcases executeToolPost_spec hpost with ⟨hran, hkeeps, haction⟩ | ⟨hpending, hkeeps, haction⟩
  · exact ⟨hkeeps.loopCount, Or.inl ⟨hran, hkeeps.status, haction⟩⟩
  · exact ⟨hkeeps.loopCount, Or.inr ⟨hpending, hkeeps.status, haction⟩⟩

theorem plannerVisit_moves {node next : PlannerNode}
    (h : plannerVisit maxIterations request deps node s = .goto next s') :
    Moves maxIterations (batchWaits deps ⟨request, s⟩) node s.loopCount next s'.loopCount := by
  obtain ⟨action, hv, hedge⟩ := plannerVisit_goto h
  cases node with
  | loadContext =>
      obtain ⟨context, -, hkeeps, rfl⟩ := loadContextNode_spec hv
      cases hedge
      rw [hkeeps.loopCount]
      exact .loadContext _
  | loadSkills =>
      obtain ⟨hkeeps, rfl⟩ := loadSkillsNode_spec hv
      cases hedge
      rw [hkeeps.loopCount]
      exact .loadSkills _
  | preGuard =>
      obtain ⟨hkeeps, rfl⟩ := preGuardNode_spec hv
      cases hedge
      rw [hkeeps.loopCount]
      exact .preGuard _
  | think =>
      obtain ⟨d, hexec, rfl, rfl⟩ := thinkNode_spec hv
      rw [(thinkPost_spec s d.1).1.loopCount]
      rw [thinkPost_edge] at hedge
      split at hedge
      · rename_i hd
        cases hedge
        exact .toolCall _ (thinkExec_toolCall hexec hd)
      · cases hedge
        exact .answer _
  | executeTool =>
      obtain ⟨hcount, ⟨hran, -, haction⟩ | ⟨hwaits, -, rfl⟩⟩ := executeToolNode_waits hv
      · have hnext : next = .think := by
          rcases haction with rfl | rfl <;> cases hedge <;> rfl
        rw [hcount, hnext]
        exact .ran _ hran
      · cases hedge
        rw [hcount]
        exact .parked _ hwaits
  | selfCheck =>
      obtain ⟨result, -, -, rfl⟩ := selfCheckNode_spec hv
      cases hedge

/-! ## The graph's visits -/

variable {live : Dict}

theorem adapterState_toolCatalog (live : Dict) (s : PlannerState) :
    (adapterState live s).toolCatalog = s.toolCatalog := by
  unfold adapterState
  split <;> rfl

theorem adapterState_toolScopes (live : Dict) (s : PlannerState) :
    (adapterState live s).toolScopes = s.toolScopes := by
  unfold adapterState
  split <;> rfl

theorem adapterState_loopCount (live : Dict) (s : PlannerState) :
    (adapterState live s).loopCount = s.loopCount := by
  unfold adapterState
  split <;> rfl

theorem graphVisit_goto {node next : PlannerNode}
    (h : graphVisit maxIterations request deps live node s = .goto next s') :
    ∃ t action, visitNode maxIterations deps node ⟨request, adapterState live s⟩ = .ok (t, action)
      ∧ s' = persistedState t ∧ graphEdge node (persistedState t) = .node next := by
  unfold graphVisit at h
  cases hv : visitNode maxIterations deps node ⟨request, adapterState live s⟩ with
  | error e => rw [hv] at h; cases h
  | ok result =>
      obtain ⟨t, action⟩ := result
      rw [hv] at h
      dsimp only at h
      cases hedge : graphEdge node (persistedState t) with
      | node next' =>
          rw [hedge] at h
          cases h
          exact ⟨t, action, rfl, rfl, hedge⟩
      | awaitApproval => rw [hedge] at h; cases h
      | done => rw [hedge] at h; cases h

theorem graphVisit_moves {node next : PlannerNode}
    (h : graphVisit maxIterations request deps live node s = .goto next s') :
    Moves maxIterations (batchWaits deps ⟨request, adapterState live s⟩) node s.loopCount next
      s'.loopCount := by
  obtain ⟨t, action, hv, rfl, hedge⟩ := graphVisit_goto h
  have hsaved : (persistedState t).loopCount = t.loopCount := rfl
  rw [hsaved, ← adapterState_loopCount live s]
  cases node with
  | loadContext =>
      obtain ⟨context, -, hkeeps, -⟩ := loadContextNode_spec hv
      cases hedge
      rw [hkeeps.loopCount]
      exact .loadContext _
  | loadSkills =>
      cases hedge
      rw [(loadSkillsNode_spec hv).1.loopCount]
      exact .loadSkills _
  | preGuard =>
      cases hedge
      rw [(preGuardNode_spec hv).1.loopCount]
      exact .preGuard _
  | think =>
      obtain ⟨d, hexec, ht, -⟩ := thinkNode_spec hv
      obtain ⟨hkeeps, hroute, -⟩ := thinkPost_spec (adapterState live s) d.1
      rw [← ht] at hkeeps hroute
      rw [hkeeps.loopCount]
      have hnext : next = routeAfterThink (persistedState t) :=
        (GraphTarget.node.inj hedge).symm
      rw [hnext]
      unfold routeAfterThink
      split
      · rename_i htools
        have hd : d.1.route = "tool_call" := Option.some.inj (hroute.symm.trans htools)
        exact .toolCall _ (thinkExec_toolCall hexec hd)
      · exact .answer _
  | executeTool =>
      obtain ⟨hcount, ⟨hran, -, -⟩ | ⟨-, hstatus, -⟩⟩ := executeToolNode_waits hv
      · dsimp only [graphEdge] at hedge
        split at hedge
        · cases hedge
        · cases hedge
          rw [hcount]
          exact .ran _ hran
      · have hparked : (persistedState t).status = "pending_approval" := hstatus
        dsimp only [graphEdge] at hedge
        rw [if_pos hparked] at hedge
        cases hedge
  | selfCheck => cases hedge

/-! ## Resumption -/

theorem awaitApproval_keeps (payload : Json) (s : PlannerState) :
    Keeps { s with status := "running" } (awaitApproval payload s) := by
  unfold awaitApproval
  cases resumeApproves payload <;> exact ⟨rfl, rfl, rfl, rfl, rfl⟩

/-- An approval plans again, anything else ends the turn. -/
theorem routeAfterApproval_eq (payload : Json) (s : PlannerState) :
    routeAfterApproval (awaitApproval payload s)
      = if resumeApproves payload then .think else .selfCheck := by
  unfold routeAfterApproval awaitApproval
  cases resumeApproves payload <;> rfl

end

end Aegora
