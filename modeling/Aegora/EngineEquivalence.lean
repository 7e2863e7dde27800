import Aegora.PlannerNodes

/-!
# PocoFlow and LangGraph end alike

Both engines are started on one request, one initial state and one set of
dependencies. They visit the same nodes in lockstep: the states differ only
in the runtime context, which the graph strips from what it persists and
puts back before each node (`Lockstep`), and the edge of the action agrees
with the edge the graph reads off the state.

The last point needs the status: after a batch the graph asks whether the
state's status is `pending_approval`, whoever set it, while the flow asks
what the batch returned. A caller who starts a turn with that status sees
the graph suspend where the flow goes on.
-/

namespace Aegora

open Py Flows

/-! ## Dependencies that only read what both engines provide -/

/-- No dependency looks at the runtime context of the state. -/
structure IgnoresRuntimeContext (deps : AgentDependencies) : Prop where
  think : ∀ request s live,
    deps.think ⟨request, s.withRuntimeContext live⟩ = deps.think ⟨request, s⟩
  selfCheck : ∀ request s live,
    deps.selfCheck ⟨request, s.withRuntimeContext live⟩ = deps.selfCheck ⟨request, s⟩
  runTool : ∀ name args request s live,
    deps.runTool name args ⟨request, s.withRuntimeContext live⟩
      = deps.runTool name args ⟨request, s⟩
  runTools : ∀ run, deps.runTools = some run → ∀ calls request s live,
    run calls ⟨request, s.withRuntimeContext live⟩ = run calls ⟨request, s⟩
  loadSkills : ∀ load, deps.loadSkills = some load → ∀ request context live,
    load request { context with runtimeContext := live } = load request context
  preGuard : ∀ guard, deps.preGuard = some guard → ∀ request context live,
    guard request { context with runtimeContext := live } = guard request context

/-- Every key of the state is there in both engines except `runtime_context` in the
context: the graph provides the engine's own, the flow what `load_context` put there.
So either that is the same, or no dependency reads it. -/
def SharedKeysOnly (live : Dict) (deps : AgentDependencies) : Prop :=
  (live ≠ [] ∧ ∀ request context, deps.loadContext request = .ok context →
    Dict.get? context "runtime_context" = some (.obj live))
  ∨ IgnoresRuntimeContext deps

/-! ## What is compared -/

/-- What a turn ends with. -/
structure Observed where
  status : String
  route : Option String
  answer : Json
  loopCount : Int
  toolObservations : List Json
  errors : List String
  traceNodes : List String
deriving DecidableEq

def PlannerState.observed (s : PlannerState) : Observed where
  status := s.status
  route := s.route
  answer := s.answer
  loopCount := s.loopCount
  toolObservations := s.toolObservations
  errors := s.errors
  traceNodes := s.trace.map TraceEntry.node

/-- The two starts end, and alike: in the same way and with the same observed state.
A missing trace identifier is filled in with `fresh` by both. -/
def EndAlike (maxIterations : Int) (fresh : String) (request : AgentRequest)
    (deps : AgentDependencies) (live : Dict) (initial : List StateEntry) : Prop :=
  ∃ fuel out out',
    pocoFlowStart fuel maxIterations fresh request deps initial = some out
      ∧ langGraphStart fuel maxIterations fresh request deps live initial = some out'
      ∧ out.Alike (fun s t => s.observed = t.observed) out'

/-- No batch the flow comes to waits for approval. -/
def NoPendingBatch (maxIterations : Int) (request : AgentRequest) (deps : AgentDependencies)
    (initial : List StateEntry) : Prop :=
  ∀ s batch, Reaches (plannerVisit maxIterations request deps) .loadContext
      (plannerStart request deps initial) .executeTool s →
    executeToolExec deps ⟨request, s⟩ = .ok batch → batchPending batch = false

/-! ## One visit -/

section

variable {maxIterations : Int} {request : AgentRequest} {deps : AgentDependencies}
  {live : Dict} {initial : List StateEntry}

theorem runToolSafely_ignores (h : IgnoresRuntimeContext deps) (s : PlannerState)
    (x : Option Json) (call : Dict) :
    runToolSafely deps ⟨request, s.withRuntimeContext x⟩ call
      = runToolSafely deps ⟨request, s⟩ call := by
  unfold runToolSafely
  dsimp only
  rw [h.runTool]

theorem executeToolExec_ignores (h : IgnoresRuntimeContext deps) (s : PlannerState)
    (x : Option Json) :
    executeToolExec deps ⟨request, s.withRuntimeContext x⟩
      = executeToolExec deps ⟨request, s⟩ := by
  have hdecision : (s.withRuntimeContext x).decision = s.decision := rfl
  unfold executeToolExec
  dsimp only
  rw [hdecision]
  split
  · rfl
  · cases hrun : deps.runTools with
    | none => simp only [runToolSafely_ignores h]
    | some run => exact h.runTools run hrun _ _ _ _

/-- A node of dependencies that ignore the runtime context passes it through. -/
theorem visitNode_ignores (h : IgnoresRuntimeContext deps) {node : PlannerNode}
    (hnode : node ≠ .loadContext) (s : PlannerState) (x : Option Json) :
    visitNode maxIterations deps node ⟨request, s.withRuntimeContext x⟩
      = relive x (visitNode maxIterations deps node ⟨request, s⟩) := by
  cases node with
  | loadContext => exact absurd rfl hnode
  | loadSkills =>
      have hexec : loadSkillsExec deps ⟨request, s.withRuntimeContext x⟩
          = loadSkillsExec deps ⟨request, s⟩ := by
        unfold loadSkillsExec
        cases hload : deps.loadSkills with
        | none => rfl
        | some load =>
            have hsame : load request (s.withRuntimeContext x).context
                = load request s.context :=
              h.loadSkills load hload request s.context x
            dsimp only
            rw [hsame]
      change loadSkillsPost _ (loadSkillsExec deps _) = _
      rw [hexec]
      exact loadSkillsPost_withRuntimeContext request s x _
  | preGuard =>
      have hexec : preGuardExec deps ⟨request, s.withRuntimeContext x⟩
          = preGuardExec deps ⟨request, s⟩ := by
        unfold preGuardExec
        cases hguard : deps.preGuard with
        | none => rfl
        | some guard => exact h.preGuard guard hguard request s.context x
      change preGuardNode deps _ = relive x (preGuardNode deps _)
      unfold preGuardNode
      rw [hexec]
      cases preGuardExec deps ⟨request, s⟩ with
      | error e => rfl
      | ok result => exact preGuardPost_withRuntimeContext request s x result
  | think =>
      have hexec : thinkExec maxIterations deps ⟨request, s.withRuntimeContext x⟩
          = thinkExec maxIterations deps ⟨request, s⟩ := by
        have hcount : (s.withRuntimeContext x).loopCount = s.loopCount := rfl
        unfold thinkExec
        dsimp only
        rw [hcount, h.think]
      change thinkNode maxIterations deps _ = relive x (thinkNode maxIterations deps _)
      unfold thinkNode
      rw [hexec]
      cases thinkExec maxIterations deps ⟨request, s⟩ with
      | error e => rfl
      | ok d => rfl
  | executeTool =>
      change executeToolNode deps _ = relive x (executeToolNode deps _)
      unfold executeToolNode
      rw [executeToolExec_ignores h]
      cases executeToolExec deps ⟨request, s⟩ with
      | error e => rfl
      | ok batch => exact executeToolPost_withRuntimeContext s x batch
  | selfCheck =>
      have hexec : selfCheckExec deps ⟨request, s.withRuntimeContext x⟩
          = selfCheckExec deps ⟨request, s⟩ := by
        have hstatus : (s.withRuntimeContext x).status = s.status := rfl
        unfold selfCheckExec
        dsimp only
        rw [hstatus, h.selfCheck]
      change selfCheckNode deps _ = relive x (selfCheckNode deps _)
      unfold selfCheckNode
      rw [hexec]
      cases selfCheckExec deps ⟨request, s⟩ with
      | error e => rfl
      | ok result =>
          exact congrArg (fun t => Except.ok (t, "done"))
            (selfCheckPost_withRuntimeContext s x result)

/-! ## Lockstep -/

/-- The flow at a node in state `s`, the graph at the same node in state `t`. -/
structure Lockstep (maxIterations : Int) (request : AgentRequest) (deps : AgentDependencies)
    (live : Dict) (initial : List StateEntry) (node : PlannerNode) (s : PlannerState)
    (node' : PlannerNode) (t : PlannerState) : Prop where
  same : node' = node
  state : s.withRuntimeContext none = t.withRuntimeContext none
  shared : node = .loadContext ∨ IgnoresRuntimeContext deps
    ∨ (live ≠ [] ∧ s.context.runtimeContext = some (.obj live))
  status : node ≠ .selfCheck → s.status ≠ "pending_approval"
  reached : Reaches (plannerVisit maxIterations request deps) .loadContext
    (plannerStart request deps initial) node s

theorem adapterState_withRuntimeContext (s : PlannerState) (x : Option Json) :
    (adapterState live s).withRuntimeContext x = s.withRuntimeContext x := by
  unfold adapterState
  split <;> rfl

/-- Both engines' visits of a node have the same result up to the runtime context. Loading
replaces the context, and its input is the request alone. -/
theorem visit_alike {node node' : PlannerNode} {s t : PlannerState}
    (h : Lockstep maxIterations request deps live initial node s node' t) :
    relive none (visitNode maxIterations deps node ⟨request, s⟩)
      = relive none (visitNode maxIterations deps node' ⟨request, adapterState live t⟩) := by
  have hstate : s.withRuntimeContext none = (adapterState live t).withRuntimeContext none := by
    rw [h.state, adapterState_withRuntimeContext]
  rw [h.same]
  by_cases hnode : node = .loadContext
  · subst hnode
    have hload : ∀ u : PlannerState, loadContextNode deps ⟨request, u⟩
        = loadContextNode deps ⟨request, u.withRuntimeContext none⟩ := fun _ => rfl
    change relive none (loadContextNode deps _) = relive none (loadContextNode deps _)
    rw [hload s, hload (adapterState live t), hstate]
  · rcases h.shared with hshared | hignores | ⟨hne, hlive⟩
    · exact absurd hshared hnode
    · rw [← visitNode_ignores hignores hnode, ← visitNode_ignores hignores hnode, hstate]
    · have hsame : adapterState live t = s := by
        unfold adapterState
        rw [if_neg (by simpa using hne), ← hlive]
        have hback : (t.withRuntimeContext none).withRuntimeContext s.context.runtimeContext
            = (s.withRuntimeContext none).withRuntimeContext s.context.runtimeContext := by
          rw [h.state]
        exact hback
      rw [hsame]

theorem observed_eq {s t : PlannerState}
    (h : s.withRuntimeContext none = t.withRuntimeContext none) : s.observed = t.observed :=
  calc s.observed = (s.withRuntimeContext none).observed := rfl
    _ = (t.withRuntimeContext none).observed := by rw [h]
    _ = t.observed := rfl

theorem relive_eq_error {x y : NodeResult} {e : Exc} (h : relive none x = relive none y)
    (hx : x = .error e) : y = .error e := by
  subst hx
  cases y with
  | error e' => exact congrArg Except.error (Except.error.inj h).symm
  | ok p => cases h

theorem relive_eq_ok {x y : NodeResult} {s' : PlannerState} {action : String}
    (h : relive none x = relive none y) (hx : x = .ok (s', action)) :
    ∃ t', y = .ok (t', action) ∧ s'.withRuntimeContext none = t'.withRuntimeContext none := by
  subst hx
  cases y with
  | error e => cases h
  | ok p =>
      obtain ⟨t', action'⟩ := p
      have hpair := Except.ok.inj h
      have haction : action = action' := congrArg Prod.snd hpair
      exact ⟨t', by rw [haction], congrArg Prod.fst hpair⟩

/-- The next states are in lockstep again when the next node is the same. -/
theorem Lockstep.next (hshared : SharedKeysOnly live deps) {node next : PlannerNode}
    {node' : PlannerNode} {s t s' t' : PlannerState} {action : String}
    (h : Lockstep maxIterations request deps live initial node s node' t)
    (hvisit : visitNode maxIterations deps node ⟨request, s⟩ = .ok (s', action))
    (hedge : plannerEdge node action = some next)
    (hstate : s'.withRuntimeContext none = t'.withRuntimeContext none)
    (hstatus : next ≠ .selfCheck → s'.status ≠ "pending_approval") :
    Lockstep maxIterations request deps live initial next s' next (persistedState t') where
  same := rfl
  state := hstate
  status := hstatus
  reached := by
    refine h.reached.step ?_
    unfold plannerVisit
    rw [hvisit]
    dsimp only
    rw [hedge]
  shared := by
    right
    by_cases hnode : node = .loadContext
    · subst hnode
      obtain ⟨context, hcontext, hkeeps, -⟩ := loadContextNode_spec hvisit
      rcases hshared with ⟨hne, hload⟩ | hignores
      · exact Or.inr ⟨hne, hkeeps.live.trans (hload request context hcontext)⟩
      · exact Or.inl hignores
    · rcases h.shared with hload | hignores | ⟨hne, hlive⟩
      · exact absurd hload hnode
      · exact Or.inl hignores
      · exact Or.inr ⟨hne, (visitNode_live hnode hvisit).trans hlive⟩

theorem lockstep_step (hshared : SharedKeysOnly live deps)
    (hpending : NoPendingBatch maxIterations request deps initial) {node node' : PlannerNode}
    {s t : PlannerState}
    (h : Lockstep maxIterations request deps live initial node s node' t) :
    (plannerVisit maxIterations request deps node s).Alike
      (Lockstep maxIterations request deps live initial)
      (fun s t => s.observed = t.observed)
      (graphVisit maxIterations request deps live node' t) := by
  have halike := visit_alike h
  have hsame := h.same
  subst hsame
  cases hv : visitNode maxIterations deps node' ⟨request, s⟩ with
  | error e =>
      have hv' := relive_eq_error halike hv
      unfold plannerVisit graphVisit
      rw [hv, hv']
      rfl
  | ok result =>
      obtain ⟨s', action⟩ := result
      obtain ⟨t', hv', hstate⟩ := relive_eq_ok halike hv
      have hroute : (persistedState t').route = s'.route :=
        (congrArg PlannerState.route hstate).symm
      have hsaved : (persistedState t').status = s'.status :=
        (congrArg PlannerState.status hstate).symm
      unfold plannerVisit graphVisit
      rw [hv, hv']
      dsimp only
      cases node' with
      | loadContext =>
          obtain ⟨context, -, hkeeps, rfl⟩ := loadContextNode_spec hv
          exact h.next hshared hv rfl hstate fun _ => hkeeps.status ▸ h.status (by decide)
      | loadSkills =>
          obtain ⟨hkeeps, rfl⟩ := loadSkillsNode_spec hv
          exact h.next hshared hv rfl hstate fun _ => hkeeps.status ▸ h.status (by decide)
      | preGuard =>
          obtain ⟨hkeeps, rfl⟩ := preGuardNode_spec hv
          exact h.next hshared hv rfl hstate fun _ => hkeeps.status ▸ h.status (by decide)
      | think =>
          obtain ⟨d, -, hs', haction⟩ := thinkNode_spec hv
          obtain ⟨hkeeps, hd, -⟩ := thinkPost_spec s d.1
          have hedge : plannerEdge .think action
              = some (routeAfterThink (persistedState t')) := by
            unfold routeAfterThink
            rw [haction, thinkPost_edge, hroute, hs', hd]
            simp only [Option.some.injEq]
          rw [hedge]
          refine h.next hshared hv hedge hstate fun _ => ?_
          rw [hs', hkeeps.status]
          exact h.status (by decide)
      | executeTool =>
          obtain ⟨batch, hexec, hpost⟩ := executeToolNode_spec hv
          have hran := hpending s batch h.reached hexec
          rcases executeToolPost_spec hpost with ⟨-, hkeeps, haction⟩ | ⟨hwaits, -, -⟩
          · have hstatus : s'.status ≠ "pending_approval" :=
              hkeeps.status ▸ h.status (by decide)
            have hedge : plannerEdge .executeTool action = some .think := by
              rcases haction with rfl | rfl <;> rfl
            dsimp only [graphEdge]
            rw [hedge, hsaved, if_neg hstatus]
            exact h.next hshared hv hedge hstate fun _ => hstatus
          · rw [hran] at hwaits
            cases hwaits
      | selfCheck =>
          obtain ⟨result, -, -, rfl⟩ := selfCheckNode_spec hv
          exact observed_eq hstate

end

/-- Without a batch that waits for approval, and unless the caller itself starts the turn in
that status, the two engines end every turn alike. Both are run in lockstep: a visit keeps the
states equal up to the runtime context, and the edges lead to one node. -/
theorem engines_end_alike (maxIterations : Int) (fresh : String) (request : AgentRequest)
    (deps : AgentDependencies) (live : Dict) (initial : List StateEntry)
    (hshared : SharedKeysOnly live deps)
    (hstatus : (plannerStart (ensureTraceId fresh request) deps initial).status
      ≠ "pending_approval")
    (hpending : NoPendingBatch maxIterations (ensureTraceId fresh request) deps initial) :
    EndAlike maxIterations fresh request deps live initial := by
  unfold EndAlike pocoFlowStart langGraphStart
  generalize ensureTraceId fresh request = request at hstatus hpending ⊢
  have hrank : ∀ node s node' s',
      plannerVisit maxIterations request deps node s = .goto node' s' →
        plannerRank maxIterations node' s'.loopCount
          < plannerRank maxIterations node s.loopCount :=
    fun _ _ _ _ h => (plannerVisit_moves h).rank_lt
  obtain ⟨out, hout⟩ := run_of_rank (fun node s => plannerRank maxIterations node s.loopCount)
    hrank .loadContext (plannerStart request deps initial)
  have hstart : Lockstep maxIterations request deps live initial .loadContext
      (plannerStart request deps initial) .loadContext (graphStart request deps initial) :=
    { same := rfl, state := rfl, shared := Or.inl rfl, status := fun _ => hstatus
      reached := .here }
  rcases run_lockstep (fun _ _ _ _ h => lockstep_step hshared hpending h) hstart _ with
    ⟨hnone, -⟩ | ⟨out₁, out', hout₁, hout', halike⟩
  · rw [hnone] at hout
    cases hout
  · exact ⟨_, out₁, out', hout₁, hout', halike⟩

/-! ## A caller that starts in the waiting status -/

/-- A planner that calls one tool and then answers. -/
def oneToolDeps : AgentDependencies where
  loadContext := fun _ => .ok []
  think := fun s =>
    if s.state.toolObservations.isEmpty then
      .ok ⟨{ route := "tool_call", toolName := some "lookup" }, by decide⟩
    else .ok ⟨{ route := "answer", answer := some "done" }, by decide⟩
  runTool := fun _ _ _ => .ok [("status", .str "ok")]
  selfCheck := fun _ => .ok { passed := true }

theorem oneToolDeps_ignores : IgnoresRuntimeContext oneToolDeps where
  think := fun _ _ _ => rfl
  selfCheck := fun _ _ _ => rfl
  runTool := fun _ _ _ _ _ => rfl
  runTools := by intro run hrun; cases hrun
  loadSkills := by intro load hload; cases hload
  preGuard := by intro guard hguard; cases hguard

theorem oneToolDeps_not_pending (maxIterations : Int) (request : AgentRequest)
    (initial : List StateEntry) :
    NoPendingBatch maxIterations request oneToolDeps initial := by
  intro s batch _ hexec
  unfold executeToolExec at hexec
  dsimp only at hexec
  split at hexec
  · cases hexec
  · cases hexec
    rfl

theorem engines_end_alike_oneTool :
    EndAlike 3 "turn-1" { query := "hi" } oneToolDeps [] [.loopCount 1] :=
  engines_end_alike 3 "turn-1" { query := "hi" } oneToolDeps [] [.loopCount 1]
    (Or.inr oneToolDeps_ignores) (by decide) (oneToolDeps_not_pending _ _ _)

/-- The graph suspends after the batch, the flow goes on to the self check. -/
theorem engines_part_on_initial_status :
    SharedKeysOnly [] oneToolDeps
      ∧ NoPendingBatch 3 { query := "hi", traceId := some "turn-1" } oneToolDeps
          [.status "pending_approval"]
      ∧ ¬ EndAlike 3 "turn-1" { query := "hi" } oneToolDeps [] [.status "pending_approval"] := by
  refine ⟨Or.inr oneToolDeps_ignores, oneToolDeps_not_pending _ _ _, ?_⟩
  rintro ⟨fuel, out, out', hout, hout', halike⟩
  have hflow : ∃ s, pocoFlowStart 8 3 "turn-1" { query := "hi" } oneToolDeps
      [.status "pending_approval"] = some (.finished s) := ⟨_, rfl⟩
  have hgraph : ∃ s, langGraphStart 8 3 "turn-1" { query := "hi" } oneToolDeps []
      [.status "pending_approval"] = some (.suspended s) := ⟨_, rfl⟩
  obtain ⟨s, hs⟩ := hflow
  obtain ⟨t, ht⟩ := hgraph
  rw [run_unique hout hs, run_unique hout' ht] at halike
  exact halike

end Aegora
