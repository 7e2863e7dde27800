import Aegora.ApprovalRequests
import Aegora.PlannerBudget

/-!
# What a configured turn leaves in its state

The batches of a configured turn come from the approval gate: a batch ran, or
it is held with one stored approval. So the observations of the state are
what the executor and the gate returned, in order (`TurnItem`), and the state
names an approval exactly while its status says that it waits for one
(`TurnState`). Every visit of a node keeps this, on either engine.
-/

namespace Aegora

open Py Flows

/-! ## Batches as dictionaries -/

/-- What the executor measures and names, beside the observation itself. -/
structure ObservationDetails where
  latencyMs : Json := .null
  toolMetadata : Dict := []
  errorType : String := ""
  error : String := ""

/-- An observation, as `run` or `_run_call_safely` returns it. -/
def Observation.asDict (o : Observation) (details : ObservationDetails) : Dict :=
  match o.output with
  | some output =>
      [("call_id", optStr o.callId), ("tool_name", .str o.toolName), ("args", .obj o.args),
        ("output", output), ("status", .str o.status), ("latency_ms", details.latencyMs),
        ("attempt", match o.attempt with | some n => .int n | none => .null),
        ("tool_metadata", .obj details.toolMetadata)]
  | none =>
      [("call_id", optStr o.callId), ("tool_name", .str o.toolName), ("args", .obj o.args),
        ("status", .str o.status), ("error_type", .str details.errorType),
        ("error", .str details.error)]

/-- An entry of `tool_observations`: a call that was run, or one that is held. -/
inductive TurnItem where
  | ran (o : Observation) (details : ObservationDetails)
  | held (record : ApprovalRecord) (call : Dict)

def TurnItem.asDict (isoformat : Nat → String) : TurnItem → Dict
  | .ran o details => o.asDict details
  | .held record call => pendingObservation isoformat record call

/-- The batch that `run_tools` returns. -/
def BatchOutcome.asDict (latencyMs : Json) (details : Observation → ObservationDetails) :
    BatchOutcome → Dict
  | .pendingApproval _ result => result
  | .executed batch =>
      [("execution_mode", .str (if batch.parallel then "parallel" else "sequential")),
        ("latency_ms", latencyMs),
        ("results", .arr (batch.results.map fun o => .obj (o.asDict (details o))))]

/-- A call of a decision, as it was before `ThinkNode` wrote it out. -/
def toolCallOfDict (call : Dict) : ToolCall where
  callId := (Dict.get call "call_id").pyStr
  toolName := (Dict.get call "tool_name").pyStr
  toolArgs := (Dict.get call "tool_args").dictOrEmpty
  reason := some (Dict.get call "reason")

/-- `run_tools` of `build_configured_dependencies`. -/
def ConfiguredTurn.answerBatch (turn : ConfiguredTurn) (stamp : Stamp) (latencyMs : Json)
    (details : Observation → ObservationDetails) (calls : List Dict) (s : Store) :
    Except Exc Dict :=
  match turn.runTools stamp s (calls.map toolCallOfDict) with
  | .ok outcome => .ok (outcome.asDict latencyMs details)
  | .error text => .error ⟨"ValueError", text⟩

/-- The dependencies answer every batch as the gate of the turn does. -/
structure GatedBy (turn : ConfiguredTurn) (deps : AgentDependencies) : Prop where
  runTools : deps.runTools.isSome
  batch : ∀ run ∈ deps.runTools, ∀ calls s batch, run calls s = .ok batch →
    ∃ stamp toolCalls latencyMs details outcome, turn.runTools stamp s toolCalls = .ok outcome
      ∧ batch = outcome.asDict latencyMs details

theorem gatedBy_answerBatch {turn : ConfiguredTurn} {deps : AgentDependencies} {stamp : Stamp}
    {latencyMs : Json} {details : Observation → ObservationDetails}
    (h : deps.runTools = some (turn.answerBatch stamp latencyMs details)) : GatedBy turn deps where
  runTools := by rw [h, Option.isSome_some]
  batch := by
    intro run hrun calls s batch hbatch
    rw [h] at hrun
    obtain rfl := Option.some_inj.mp hrun
    unfold ConfiguredTurn.answerBatch at hbatch
    split at hbatch
    · rename_i outcome houtcome
      exact ⟨stamp, _, latencyMs, details, outcome, houtcome, (Except.ok.inj hbatch).symm⟩
    · cases hbatch

/-! ## The state -/

/-- The turn stored this approval. -/
def ConfiguredTurn.Stored (turn : ConfiguredTurn) (record : ApprovalRecord) : Prop :=
  ∃ stamp s call tool, turn.createApproval stamp s call tool = .ok record

/-- What the state says is what happened. -/
structure TurnState (turn : ConfiguredTurn) (s : PlannerState) : Prop where
  items : ∃ items : List TurnItem,
    s.toolObservations = items.map fun item => .obj (item.asDict turn.isoformat)
  answer : ∃ text : Option String, s.answer = optStr text
  requests : s.status = "pending_approval"
        ∧ (∃ record, turn.Stored record
          ∧ s.approvalRequests = some (.arr [.obj (approvalResponse turn.isoformat record)])
          ∧ s.answer = .str "该操作需要审批后继续执行。")
      ∨ s.status ≠ "pending_approval" ∧ s.approvalRequests = none

/-- The parts of the state that the rest of the platform is shown stay the same. -/
structure SameView (s s' : PlannerState) : Prop where
  toolObservations : s'.toolObservations = s.toolObservations
  answer : s'.answer = s.answer
  status : s'.status = s.status
  approvalRequests : s'.approvalRequests = s.approvalRequests

section

variable {turn : ConfiguredTurn} {s s' s'' : PlannerState} {request : AgentRequest}
  {deps : AgentDependencies} {action : String} {result batch : Dict}

theorem SameView.rfl : SameView s s := ⟨by rfl, by rfl, by rfl, by rfl⟩

theorem SameView.trans (h : SameView s s') (h' : SameView s' s'') : SameView s s'' where
  toolObservations := h'.toolObservations.trans h.toolObservations
  answer := h'.answer.trans h.answer
  status := h'.status.trans h.status
  approvalRequests := h'.approvalRequests.trans h.approvalRequests

theorem TurnState.sameView (h : TurnState turn s) (hs : SameView s s') : TurnState turn s' where
  items := by
    rw [hs.toolObservations]
    exact h.items
  answer := by
    rw [hs.answer]
    exact h.answer
  requests := by
    rw [hs.status, hs.approvalRequests, hs.answer]
    exact h.requests

theorem turnState_start (turn : ConfiguredTurn) (request : AgentRequest)
    (deps : AgentDependencies) : TurnState turn (plannerStart request deps []) where
  items := ⟨[], rfl⟩
  answer := ⟨none, rfl⟩
  requests := .inr ⟨by simp [plannerStart, makeState, PlannerState.putAll], rfl⟩

/-! ## The nodes -/

theorem sameView_events (events : List Dict) (s : PlannerState) :
    SameView s (events.foldl appendObservability s) := by
  induction events generalizing s with
  | nil => exact .rfl
  | cons event events ih =>
      have hfirst : SameView s (appendObservability s event) := ⟨rfl, rfl, rfl, rfl⟩
      exact hfirst.trans (ih _)

theorem loadContextNode_sameView (h : loadContextNode deps ⟨request, s⟩ = .ok (s', action)) :
    SameView s s' := by
  unfold loadContextNode at h
  obtain ⟨context, -, h⟩ := bind_eq_ok.mp h
  cases h
  exact ⟨rfl, rfl, rfl, rfl⟩

theorem loadSkillsPost_sameView (h : loadSkillsPost ⟨request, s⟩ result = .ok (s', action)) :
    SameView s s' := by
  unfold loadSkillsPost at h
  obtain ⟨payload, -, h⟩ := bind_eq_ok.mp h
  cases h
  exact ⟨rfl, rfl, rfl, rfl⟩

theorem preGuardNode_sameView (h : preGuardNode deps ⟨request, s⟩ = .ok (s', action)) :
    SameView s s' := by
  unfold preGuardNode at h
  obtain ⟨result, -, h⟩ := bind_eq_ok.mp h
  unfold preGuardPost at h
  obtain ⟨payload, -, h⟩ := bind_eq_ok.mp h
  cases h
  exact ⟨rfl, rfl, rfl, rfl⟩

theorem mergeToolLoadedSkill_sameView (h : mergeToolLoadedSkill s result = .ok s') :
    SameView s s' := by
  unfold mergeToolLoadedSkill at h
  obtain ⟨skills, -, h⟩ := bind_eq_ok.mp h
  cases skills with
  | none =>
      cases h
      exact .rfl
  | some skills =>
      cases h
      exact ⟨rfl, rfl, rfl, rfl⟩

theorem foldResults_sameView {items : List Json} {acc acc' : BatchFold}
    (h : items.foldlM foldResult acc = .ok acc') : SameView acc.state acc'.state := by
  induction items generalizing acc with
  | nil =>
      cases h
      exact .rfl
  | cons item items ih =>
      rw [List.foldlM_cons] at h
      obtain ⟨next, hnext, h⟩ := bind_eq_ok.mp h
      refine SameView.trans ?_ (ih h)
      unfold foldResult at hnext
      obtain ⟨result, -, hnext⟩ := bind_eq_ok.mp hnext
      obtain ⟨state, hstate, hnext⟩ := bind_eq_ok.mp hnext
      obtain ⟨found, -, hnext⟩ := bind_eq_ok.mp hnext
      cases hnext
      unfold loadResult at hstate
      split at hstate
      · exact mergeToolLoadedSkill_sameView hstate
      · cases hstate
        exact .rfl

theorem ranPost_sameView (h : ranPost s batch = .ok (s', action)) : SameView s s' := by
  unfold ranPost at h
  obtain ⟨acc, hacc, h⟩ := bind_eq_ok.mp h
  obtain ⟨faqs, -, h⟩ := bind_eq_ok.mp h
  obtain ⟨⟨payload, events, action'⟩, -, h⟩ := bind_eq_ok.mp h
  cases h
  refine (foldResults_sameView hacc).trans (SameView.trans ?_ (sameView_events events _))
  exact ⟨rfl, rfl, rfl, rfl⟩

theorem turnState_think (h : TurnState turn s) (hs : s.status ≠ "pending_approval")
    (d : AgentDecision) : TurnState turn (thinkPost s d).1 where
  items := h.items
  answer := by
    obtain ⟨text, htext⟩ := h.answer
    show ∃ text, (optStr d.answer).orElse s.answer = optStr text
    unfold Json.orElse
    split
    · exact ⟨d.answer, rfl⟩
    · exact ⟨text, htext⟩
  requests := .inr ⟨hs, (h.requests.resolve_left fun hwaits => hs hwaits.1).2⟩

/-- A batch of the gate. -/
theorem batch_of_gatedBy (hdeps : GatedBy turn deps) {store : Store}
    (h : executeToolExec deps store = .ok batch) :
    ∃ stamp toolCalls latencyMs details outcome, turn.runTools stamp store toolCalls = .ok outcome
      ∧ batch = outcome.asDict latencyMs details := by
  unfold executeToolExec at h
  dsimp only at h
  split at h
  · cases h
  · cases hrun : deps.runTools with
    | none =>
        have hsome := hdeps.runTools
        rw [hrun] at hsome
        cases hsome
    | some run =>
        rw [hrun] at h
        exact hdeps.batch run hrun _ store batch h

/-- The gate holds a batch with a stored approval, or lets it run. -/
theorem runTools_cases {stamp : Stamp} {store : Store} {calls : List ToolCall}
    {outcome : BatchOutcome} (h : turn.runTools stamp store calls = .ok outcome) :
    (∃ record call, turn.Stored record ∧ outcome = .pendingApproval record
        (pendingResult turn.isoformat record (toolCallAsDict call)))
      ∨ ∃ ran, outcome = .executed ran := by
  unfold ConfiguredTurn.runTools at h
  obtain ⟨tools, -, h⟩ := bind_eq_ok.mp h
  obtain ⟨specs, -, h⟩ := bind_eq_ok.mp h
  split at h
  · rename_i call tool hheld
    obtain ⟨record, hrecord, h⟩ := bind_eq_ok.mp h
    cases h
    exact .inl ⟨record, call, ⟨stamp, store, call, tool, hrecord⟩, rfl⟩
  · cases h
    exact .inr ⟨_, rfl⟩

/-- Where the batch is held, its only result and its request are those of the stored approval. -/
theorem turnState_executeTool (hdeps : GatedBy turn deps) (h : TurnState turn s)
    (hv : executeToolNode deps ⟨request, s⟩ = .ok (s', action)) : TurnState turn s' := by
  obtain ⟨items, hitems⟩ := h.items
  obtain ⟨batch, hexec, hpost⟩ := executeToolNode_spec hv
  obtain ⟨stamp, toolCalls, latencyMs, details, outcome, hrun, rfl⟩ := batch_of_gatedBy hdeps hexec
  unfold executeToolPost at hpost
  rcases runTools_cases hrun with ⟨record, call, hstored, rfl⟩ | ⟨ran, rfl⟩
  · have hpending : batchPending (BatchOutcome.asDict latencyMs details
        (.pendingApproval record (pendingResult turn.isoformat record (toolCallAsDict call))))
        = true := rfl
    rw [if_pos hpending] at hpost
    unfold pendingPost at hpost
    obtain ⟨payload, -, hpost⟩ := bind_eq_ok.mp hpost
    cases hpost
    have hanswer : (Json.str "该操作需要审批后继续执行。").orElse (.str "该操作需要审批后继续执行。")
        = .str "该操作需要审批后继续执行。" := ite_self _
    refine ⟨⟨items ++ [.held record (toolCallAsDict call)], ?_⟩,
      ⟨some "该操作需要审批后继续执行。", hanswer⟩, .inl ⟨rfl, record, hstored, rfl, hanswer⟩⟩
    show s.toolObservations ++ _ = _
    rw [hitems, List.map_append]
    rfl
  · have hran : batchPending (BatchOutcome.asDict latencyMs details (.executed ran)) = false := rfl
    rw [if_neg (by rw [hran]; exact Bool.false_ne_true)] at hpost
    refine TurnState.sameView ?_ (ranPost_sameView hpost)
    refine ⟨⟨items ++ ran.results.map fun o => .ran o (details o), ?_⟩, h.answer, h.requests⟩
    show s.toolObservations ++ _ = _
    rw [hitems, List.map_append, List.map_map]
    rfl

theorem turnState_selfCheck (h : TurnState turn s) (check : SelfCheckResult) :
    TurnState turn (selfCheckPost s check) := by
  unfold selfCheckPost
  by_cases hs : s.status = "pending_approval"
  · rw [if_pos hs]
    exact h.sameView ⟨rfl, rfl, rfl, rfl⟩
  · rw [if_neg hs]
    have hnone := (h.requests.resolve_left fun hwaits => hs hwaits.1).2
    refine ⟨h.items, ?_, .inr ⟨?_, hnone⟩⟩
    · obtain ⟨text, htext⟩ := h.answer
      show ∃ text, (optStr check.revisedAnswer).orElse s.answer = optStr text
      unfold Json.orElse
      split
      · exact ⟨check.revisedAnswer, rfl⟩
      · exact ⟨text, htext⟩
    · show (if check.passed then "completed" else "failed") ≠ "pending_approval"
      split <;> decide

/-! ## A run -/

/-- Only the self check comes after a held batch. -/
structure Underway (turn : ConfiguredTurn) (node : PlannerNode) (s : PlannerState) : Prop where
  state : TurnState turn s
  running : node ≠ .selfCheck → s.status ≠ "pending_approval"

theorem turnState_visitNode {maxIterations : Int} {node : PlannerNode} (hdeps : GatedBy turn deps)
    (h : Underway turn node s)
    (hv : visitNode maxIterations deps node ⟨request, s⟩ = .ok (s', action)) :
    TurnState turn s' := by
  cases node with
  | loadContext => exact h.state.sameView (loadContextNode_sameView hv)
  | loadSkills => exact h.state.sameView (loadSkillsPost_sameView hv)
  | preGuard => exact h.state.sameView (preGuardNode_sameView hv)
  | think =>
      obtain ⟨d, -, rfl, -⟩ := thinkNode_spec hv
      exact turnState_think h.state (h.running (by decide)) d.1
  | executeTool => exact turnState_executeTool hdeps h.state hv
  | selfCheck =>
      obtain ⟨check, -, rfl, -⟩ := selfCheckNode_spec hv
      exact turnState_selfCheck h.state check

end

section Run

variable {turn : ConfiguredTurn} {engine : EngineName} {maxIterations : Int}
  {request : AgentRequest} {deps : AgentDependencies} {live : Dict} {node next : PlannerNode}
  {s s' : PlannerState}

theorem sameView_handed (engine : EngineName) (live : Dict) (s : PlannerState) :
    SameView s (engine.handed live s) := by
  cases engine with
  | pocoflow => exact .rfl
  | langgraph =>
      show SameView s (adapterState live s)
      unfold adapterState
      split <;> exact ⟨rfl, rfl, rfl, rfl⟩

/-- A visit that does not raise leaves what the node left, as far as it is shown. -/
theorem visit_visitNode {engine : EngineName}
    (h : engine.visit maxIterations request deps live node s = .goto next s'
      ∨ engine.visit maxIterations request deps live node s = .finish s'
      ∨ engine.visit maxIterations request deps live node s = .suspend s') :
    ∃ t action, visitNode maxIterations deps node ⟨request, engine.handed live s⟩
        = .ok (t, action) ∧ SameView t s' := by
  cases engine with
  | pocoflow =>
      change plannerVisit maxIterations request deps node s = _
        ∨ plannerVisit maxIterations request deps node s = _
        ∨ plannerVisit maxIterations request deps node s = _ at h
      show ∃ t action, visitNode maxIterations deps node ⟨request, s⟩ = _ ∧ _
      unfold plannerVisit at h
      cases hv : visitNode maxIterations deps node ⟨request, s⟩ with
      | error e =>
          rw [hv] at h
          rcases h with h | h | h <;> cases h
      | ok result =>
          obtain ⟨t, action⟩ := result
          rw [hv] at h
          dsimp only at h
          refine ⟨t, action, rfl, ?_⟩
          split at h <;> rcases h with h | h | h <;> cases h <;> exact .rfl
  | langgraph =>
      change graphVisit maxIterations request deps live node s = _
        ∨ graphVisit maxIterations request deps live node s = _
        ∨ graphVisit maxIterations request deps live node s = _ at h
      show ∃ t action, visitNode maxIterations deps node ⟨request, adapterState live s⟩ = _ ∧ _
      unfold graphVisit at h
      cases hv : visitNode maxIterations deps node ⟨request, adapterState live s⟩ with
      | error e =>
          rw [hv] at h
          rcases h with h | h | h <;> cases h
      | ok result =>
          obtain ⟨t, action⟩ := result
          rw [hv] at h
          dsimp only at h
          refine ⟨t, action, rfl, ?_⟩
          split at h <;> rcases h with h | h | h <;> cases h <;> exact ⟨rfl, rfl, rfl, rfl⟩

theorem turnState_visit (hdeps : GatedBy turn deps) (hs : Underway turn node s)
    (h : engine.visit maxIterations request deps live node s = .goto next s'
      ∨ engine.visit maxIterations request deps live node s = .finish s'
      ∨ engine.visit maxIterations request deps live node s = .suspend s') :
    TurnState turn s' := by
  obtain ⟨t, action, hv, hshown⟩ := visit_visitNode h
  have hhanded := sameView_handed engine live s
  refine (turnState_visitNode hdeps ⟨hs.state.sameView hhanded, fun hnode => ?_⟩ hv).sameView hshown
  rw [hhanded.status]
  exact hs.running hnode

/-- A suspended run waits for an approval. -/
theorem suspended_status
    (h : engine.visit maxIterations request deps live node s = .suspend s') :
    s'.status = "pending_approval" := by
  obtain ⟨rfl, -⟩ := visit_suspend h
  cases engine with
  | pocoflow =>
      change plannerVisit maxIterations request deps .executeTool s = _ at h
      unfold plannerVisit at h
      split at h
      · cases h
      · split at h <;> cases h
  | langgraph =>
      change graphVisit maxIterations request deps live .executeTool s = _ at h
      unfold graphVisit at h
      cases hv : visitNode maxIterations deps .executeTool ⟨request, adapterState live s⟩ with
      | error e =>
          rw [hv] at h
          cases h
      | ok result =>
          obtain ⟨t, action⟩ := result
          rw [hv] at h
          dsimp only [graphEdge] at h
          by_cases hwaits : (persistedState t).status = "pending_approval"
          · rw [if_pos hwaits] at h
            cases h
            exact hwaits
          · rw [if_neg hwaits] at h
            cases h

theorem underway_visit (hdeps : GatedBy turn deps) (hs : Underway turn node s)
    (h : engine.visit maxIterations request deps live node s = .goto next s') :
    Underway turn next s' := by
  refine ⟨turnState_visit hdeps hs (.inl h), fun hnext => ?_⟩
  obtain ⟨t, action, hv, hshown⟩ := visit_visitNode (.inl h)
  have hstatus : (engine.handed live s).status = s.status := (sameView_handed engine live s).status
  rw [hshown.status]
  have hmoves := visit_moves h
  cases node with
  | loadContext =>
      rw [(loadContextNode_sameView hv).status, hstatus]
      exact hs.running (by decide)
  | loadSkills =>
      rw [(loadSkillsPost_sameView hv).status, hstatus]
      exact hs.running (by decide)
  | preGuard =>
      rw [(preGuardNode_sameView hv).status, hstatus]
      exact hs.running (by decide)
  | think =>
      obtain ⟨d, -, rfl, -⟩ := thinkNode_spec hv
      rw [(thinkPost_spec _ d.1).1.status]
      show (engine.handed live s).status ≠ _
      rw [hstatus]
      exact hs.running (by decide)
  | executeTool =>
      obtain ⟨-, ⟨-, hsame, -⟩ | ⟨hwaits, -, -⟩⟩ := executeToolNode_waits hv
      · rw [hsame, hstatus]
        exact hs.running (by decide)
      · rw [hwaits] at hmoves
        generalize s.loopCount = before, s'.loopCount = after at hmoves
        cases hmoves with
        | ran n hran => cases hran
        | parked => exact absurd rfl hnext
  | selfCheck => cases hmoves

/-- A new turn on either engine, as far as its fuel reaches. -/
def EngineName.newRun (engine : EngineName) (fuel : Nat) (maxIterations : Int)
    (request : AgentRequest) (deps : AgentDependencies) (live : Dict) :
    Option (Outcome PlannerState Exc) :=
  run (engine.visit maxIterations request deps live) fuel .loadContext
    (plannerStart request deps [])

/-- A turn that does not raise leaves a state that says what happened, with one of three
statuses. -/
theorem turnState_newRun (hdeps : GatedBy turn deps) {fuel : Nat} {out : Outcome PlannerState Exc}
    (h : engine.newRun fuel maxIterations request deps live = some out) :
    out.Leaves fun s => TurnState turn s
      ∧ (s.status = "completed" ∨ s.status = "failed" ∨ s.status = "pending_approval") := by
  have hstart : (plannerStart request deps []).status ≠ "pending_approval" := by
    simp [plannerStart, makeState, PlannerState.putAll]
  refine run_leaves (I := Underway turn)
    (fun node t node' t' ht hvisit => underway_visit hdeps ht hvisit)
    (fun node t t' ht hvisit => ?_) ⟨turnState_start turn request deps, fun _ => hstart⟩ h
  refine ⟨@turnState_visit turn engine maxIterations request deps live node node t t' hdeps ht
    (.inr hvisit), ?_⟩
  rcases hvisit with hvisit | hvisit
  · exact (visit_finish hvisit).status
  · exact .inr (.inr (suspended_status hvisit))

end Run

end Aegora
