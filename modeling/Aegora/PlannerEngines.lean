import Aegora.AgentLoop
import Aegora.Flows

/-!
# The two execution engines

`PocoFlowEngine` runs the planner's nodes over one shared store and follows
the edge of the action `post` returns. `LangGraphEngine` rebuilds the store
before every node from what it persisted, puts the live runtime context
back in, and follows edges that read the persisted state; a batch that
waits for approval suspends the run at `await_approval`.

Both are flows over `PlannerState`. What the two third-party libraries do
around them (retries, checkpoints, step limits of their own) is not
modelled: each visits the nodes along the declared edges.
-/

namespace Aegora

open Py Flows

/-! ## Nodes -/

inductive PlannerNode where
  | loadContext
  | loadSkills
  | preGuard
  | think
  | executeTool
  | selfCheck
deriving DecidableEq, Repr

/-- `prep`, `exec` and `post` of a node. -/
def visitNode (maxIterations : Int) (deps : AgentDependencies) :
    PlannerNode → Store → NodeResult
  | .loadContext, s => loadContextNode deps s
  | .loadSkills, s => loadSkillsNode deps s
  | .preGuard, s => preGuardNode deps s
  | .think, s => thinkNode maxIterations deps s
  | .executeTool, s => executeToolNode deps s
  | .selfCheck, s => selfCheckNode deps s

/-- `ensure_trace_id`; `fresh` is the identifier a missing one is replaced by. -/
def ensureTraceId (fresh : String) (request : AgentRequest) : AgentRequest :=
  if request.traceId.getD "" = "" then { request with traceId := some fresh } else request

/-! ## The caller's initial state -/

/-- An entry of `initial_state`, under a key the engines share. -/
inductive StateEntry where
  | toolCatalog (v : List Json)
  | loopMode (v : String)
  | traceId (v : Option String)
  | runContext (v : Dict)
  | trace (v : List TraceEntry)
  | observability (v : List Dict)
  | context (v : Dict)
  | skills (v : List Json)
  | autoSkills (v : Json)
  | sessionSkills (v : Json)
  | skillRetrieval (v : Dict)
  | intent (v : Dict)
  | retrievedFaqs (v : List ScalarDict)
  | toolObservations (v : List Json)
  | loopCount (v : Int)
  | route (v : Option String)
  | answer (v : Json)
  | status (v : String)
  | errors (v : List String)
  | decision (v : Dict)
  | selfCheck (v : Dict)
  | approvalRequests (v : Json)
deriving DecidableEq

/-- `store[key] = value`. -/
def PlannerState.put (s : PlannerState) : StateEntry → PlannerState
  | .toolCatalog v => { s with toolCatalog := v }
  | .loopMode v => { s with loopMode := v }
  | .traceId v => { s with traceId := v }
  | .runContext v => { s with runContext := v }
  | .trace v => { s with trace := v }
  | .observability v => { s with observability := v }
  | .context v => { s with context := .ofDict v }
  | .skills v => { s with skills := v }
  | .autoSkills v => { s with autoSkills := v }
  | .sessionSkills v => { s with sessionSkills := v }
  | .skillRetrieval v => { s with skillRetrieval := v }
  | .intent v => { s with intent := v }
  | .retrievedFaqs v => { s with retrievedFaqs := v }
  | .toolObservations v => { s with toolObservations := v }
  | .loopCount v => { s with loopCount := v }
  | .route v => { s with route := v }
  | .answer v => { s with answer := v }
  | .status v => { s with status := v }
  | .errors v => { s with errors := v }
  | .decision v => { s with decision := some v }
  | .selfCheck v => { s with selfCheck := some v }
  | .approvalRequests v => { s with approvalRequests := some v }

/-- `for key, value in (initial_state or {}).items(): store[key] = value`. -/
def PlannerState.putAll (s : PlannerState) (initial : List StateEntry) : PlannerState :=
  initial.foldl PlannerState.put s

/-! ## PocoFlow -/

/-- The edges of `build_planner_flow`. -/
def plannerEdge : PlannerNode → String → Option PlannerNode
  | .loadContext, "ok" => some .loadSkills
  | .loadSkills, "ok" => some .preGuard
  | .preGuard, "ok" => some .think
  | .think, "tool_call" => some .executeTool
  | .think, "answer" | .think, "clarify" | .think, "handoff" | .think, "chat" =>
      some .selfCheck
  | .executeTool, "ok" | .executeTool, "error" => some .think
  | .executeTool, "pending_approval" => some .selfCheck
  | _, _ => none

/-- One node of the PocoFlow run: the store is shared, the action picks the edge. -/
def plannerVisit (maxIterations : Int) (request : AgentRequest) (deps : AgentDependencies)
    (node : PlannerNode) (s : PlannerState) : Visit PlannerNode PlannerState Exc :=
  match visitNode maxIterations deps node ⟨request, s⟩ with
  | .error e => .raise e
  | .ok (s', action) =>
      match plannerEdge node action with
      | some next => .goto next s'
      | none => .finish s'

/-- The store `run_agent` starts from. -/
def plannerStart (request : AgentRequest) (deps : AgentDependencies)
    (initial : List StateEntry) : PlannerState :=
  (makeState request deps).putAll initial

/-- `PocoFlowEngine.start`, with as many steps as it is given. -/
def pocoFlowStart (fuel : Nat) (maxIterations : Int) (fresh : String) (request : AgentRequest)
    (deps : AgentDependencies) (initial : List StateEntry) :
    Option (Outcome PlannerState Exc) :=
  let request := ensureTraceId fresh request
  run (plannerVisit maxIterations request deps) fuel .loadContext
    (plannerStart request deps initial)

/-! ## LangGraph -/

def PlannerState.withRuntimeContext (s : PlannerState) (live : Option Json) : PlannerState :=
  { s with context := { s.context with runtimeContext := live } }

/-- `persisted_state`: the runtime context does not reach a checkpoint. -/
def persistedState (s : PlannerState) : PlannerState := s.withRuntimeContext none

/-- The store `_node_adapter` builds: the persisted keys over a fresh one, with a
non-empty live runtime context put back. -/
def adapterState (live : Dict) (s : PlannerState) : PlannerState :=
  if live.isEmpty then s else s.withRuntimeContext (some (.obj live))

/-- `route_after_think`. -/
def routeAfterThink (s : PlannerState) : PlannerNode :=
  if s.route = some "tool_call" then .executeTool else .selfCheck

/-- Where an edge of the graph leads. -/
inductive GraphTarget where
  | node (next : PlannerNode)
  | awaitApproval
  | done

/-- The edges of `build_langgraph`, with `route_after_tool`; they read the saved state. -/
def graphEdge : PlannerNode → PlannerState → GraphTarget
  | .loadContext, _ => .node .loadSkills
  | .loadSkills, _ => .node .preGuard
  | .preGuard, _ => .node .think
  | .think, s => .node (routeAfterThink s)
  | .executeTool, s => if s.status = "pending_approval" then .awaitApproval else .node .think
  | .selfCheck, _ => .done

/-- One node of the graph; the `interrupt` of `await_approval` suspends the run. -/
def graphVisit (maxIterations : Int) (request : AgentRequest) (deps : AgentDependencies)
    (live : Dict) (node : PlannerNode) (s : PlannerState) : Visit PlannerNode PlannerState Exc :=
  match visitNode maxIterations deps node ⟨request, adapterState live s⟩ with
  | .error e => .raise e
  | .ok (s', _) =>
      match graphEdge node (persistedState s') with
      | .node next => .goto next (persistedState s')
      | .awaitApproval => .suspend (persistedState s')
      | .done => .finish (persistedState s')

/-- The input of `LangGraphEngine.start`. -/
def graphStart (request : AgentRequest) (deps : AgentDependencies)
    (initial : List StateEntry) : PlannerState :=
  (persistedState (makeState request deps)).putAll initial

/-- `LangGraphEngine.start` on a new thread. -/
def langGraphStart (fuel : Nat) (maxIterations : Int) (fresh : String)
    (request : AgentRequest) (deps : AgentDependencies) (live : Dict)
    (initial : List StateEntry) : Option (Outcome PlannerState Exc) :=
  let request := ensureTraceId fresh request
  run (graphVisit maxIterations request deps live) fuel .loadContext
    (graphStart request deps initial)

/-- The dictionary `await_approval` goes on with. -/
def resumePayload (payload : Json) : Dict :=
  (payload.asDict?).getD
    [("decision", .str "rejected"), ("reason", .str "invalid_resume_payload")]

/-- `decision == "approved"`. -/
def resumeApproves (payload : Json) : Bool :=
  ((Dict.get (resumePayload payload) "decision").orElse (.str "rejected")).pyStr = "approved"

/-- What `await_approval` adds to the observations: dictionaries only. -/
def resumeObservations (payload : Json) : List Json :=
  let isDict (v : Json) : Bool := v.asDict?.isSome
  [Dict.get (resumePayload payload) "approval_observation"].filter isDict
    ++ (((Dict.get (resumePayload payload) "tool_results").asList?).getD []).filter isDict

/-- `await_approval` once the interrupt returns `payload`. -/
def awaitApproval (payload : Json) (s : PlannerState) : PlannerState :=
  let resumed := { s with
    toolObservations := s.toolObservations ++ resumeObservations payload
    approvalRequests := some (.arr [])
    status := "running" }
  if resumeApproves payload then { resumed with route := some "tool_call", answer := .null }
  else
    { resumed with
      route := some "answer"
      answer := .str ((Dict.get (resumePayload payload) "answer").orElse
        (.str "审批已拒绝，本次工具调用不会执行。")).pyStr }

/-- `route_after_approval`. -/
def routeAfterApproval (s : PlannerState) : PlannerNode :=
  if s.route = some "tool_call" then .think else .selfCheck

end Aegora
