import Aegora.PlannerNodes
import Aegora.Runs

/-!
# The budget of a planner turn

A turn is a run of one engine and the resumptions of it after approvals.
Whatever the model and the tools do at each visit, the loop counter of the
state counts the calls of `think`, and a suspension carries it: PocoFlow
through the approval snapshot into a fresh run, LangGraph in its
checkpoint. So the bound of `ThinkNode` is a bound for the whole turn, as
long as a suspension is resumed once. `decide_approval` lets an approved
request be resumed again when the first resumption raised, and then the
counter starts again from the snapshot.
-/

namespace Aegora

open Py Flows

/-! ## Turns -/

inductive EngineName where
  | pocoflow
  | langgraph
deriving DecidableEq

/-- One visit of a node on either engine. -/
def EngineName.visit (engine : EngineName) (maxIterations : Int) (request : AgentRequest)
    (deps : AgentDependencies) (live : Dict) :
    PlannerNode → PlannerState → Visit PlannerNode PlannerState Exc :=
  match engine with
  | .pocoflow => plannerVisit maxIterations request deps
  | .langgraph => graphVisit maxIterations request deps live

/-- The state the dependencies of a visit are handed. -/
def EngineName.handed (engine : EngineName) (live : Dict) (s : PlannerState) : PlannerState :=
  match engine with
  | .pocoflow => s
  | .langgraph => adapterState live s

/-- What a resumption reads of the approval's snapshot, and whether there was one. -/
structure Snapshot where
  toolObservations : List Json
  loopCount : Int
  resumed : Bool := false

inductive TurnPhase where
  | running (node : PlannerNode) (s : PlannerState)
  | ended (s : PlannerState)
  | suspended (s : PlannerState)
  | failed

/-- A turn and what it has used: calls of `think`, batches `execute_tool` started,
batches that ran (a suspended one at its resumption), visits of the current run. -/
structure PlannerTurn where
  phase : TurnPhase
  snapshot : Option Snapshot := none
  thinkCalls : Nat := 0
  batches : Nat := 0
  executed : Nat := 0
  steps : Nat := 0

/-- A visit with what the model and the tools do in it, a resumption after the saved call
ran, or one in which it raised. -/
inductive TurnAction where
  | visit (request : AgentRequest) (deps : AgentDependencies) (live : Dict)
  | resume (request : AgentRequest) (deps : AgentDependencies) (observation : Json)
      (results : List Json)
  | resumeRaises

def TurnAction.isVisit : TurnAction → Bool
  | .visit _ _ _ => true
  | _ => false

def PlannerTurn.isRunning (t : PlannerTurn) : Bool :=
  match t.phase with
  | .running _ _ => true
  | _ => false

/-- The counters and the approval after a visit of `node` in state `s`. -/
def PlannerTurn.visited (t : PlannerTurn) (engine : EngineName) (maxIterations : Int)
    (request : AgentRequest) (deps : AgentDependencies) (live : Dict) (node : PlannerNode)
    (s : PlannerState) : PlannerTurn :=
  let store : Store := ⟨request, engine.handed live s⟩
  { t with
    thinkCalls :=
      t.thinkCalls + if node = .think ∧ s.loopCount + 1 ≤ maxIterations then 1 else 0
    batches := t.batches + if node = .executeTool then 1 else 0
    executed :=
      t.executed + if node = .executeTool ∧ batchWaits deps store = false then 1 else 0
    snapshot :=
      if node = .executeTool ∧ batchWaits deps store = true then
        some { toolObservations := store.state.toolObservations
               loopCount := store.state.loopCount }
      else t.snapshot
    steps := t.steps + 1 }

/-- The payload of `resume_approved_approval`. -/
def approvedPayload (observation : Json) (results : List Json) : Json :=
  .obj [("decision", .str "approved"), ("approval_observation", observation),
    ("tool_results", .arr results)]

/-- The `initial_state` of `run_configured_turn` at a resumption: an empty value is not
passed on. -/
def resumeEntries (snap : Snapshot) (observation : Json) (results : List Json) :
    List StateEntry :=
  .toolObservations (snap.toolObservations ++ [observation] ++ results)
    :: if snap.loopCount = 0 then [] else [.loopCount snap.loopCount]

/-- Where a resumed turn goes on: a fresh run, or the graph after `await_approval`. -/
def resumePhase (engine : EngineName) (request : AgentRequest) (deps : AgentDependencies)
    (observation : Json) (results : List Json) (snap : Snapshot) (phase : TurnPhase) :
    Option TurnPhase :=
  match engine, phase with
  | .pocoflow, _ =>
      some (.running .loadContext
        (plannerStart request deps (resumeEntries snap observation results)))
  | .langgraph, .suspended s =>
      let s' := awaitApproval (approvedPayload observation results) s
      some (.running (routeAfterApproval s') s')
  | .langgraph, _ => none

def turnStep (engine : EngineName) (maxIterations : Int) (t : PlannerTurn) :
    TurnAction → Option PlannerTurn
  | .visit request deps live =>
      match t.phase with
      | .running node s =>
          let visited := t.visited engine maxIterations request deps live node s
          match engine.visit maxIterations request deps live node s with
          | .goto node' s' => some { visited with phase := .running node' s' }
          | .finish s' => some { visited with phase := .ended s' }
          | .suspend s' => some { visited with phase := .suspended s' }
          | .raise _ => some { visited with phase := .failed }
      | _ => none
  | .resume request deps observation results =>
      match t.snapshot with
      | none => none
      | some snap =>
          (resumePhase engine request deps observation results snap t.phase).map fun phase =>
            { t with
              phase := phase
              snapshot := some { snap with resumed := true }
              executed := t.executed + 1
              steps := 0 }
  | .resumeRaises =>
      match t.snapshot with
      | none => none
      | some snap =>
          some { t with
            phase := .failed
            snapshot := some { snap with resumed := true }
            executed := t.executed + 1 }

/-- A turn begins with an empty initial state. -/
def newTurn (request : AgentRequest) (deps : AgentDependencies) : PlannerTurn where
  phase := .running .loadContext (plannerStart request deps [])

/-- `max_steps` of `build_planner_flow`. -/
def plannerMaxSteps (maxIterations : Int) : Int := max 8 (maxIterations * 4 + 8)

/-- An approval that was resumed before is not resumed again. -/
def ResumesOnce (t : PlannerTurn) (a : TurnAction) : Prop :=
  a.isVisit = false → t.snapshot.map Snapshot.resumed ≠ some true

instance : DecidableRel ResumesOnce := fun t a =>
  inferInstanceAs (Decidable (a.isVisit = false → t.snapshot.map Snapshot.resumed ≠ some true))

theorem ResumesOnce.fresh {t : PlannerTurn} {a : TurnAction} (h : ResumesOnce t a)
    (ha : a.isVisit = false) {snap : Snapshot} (hsnap : t.snapshot = some snap) :
    snap.resumed = false := by
  have hne := h ha
  rw [hsnap] at hne
  cases hresumed : snap.resumed with
  | false => rfl
  | true => exact absurd (congrArg some hresumed) hne

/-! ## Ends -/

/-- The run went through the self check and left one of its three statuses. -/
structure Checked (s : PlannerState) : Prop where
  status : s.status = "completed" ∨ s.status = "failed" ∨ s.status = "pending_approval"
  node : (s.trace.getLast?).map TraceEntry.node = some "SelfCheckNode"

theorem selfCheckPost_checked (s : PlannerState) (result : SelfCheckResult) :
    Checked (selfCheckPost s result) := by
  unfold selfCheckPost
  split
  · rename_i hstatus
    refine ⟨Or.inr (Or.inr hstatus), ?_⟩
    simp [selfCheckReport, appendObservability, appendTrace]
  · refine ⟨?_, by simp [selfCheckReport, appendObservability, appendTrace]⟩
    cases hpassed : result.passed with
    | true => exact Or.inl rfl
    | false => exact Or.inr (Or.inl rfl)

section

variable {engine : EngineName} {maxIterations : Int} {request : AgentRequest}
  {deps : AgentDependencies} {live : Dict} {node : PlannerNode} {s s' : PlannerState}

theorem plannerVisit_finish
    (h : plannerVisit maxIterations request deps node s = .finish s') : Checked s' := by
  unfold plannerVisit at h
  cases hv : visitNode maxIterations deps node ⟨request, s⟩ with
  | error e => rw [hv] at h; cases h
  | ok result =>
      obtain ⟨t, action⟩ := result
      rw [hv] at h
      dsimp only at h
      have hedge : plannerEdge node action = none := by
        cases hedge : plannerEdge node action with
        | none => rfl
        | some next => rw [hedge] at h; cases h
      rw [hedge] at h
      cases h
      cases node with
      | loadContext =>
          obtain ⟨-, -, -, rfl⟩ := loadContextNode_spec hv
          cases hedge
      | loadSkills =>
          obtain ⟨-, rfl⟩ := loadSkillsNode_spec hv
          cases hedge
      | preGuard =>
          obtain ⟨-, rfl⟩ := preGuardNode_spec hv
          cases hedge
      | think =>
          obtain ⟨d, -, -, rfl⟩ := thinkNode_spec hv
          rw [thinkPost_edge] at hedge
          cases hedge
      | executeTool =>
          obtain ⟨-, ⟨-, -, rfl | rfl⟩ | ⟨-, -, rfl⟩⟩ := executeToolNode_waits hv
          · cases hedge
          · cases hedge
          · cases hedge
      | selfCheck =>
          obtain ⟨result, -, rfl, -⟩ := selfCheckNode_spec hv
          exact selfCheckPost_checked s result

theorem graphVisit_finish
    (h : graphVisit maxIterations request deps live node s = .finish s') : Checked s' := by
  unfold graphVisit at h
  cases hv : visitNode maxIterations deps node ⟨request, adapterState live s⟩ with
  | error e => rw [hv] at h; cases h
  | ok result =>
      obtain ⟨t, action⟩ := result
      rw [hv] at h
      dsimp only at h
      cases node with
      | selfCheck =>
          cases h
          obtain ⟨result, -, rfl, -⟩ := selfCheckNode_spec hv
          have hchecked := selfCheckPost_checked (adapterState live s) result
          exact ⟨hchecked.status, hchecked.node⟩
      | executeTool =>
          dsimp only [graphEdge] at h
          by_cases hstatus : (persistedState t).status = "pending_approval"
          · rw [if_pos hstatus] at h
            cases h
          · rw [if_neg hstatus] at h
            cases h
      | _ => cases h

/-- A run that ends has gone through the self check. -/
theorem visit_finish
    (h : engine.visit maxIterations request deps live node s = .finish s') : Checked s' := by
  cases engine with
  | pocoflow => exact plannerVisit_finish h
  | langgraph => exact graphVisit_finish h

/-- Only a batch suspends a run. -/
theorem visit_suspend
    (h : engine.visit maxIterations request deps live node s = .suspend s') :
    node = .executeTool ∧ s'.loopCount = s.loopCount := by
  cases engine with
  | pocoflow =>
      change plannerVisit maxIterations request deps node s = _ at h
      unfold plannerVisit at h
      split at h
      · cases h
      · split at h <;> cases h
  | langgraph =>
      change graphVisit maxIterations request deps live node s = _ at h
      unfold graphVisit at h
      cases hv : visitNode maxIterations deps node ⟨request, adapterState live s⟩ with
      | error e => rw [hv] at h; cases h
      | ok result =>
          obtain ⟨t, action⟩ := result
          rw [hv] at h
          dsimp only at h
          cases node with
          | executeTool =>
              obtain ⟨hcount, -⟩ := executeToolNode_waits hv
              rw [adapterState_loopCount] at hcount
              split at h
              · cases h
              · cases h
                exact ⟨rfl, hcount⟩
              · cases h
          | _ => cases h

theorem visit_moves {next : PlannerNode}
    (h : engine.visit maxIterations request deps live node s = .goto next s') :
    Moves maxIterations (batchWaits deps ⟨request, engine.handed live s⟩) node s.loopCount next
      s'.loopCount := by
  cases engine with
  | pocoflow => exact plannerVisit_moves h
  | langgraph => exact graphVisit_moves h

theorem handed_loopCount (engine : EngineName) (live : Dict) (s : PlannerState) :
    (engine.handed live s).loopCount = s.loopCount := by
  cases engine with
  | pocoflow => rfl
  | langgraph => exact adapterState_loopCount live s

/-! ## The budget -/

/-- The turn has used what the loop counter says, and an approval that was not resumed
yet stands for a started batch that has not run. -/
structure WithinBudget (maxIterations : Int) (t : PlannerTurn) : Prop where
  think : t.thinkCalls ≤ maxIterations.toNat
  batches : t.batches ≤ t.thinkCalls
  executed : t.executed ≤ t.batches
  saved : ∀ snap, t.snapshot = some snap → snap.resumed = false →
    t.executed + 1 ≤ t.batches ∧ (t.thinkCalls : Int) ≤ snap.loopCount
  steps : t.steps ≤ 2 * maxIterations.toNat + 5
  running : ∀ node s, t.phase = .running node s →
    (t.thinkCalls : Int) ≤ s.loopCount
      ∧ (node = .executeTool → t.batches + 1 ≤ t.thinkCalls)
      ∧ t.steps + plannerRank maxIterations node s.loopCount + 1 ≤ 2 * maxIterations.toNat + 5
      ∧ ∀ snap, t.snapshot = some snap → snap.resumed = false → node = .selfCheck
  suspended : ∀ s, t.phase = .suspended s → (t.thinkCalls : Int) ≤ s.loopCount
  ended : ∀ s, t.phase = .ended s → Checked s

/-- The counters after a visit, whatever it leads to. -/
structure CountsVisit (maxIterations : Int) (t : PlannerTurn) : Prop where
  think : t.thinkCalls ≤ maxIterations.toNat
  batches : t.batches ≤ t.thinkCalls
  executed : t.executed ≤ t.batches
  saved : ∀ snap, t.snapshot = some snap → snap.resumed = false →
    t.executed + 1 ≤ t.batches ∧ (t.thinkCalls : Int) ≤ snap.loopCount
  steps : t.steps ≤ 2 * maxIterations.toNat + 5

theorem visited_counts {t : PlannerTurn} (h : WithinBudget maxIterations t)
    (hphase : t.phase = .running node s) (engine : EngineName) (request : AgentRequest)
    (deps : AgentDependencies) (live : Dict) :
    CountsVisit maxIterations (t.visited engine maxIterations request deps live node s) := by
  obtain ⟨hloop, htool, hsteps, hsaved⟩ := h.running node s hphase
  have hthink := h.think
  have hbatches := h.batches
  have hexecuted := h.executed
  have hsteps' : t.steps + 1 ≤ 2 * maxIterations.toNat + 5 := by omega
  unfold PlannerTurn.visited
  dsimp only
  by_cases hnode : node = .executeTool
  · subst hnode
    have hroom := htool rfl
    cases hwaits : batchWaits deps ⟨request, engine.handed live s⟩ with
    | true =>
        simp only [reduceCtorEq, false_and, if_false, if_true, true_and,
          Bool.true_eq_false, Nat.add_zero]
        refine ⟨hthink, by dsimp only; omega, by dsimp only; omega, ?_, hsteps'⟩
        rintro snap hsnap -
        cases hsnap
        dsimp only
        rw [handed_loopCount]
        exact ⟨by omega, hloop⟩
    | false =>
        simp only [reduceCtorEq, false_and, if_false, if_true, true_and, and_false,
          Bool.false_eq_true, Nat.add_zero]
        refine ⟨hthink, by dsimp only; omega, by dsimp only; omega, ?_, hsteps'⟩
        intro snap hsnap hfresh
        cases hsaved snap hsnap hfresh
  · simp only [hnode, false_and, if_false, Nat.add_zero]
    by_cases hcalls : node = .think ∧ s.loopCount + 1 ≤ maxIterations
    · obtain ⟨rfl, hle⟩ := hcalls
      rw [if_pos ⟨rfl, hle⟩]
      refine ⟨by dsimp only; omega, by dsimp only; omega, hexecuted, ?_, hsteps'⟩
      intro snap hsnap hfresh
      cases hsaved snap hsnap hfresh
    · rw [if_neg hcalls]
      exact ⟨hthink, hbatches, hexecuted, h.saved, hsteps'⟩

/-- A visit that goes on keeps the loop counter ahead of the calls. -/
theorem visited_running {t : PlannerTurn} (h : WithinBudget maxIterations t)
    (hphase : t.phase = .running node s) {next : PlannerNode}
    (hvisit : engine.visit maxIterations request deps live node s = .goto next s') :
    let t' := t.visited engine maxIterations request deps live node s
    (t'.thinkCalls : Int) ≤ s'.loopCount
      ∧ (next = .executeTool → t'.batches + 1 ≤ t'.thinkCalls)
      ∧ t'.steps + plannerRank maxIterations next s'.loopCount + 1 ≤ 2 * maxIterations.toNat + 5
      ∧ ∀ snap, t'.snapshot = some snap → snap.resumed = false → next = .selfCheck := by
  obtain ⟨hloop, htool, hsteps, hsaved⟩ := h.running node s hphase
  have hbatches := h.batches
  have hmoves := visit_moves hvisit
  have hrank := hmoves.rank_lt
  have hsteps' : t.steps + 1 + plannerRank maxIterations next s'.loopCount + 1
      ≤ 2 * maxIterations.toNat + 5 := by omega
  clear hrank hvisit
  generalize hn : s.loopCount = n at *
  generalize s'.loopCount = n' at *
  unfold PlannerTurn.visited
  dsimp only
  cases hmoves with
  | loadContext =>
      simp only [reduceCtorEq, false_and, if_false, Nat.add_zero]
      exact ⟨hloop, nofun, hsteps', fun snap h₁ h₂ => nomatch hsaved snap h₁ h₂⟩
  | loadSkills =>
      simp only [reduceCtorEq, false_and, if_false, Nat.add_zero]
      exact ⟨hloop, nofun, hsteps', fun snap h₁ h₂ => nomatch hsaved snap h₁ h₂⟩
  | preGuard =>
      simp only [reduceCtorEq, false_and, if_false, Nat.add_zero]
      exact ⟨hloop, nofun, hsteps', fun snap h₁ h₂ => nomatch hsaved snap h₁ h₂⟩
  | toolCall _ hle =>
      simp only [reduceCtorEq, false_and, if_false, Nat.add_zero, hn, hle, and_self, if_true]
      refine ⟨by omega, fun _ => by omega, hsteps', ?_⟩
      exact fun snap h₁ h₂ => nomatch hsaved snap h₁ h₂
  | answer =>
      simp only [reduceCtorEq, false_and, if_false, Nat.add_zero, hn, true_and]
      refine ⟨?_, nofun, hsteps', fun _ _ _ => trivial⟩
      split <;> omega
  | ran _ hran =>
      simp only [reduceCtorEq, false_and, if_false, Nat.add_zero, hran, if_true, true_and]
      exact ⟨hloop, nofun, hsteps', fun snap h₁ h₂ => nomatch hsaved snap h₁ h₂⟩
  | parked _ _ =>
      simp only [reduceCtorEq, false_and, if_false, Nat.add_zero, true_and]
      exact ⟨hloop, nofun, hsteps', fun _ _ _ => trivial⟩

/-- What the phase a visit leads to has to meet. -/
def PhaseWithin (maxIterations : Int) (t : PlannerTurn) : TurnPhase → Prop
  | .running node s =>
      (t.thinkCalls : Int) ≤ s.loopCount
        ∧ (node = .executeTool → t.batches + 1 ≤ t.thinkCalls)
        ∧ t.steps + plannerRank maxIterations node s.loopCount + 1
            ≤ 2 * maxIterations.toNat + 5
        ∧ ∀ snap, t.snapshot = some snap → snap.resumed = false → node = .selfCheck
  | .suspended s => (t.thinkCalls : Int) ≤ s.loopCount
  | .ended s => Checked s
  | .failed => True

theorem CountsVisit.within {t : PlannerTurn} (h : CountsVisit maxIterations t)
    (phase : TurnPhase) (hphase : PhaseWithin maxIterations t phase) :
    WithinBudget maxIterations { t with phase := phase } where
  think := h.think
  batches := h.batches
  executed := h.executed
  saved := h.saved
  steps := h.steps
  running := by
    rintro node s rfl
    exact hphase
  suspended := by
    rintro s rfl
    exact hphase
  ended := by
    rintro s rfl
    exact hphase

/-- A start with the loop counter of the approval, or of a new turn. -/
theorem rank_start {n : Int} (hn : 0 ≤ n) (node : PlannerNode) :
    plannerRank maxIterations node n + 1 ≤ 2 * maxIterations.toNat + 5 := by
  cases node <;> simp only [plannerRank] <;> omega

theorem plannerStart_resumed (request : AgentRequest) (deps : AgentDependencies)
    (snap : Snapshot) (observation : Json) (results : List Json) :
    (plannerStart request deps (resumeEntries snap observation results)).loopCount
      = snap.loopCount := by
  unfold resumeEntries
  split
  · rename_i hzero
    rw [hzero]
    rfl
  · rfl

/-- A resumed turn starts with a count that has room for its think calls, and not in the node
that executes tools. -/
theorem resumed_start {t : PlannerTurn} {snap : Snapshot} {phase : TurnPhase}
    {request : AgentRequest} {deps : AgentDependencies} {observation : Json} {results : List Json}
    (h : WithinBudget maxIterations t) (hcount : (t.thinkCalls : Int) ≤ snap.loopCount)
    (hphase : resumePhase engine request deps observation results snap t.phase = some phase) :
    ∃ node s, phase = .running node s ∧ (t.thinkCalls : Int) ≤ s.loopCount
      ∧ node ≠ .executeTool := by
  unfold resumePhase at hphase
  cases engine with
  | pocoflow =>
      cases hphase
      refine ⟨_, _, rfl, ?_, nofun⟩
      rw [plannerStart_resumed]
      exact hcount
  | langgraph =>
      cases ht : t.phase with
      | suspended s =>
          rw [ht] at hphase
          cases hphase
          refine ⟨_, _, rfl, ?_, ?_⟩
          · rw [(awaitApproval_keeps _ s).loopCount]
            exact h.suspended s ht
          · rw [routeAfterApproval_eq]
            split <;> nofun
      | running node s => rw [ht] at hphase; cases hphase
      | ended s => rw [ht] at hphase; cases hphase
      | failed => rw [ht] at hphase; cases hphase

theorem budget_visit {t t' : PlannerTurn} {request : AgentRequest} {deps : AgentDependencies}
    {live : Dict} (h : WithinBudget maxIterations t)
    (hstep : turnStep engine maxIterations t (.visit request deps live) = some t') :
    WithinBudget maxIterations t' := by
  unfold turnStep at hstep
  cases hphase : t.phase with
  | running node s =>
      rw [hphase] at hstep
      dsimp only at hstep
      have hcounts := visited_counts h hphase engine request deps live
      cases hvisit : engine.visit maxIterations request deps live node s with
      | goto next s' =>
          rw [hvisit] at hstep
          cases hstep
          exact hcounts.within (.running next s') (visited_running h hphase hvisit)
      | finish s' =>
          rw [hvisit] at hstep
          cases hstep
          exact hcounts.within (.ended s') (visit_finish hvisit)
      | suspend s' =>
          rw [hvisit] at hstep
          cases hstep
          obtain ⟨rfl, hcount⟩ := visit_suspend hvisit
          have hloop := (h.running _ s hphase).1
          rw [← hcount] at hloop
          exact hcounts.within (.suspended s') hloop
      | raise e =>
          rw [hvisit] at hstep
          cases hstep
          exact hcounts.within .failed trivial
  | ended s => rw [hphase] at hstep; cases hstep
  | suspended s => rw [hphase] at hstep; cases hstep
  | failed => rw [hphase] at hstep; cases hstep

/-- A resumption executes the approved batch, which the first one has room for. -/
theorem budget_resume {t t' : PlannerTurn} {request : AgentRequest} {deps : AgentDependencies}
    {observation : Json} {results : List Json} (h : WithinBudget maxIterations t)
    (honce : ResumesOnce t (.resume request deps observation results))
    (hstep : turnStep engine maxIterations t (.resume request deps observation results)
      = some t') : WithinBudget maxIterations t' := by
  unfold turnStep at hstep
  cases hsnap : t.snapshot with
  | none => rw [hsnap] at hstep; cases hstep
  | some snap =>
      rw [hsnap] at hstep
      obtain ⟨phase, hphase, rfl⟩ := Option.map_eq_some_iff.mp hstep
      obtain ⟨hroom, hcount⟩ := h.saved snap hsnap (honce.fresh rfl hsnap)
      obtain ⟨node, s, rfl, hloop, hnode⟩ := resumed_start h hcount hphase
      refine
        { think := h.think
          batches := h.batches
          executed := by dsimp only; omega
          saved := by
            rintro snap' hsnap' hfresh
            cases hsnap'
            cases hfresh
          steps := by dsimp only; omega
          running := ?_
          suspended := fun _ h => absurd h nofun
          ended := fun _ h => absurd h nofun }
      rintro node' s' ⟨⟩
      refine ⟨hloop, fun h => absurd h hnode, ?_, ?_⟩
      · have hrank : plannerRank maxIterations node s.loopCount + 1
            ≤ 2 * maxIterations.toNat + 5 := rank_start (by omega) node
        dsimp only
        omega
      · rintro snap' hsnap' hfresh
        cases hsnap'
        cases hfresh

theorem budget_resume_raises {t t' : PlannerTurn} (h : WithinBudget maxIterations t)
    (honce : ResumesOnce t .resumeRaises)
    (hstep : turnStep engine maxIterations t .resumeRaises = some t') :
    WithinBudget maxIterations t' := by
  unfold turnStep at hstep
  cases hsnap : t.snapshot with
  | none => rw [hsnap] at hstep; cases hstep
  | some snap =>
      rw [hsnap] at hstep
      cases hstep
      obtain ⟨hroom, -⟩ := h.saved snap hsnap (honce.fresh rfl hsnap)
      exact
        { think := h.think
          batches := h.batches
          executed := by dsimp only; omega
          saved := by
            rintro snap' hsnap' hfresh
            cases hsnap'
            cases hfresh
          steps := h.steps
          running := fun _ _ h => absurd h nofun
          suspended := fun _ h => absurd h nofun
          ended := fun _ h => absurd h nofun }

theorem budget_step {t t' : PlannerTurn} {a : TurnAction} (h : WithinBudget maxIterations t)
    (honce : ResumesOnce t a) (hstep : turnStep engine maxIterations t a = some t') :
    WithinBudget maxIterations t' := by
  cases a with
  | visit _ _ _ => exact budget_visit h hstep
  | resume _ _ _ _ => exact budget_resume h honce hstep
  | resumeRaises => exact budget_resume_raises h honce hstep

/-! ## Whole turns -/

theorem withinBudget_new (request : AgentRequest) (deps : AgentDependencies) :
    WithinBudget maxIterations (newTurn request deps) where
  think := Nat.zero_le _
  batches := Nat.le_refl _
  executed := Nat.le_refl _
  saved := nofun
  steps := Nat.zero_le _
  running := by
    rintro node s ⟨⟩
    have hcount : (plannerStart request deps []).loopCount = 0 := rfl
    refine ⟨by rw [hcount]; exact Int.le_refl 0, nofun, ?_, nofun⟩
    have hrank : plannerRank maxIterations .loadContext 0 + 1 ≤ 2 * maxIterations.toNat + 5 :=
      rank_start (Int.le_refl 0) .loadContext
    rw [hcount]
    change 0 + _ + 1 ≤ _
    omega
  suspended := nofun
  ended := nofun

/-- A visit is one step. -/
theorem visit_steps {t t' : PlannerTurn} {a : TurnAction} (ha : a.isVisit)
    (hstep : turnStep engine maxIterations t a = some t') : t'.steps = t.steps + 1 := by
  cases a with
  | visit request deps live =>
      unfold turnStep at hstep
      cases hphase : t.phase with
      | running node s =>
          rw [hphase] at hstep
          dsimp only at hstep
          split at hstep <;> cases hstep <;> rfl
      | ended s => rw [hphase] at hstep; cases hstep
      | suspended s => rw [hphase] at hstep; cases hstep
      | failed => rw [hphase] at hstep; cases hstep
  | resume request deps observation results => cases ha
  | resumeRaises => cases ha

theorem visits_steps {t t' : PlannerTurn} {as : List TurnAction} (has : ∀ a ∈ as, a.isVisit)
    (hrun : Runs.run (turnStep engine maxIterations) t as = some t') :
    t'.steps = t.steps + as.length := by
  induction as generalizing t with
  | nil => cases hrun; rfl
  | cons a as ih =>
      obtain ⟨u, hu, hrun⟩ := Runs.run_cons_eq.mp hrun
      have hstep := visit_steps (has a List.mem_cons_self) hu
      have hrest := ih (fun b hb => has b (List.mem_cons_of_mem _ hb)) hrun
      rw [hrest, hstep, List.length_cons]
      omega

theorem visits_resumeOnce {t : PlannerTurn} {as : List TurnAction} (has : ∀ a ∈ as, a.isVisit) :
    Runs.Meets (turnStep engine maxIterations) ResumesOnce t as := by
  rw [Runs.meets_iff]
  intro pre a post u hsplit _ hresume
  have ha : a.isVisit = true := has a (by rw [hsplit]; simp)
  rw [hresume] at ha
  cases ha

end

/-- A turn stays within the iterations and the flow's step limit, its run cannot go on
for ever, and a run that ends has gone through the self check. -/
structure KeepsBudget (engine : EngineName) (maxIterations : Int) (t : PlannerTurn) : Prop where
  think : (t.thinkCalls : Int) ≤ maxIterations
  batches : (t.batches : Int) ≤ maxIterations
  executed : (t.executed : Int) ≤ maxIterations
  maxSteps : (t.steps : Int) ≤ plannerMaxSteps maxIterations
  ended : ∀ s, t.phase = .ended s → Checked s
  goesOn : t.isRunning → ∀ request deps live,
    ∃ t', turnStep engine maxIterations t (.visit request deps live) = some t'
  stops : ∀ as t', (∀ a ∈ as, a.isVisit) →
    Runs.run (turnStep engine maxIterations) t as = some t' →
      (as.length : Int) ≤ plannerMaxSteps maxIterations

/-- Every reachable state of a turn on either engine keeps the budget, with any number of
suspensions, each of them resumed at most once. The loop counter pays for the calls of `think`
and for the batches, and a suspension hands it on to the resumption. -/
theorem turn_keeps_budget (engine : EngineName) (maxIterations : Int)
    (hmax : 1 ≤ maxIterations) (request : AgentRequest) (deps : AgentDependencies)
    (as : List TurnAction) (t : PlannerTurn)
    (honce : Runs.Meets (turnStep engine maxIterations) ResumesOnce (newTurn request deps) as)
    (hrun : Runs.run (turnStep engine maxIterations) (newTurn request deps) as = some t) :
    KeepsBudget engine maxIterations t := by
  have hbudget : WithinBudget maxIterations t :=
    Runs.run_invariant (fun _ _ _ hI hC hs => budget_step hI hC hs)
      (withinBudget_new request deps) honce hrun
  have hthink := hbudget.think
  have hbatches := hbudget.batches
  have hexecuted := hbudget.executed
  have hsteps := hbudget.steps
  have hnat : (maxIterations.toNat : Int) = maxIterations := Int.toNat_of_nonneg (by omega)
  have hbound : 2 * maxIterations + 5 ≤ plannerMaxSteps maxIterations := by
    unfold plannerMaxSteps
    omega
  refine
    { think := by omega
      batches := by omega
      executed := by omega
      maxSteps := by omega
      ended := hbudget.ended
      goesOn := ?_
      stops := ?_ }
  · intro hrunning request' deps' live
    unfold turnStep
    cases hphase : t.phase with
    | running node s =>
        dsimp only
        split <;> exact ⟨_, rfl⟩
    | ended s => simp [PlannerTurn.isRunning, hphase] at hrunning
    | suspended s => simp [PlannerTurn.isRunning, hphase] at hrunning
    | failed => simp [PlannerTurn.isRunning, hphase] at hrunning
  · intro as' t' hvisits hrun'
    have hbudget' : WithinBudget maxIterations t' :=
      Runs.run_invariant (fun _ _ _ hI hC hs => budget_step hI hC hs) hbudget
        (visits_resumeOnce hvisits) hrun'
    have hsteps' := hbudget'.steps
    have hlength := visits_steps hvisits hrun'
    omega

/-! ## A resumption that is repeated -/

/-- Dependencies whose tool needs an approval. -/
def transferDeps : AgentDependencies where
  loadContext := fun _ => .ok []
  think := fun _ => .ok ⟨{ route := "tool_call", toolName := some "transfer" }, by decide⟩
  runTool := fun _ _ _ => .ok []
  selfCheck := fun _ => .ok { passed := true }
  runTools := some fun _ _ =>
    .ok [("status", .str "pending_approval"), ("results", .arr [])]

/-- The same, with a model that raises. -/
def brokenModelDeps : AgentDependencies :=
  { transferDeps with think := fun _ => .error ⟨"RuntimeError", "model unavailable"⟩ }

def visitWith (deps : AgentDependencies) : TurnAction := .visit { query := "pay" } deps []

/-- The first run up to its suspension. -/
def suspendedRun : List TurnAction := List.replicate 6 (visitWith transferDeps)

def resumeTransfer : TurnAction := .resume { query := "pay" } transferDeps (.obj []) []

theorem turn_keeps_budget_resumed :
    KeepsBudget .pocoflow 2
      ((Runs.run (turnStep .pocoflow 2) (newTurn { query := "pay" } transferDeps)
        (suspendedRun ++ [resumeTransfer])).getD (newTurn { query := "pay" } transferDeps)) :=
  turn_keeps_budget .pocoflow 2 (by decide) { query := "pay" } transferDeps
    (suspendedRun ++ [resumeTransfer]) _
    (by decide) rfl

/-- The model raises in the resumed run; the approval is resumed again from its snapshot,
and `think` is called a third time with two iterations allowed. -/
theorem repeated_resumption_exceeds_budget :
    ∃ as t, Runs.run (turnStep .pocoflow 2) (newTurn { query := "pay" } transferDeps) as = some t
      ∧ ¬ ((t.thinkCalls : Int) ≤ 2) := by
  refine ⟨suspendedRun ++ resumeTransfer :: List.replicate 4 (visitWith brokenModelDeps)
    ++ resumeTransfer :: List.replicate 4 (visitWith transferDeps), _, rfl, ?_⟩
  decide

end Aegora
