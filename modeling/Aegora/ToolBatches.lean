import Aegora.HandlerRetries
import Aegora.ThreadPool

/-!
# Batches of tool calls over a shared world

`run_many` as it is executed: handlers and hooks act on a world that they
share, and a batch of read-only tools that are safe in parallel is handed to
a pool of threads. A result keeps its call's id and name whatever the
handlers and the schedule do (`callJob_answers`). Where handlers and hooks do not look
at the world, a call has one result, the one of `ToolExecutor`
(`callJob_returns`), so both modes return the same. Handlers alone are not enough: a
hook that cannot write its log fails the call that it follows, and which call that is
depends on the schedule (`modes_differ_by_hook`).
-/

namespace Aegora

open Py ThreadPool

variable {σ W : Type}

/-! ## Tools and hooks -/

/-- A tool whose handler is given the state of the turn and acts on the world. -/
structure SharedTool (σ W : Type) where
  name : String
  inputSchema : List (String × ArgType) := []
  handler : Dict → σ → Job W (Except String Json)
  maxRetries : Nat := 1
  metadata : ToolMetadata := {}

abbrev SharedHook (W : Type) := ToolEvent → Job W (Except String Unit)

structure SharedHooks (W : Type) where
  beforeCall : List (SharedHook W) := []
  afterCall : List (SharedHook W) := []
  onError : List (SharedHook W) := []

/-- The tool of the executor with what its handler returns. -/
def SharedTool.spec (tool : SharedTool σ W) (returns : Dict → Except String Json) : ToolSpec where
  name := tool.name
  inputSchema := tool.inputSchema
  handler := fun args _ => returns args
  maxRetries := tool.maxRetries
  metadata := tool.metadata

/-- `validate_args`. -/
def SharedTool.validateArgs (tool : SharedTool σ W) (args : Dict) : Except ToolError Unit :=
  tool.inputSchema.forM fun (key, expected) =>
    match Dict.get? args key with
    | none => .error (.missingArg tool.name key)
    | some value =>
        if expected.accepts value then .ok () else .error (.argType tool.name key)

/-! ## One call -/

/-- `_fire`. -/
def fireShared : List (SharedHook W) → ToolEvent → Job W (Except String Unit)
  | [], _ => .done (.ok ())
  | hook :: hooks, event => (hook event).bind fun
      | .error exc => .done (.error exc)
      | .ok () => fireShared hooks event

/-- The attempts of `run` from number `attempt` on, `left` of them. -/
def attemptJob (hooks : SharedHooks W) (tool : SharedTool σ W) (args : Dict) (state : σ)
    (callId : Option String) (attempt : Nat) (last : Option String) :
    Nat → Job W (Except ToolError Observation)
  | 0 => .done (.error (.failed tool.name tool.maxRetries last))
  | left + 1 =>
      let outcome : Job W (Except String Json) := (tool.handler args state).bind fun
        | .error exc => .done (.error exc)
        | .ok output =>
            (fireShared hooks.afterCall
              (.after tool.name (safeArgs args) callId attempt output)).bind fun
              | .error exc => .done (.error exc)
              | .ok () => .done (.ok output)
      outcome.bind fun
        | .ok output => .done (.ok
            { callId := callId, toolName := tool.name, args := safeArgs args,
              status := "ok", output := some output, attempt := some attempt })
        | .error exc =>
            (fireShared hooks.onError
              (.error tool.name (safeArgs args) callId attempt exc)).bind fun
              | .error hookExc => .done (.error (.hook hookExc))
              | .ok () => attemptJob hooks tool args state callId (attempt + 1) (some exc) left

def getShared (tools : List (SharedTool σ W)) (name : String) : Option (SharedTool σ W) :=
  tools.find? fun tool => tool.name = name

/-- `RuntimeToolExecutor.run`. -/
def toolJob (tools : List (SharedTool σ W)) (hooks : SharedHooks W) (name : String)
    (args : Dict) (state : σ) (callId : Option String) : Job W (Except ToolError Observation) :=
  match getShared tools name with
  | none => .done (.error (.unknownTool name))
  | some tool =>
      match tool.validateArgs args with
      | .error exc => .done (.error exc)
      | .ok () =>
          (fireShared hooks.beforeCall (.before name (safeArgs args) callId)).bind fun
            | .error exc => .done (.error (.hook exc))
            | .ok () => attemptJob hooks tool args state callId 1 none tool.maxRetries

/-- `_run_call_safely`. -/
def callJob (tools : List (SharedTool σ W)) (hooks : SharedHooks W) (state : σ)
    (call : NormalizedCall) : Job W Observation :=
  (toolJob tools hooks call.toolName call.toolArgs state (some call.callId)).bind fun
    | .ok observation => .done observation
    | .error exc => .done
        { callId := some call.callId, toolName := call.toolName,
          args := safeArgs call.toolArgs, status := "error", error := some exc }

/-! ## A batch -/

/-- `_parallel_eligible`. -/
def sharedEligible (tools : List (SharedTool σ W)) (name : String) : Bool :=
  match getShared tools name with
  | none => false
  | some tool => tool.metadata.readOnly && tool.metadata.parallelSafe

def normalizedCalls (calls : List Dict) : List NormalizedCall :=
  calls.mapIdx fun index call => normalizeToolCall call index

def batchJobs (tools : List (SharedTool σ W)) (hooks : SharedHooks W) (state : σ)
    (calls : List Dict) : List (Job W Observation) :=
  (normalizedCalls calls).map (callJob tools hooks state)

/-- `max(1, min(max_parallel, len(normalized)))` -/
def poolWorkers (maxParallel : ℤ) (calls : List Dict) : ℕ :=
  (max 1 (min maxParallel calls.length)).toNat

/-- `executor.map` under a schedule of the pool's threads, `none` when it stops too early. -/
def runParallel (tools : List (SharedTool σ W)) (hooks : SharedHooks W) (state : σ)
    (maxParallel : ℤ) (calls : List Dict) (schedule : List ℕ) (w : W) :
    Option (List Observation) := do
  let pool : Pool W Observation := ⟨batchJobs tools hooks state calls, w⟩
  let ended ← pool.run (poolWorkers maxParallel calls) schedule
  ended.results

def runSequential (tools : List (SharedTool σ W)) (hooks : SharedHooks W) (state : σ)
    (calls : List Dict) (w : W) : List Observation :=
  (runAll (batchJobs tools hooks state calls) w).1

/-- More than one call, all of them eligible. -/
def runsParallel (tools : List (SharedTool σ W)) (calls : List Dict) : Bool :=
  (normalizedCalls calls).length > 1
    && (normalizedCalls calls).all fun call => sharedEligible tools call.toolName

/-- `RuntimeToolExecutor.run_many`: the execution mode and the results. -/
def runBatch (tools : List (SharedTool σ W)) (hooks : SharedHooks W) (state : σ)
    (maxParallel : ℤ) (calls : List Dict) (schedule : List ℕ) (w : W) :
    Option (Bool × List Observation) :=
  if runsParallel tools calls then
    (runParallel tools hooks state maxParallel calls schedule w).map fun results => (true, results)
  else some (false, runSequential tools hooks state calls w)

/-! ## What a call answers -/

/-- An answer to the call: its id, its tool's name, and whether it went well. -/
structure AnswersCall (call : NormalizedCall) (observation : Observation) : Prop where
  callId : observation.callId = some call.callId
  toolName : observation.toolName = call.toolName
  status : observation.status = "ok" ∨ observation.status = "error"

section

variable {hooks : SharedHooks W} {tool : SharedTool σ W} {tools : List (SharedTool σ W)}
  {args : Dict} {state : σ} {callId : Option String}

theorem attemptJob_observation {attempt left : Nat} {last : Option String}
    {observation : Observation}
    (h : (attemptJob hooks tool args state callId attempt last left).Returns (.ok observation)) :
    observation.callId = callId ∧ observation.toolName = tool.name
      ∧ observation.status = "ok" := by
  induction left generalizing attempt last with
  | zero => cases Job.returns_done.mp h
  | succ left ih =>
      obtain ⟨outcome, -, h⟩ := Job.returns_bind.mp h
      cases outcome with
      | ok output =>
          cases Job.returns_done.mp h
          exact ⟨rfl, rfl, rfl⟩
      | error exc =>
          obtain ⟨fired, -, h⟩ := Job.returns_bind.mp h
          cases fired with
          | error hookExc => cases Job.returns_done.mp h
          | ok _ => exact ih h

theorem getShared_name {name : String} (h : getShared tools name = some tool) :
    tool ∈ tools ∧ tool.name = name := by
  refine ⟨List.mem_of_find?_eq_some h, ?_⟩
  simpa using List.find?_some h

/-- Whatever the handlers and the hooks do, a call is answered under its id and its name. -/
theorem callJob_answers {call : NormalizedCall} {observation : Observation}
    (h : (callJob tools hooks state call).Returns observation) :
    AnswersCall call observation := by
  obtain ⟨result, hresult, h⟩ := Job.returns_bind.mp h
  cases result with
  | error exc =>
      cases Job.returns_done.mp h
      exact ⟨rfl, rfl, Or.inr rfl⟩
  | ok answer =>
      cases Job.returns_done.mp h
      unfold toolJob at hresult
      split at hresult
      · cases Job.returns_done.mp hresult
      · rename_i tool hget
        split at hresult
        · cases Job.returns_done.mp hresult
        · obtain ⟨fired, -, hresult⟩ := Job.returns_bind.mp hresult
          cases fired with
          | error exc => cases Job.returns_done.mp hresult
          | ok _ =>
              obtain ⟨hid, hname, hstatus⟩ := attemptJob_observation hresult
              exact ⟨hid, hname.trans (getShared_name hget).2, Or.inl hstatus⟩

end

/-! ## Handlers and hooks that do not look at the world -/

/-- Each hook raises on the events on which its counterpart does. -/
def DeterminedHooks (hooks : List (SharedHook W)) (plain : List ToolHook) : Prop :=
  List.Forall₂ (fun hook plainHook => ∀ event r, (hook event).Returns r → r = plainHook event)
    hooks plain

structure SharedHooks.Determined (hooks : SharedHooks W) (plain : ToolLifecycleHooks) : Prop where
  before : DeterminedHooks hooks.beforeCall plain.beforeCall
  after : DeterminedHooks hooks.afterCall plain.afterCall
  error : DeterminedHooks hooks.onError plain.onError

theorem fireShared_returns {hooks : List (SharedHook W)} {plain : List ToolHook}
    (h : DeterminedHooks hooks plain) {event : ToolEvent} {r : Except String Unit}
    (hr : (fireShared hooks event).Returns r) : r = fire plain event := by
  induction h with
  | nil => exact Job.returns_done.mp hr
  | @cons hook plainHook hooks plain hhook hrest ih =>
      obtain ⟨fired, hfired, hr⟩ := Job.returns_bind.mp hr
      have hfired := hhook event fired hfired
      have hfire : fire (plainHook :: plain) event
          = (plainHook event).bind fun _ => fire plain event := rfl
      rw [hfire, ← hfired]
      cases fired with
      | error exc => exact Job.returns_done.mp hr
      | ok _ => exact ih hr

section

variable {hooks : SharedHooks W} {plain : ToolLifecycleHooks} {tool : SharedTool σ W}
  {tools : List (SharedTool σ W)} {returns : Dict → Except String Json} {state : σ}
  {args : Dict} {callId : Option String}

theorem attemptJob_returns (hhooks : hooks.Determined plain)
    (hhandler : ∀ args r, (tool.handler args state).Returns r → r = returns args)
    {attempt left : Nat} {last : Option String} {r : Except ToolError Observation}
    (hr : (attemptJob hooks tool args state callId attempt last left).Returns r) :
    r = (runAttempts plain (tool.spec returns) args callId attempt last left).2 := by
  induction left generalizing attempt last with
  | zero => exact Job.returns_done.mp hr
  | succ left ih =>
      obtain ⟨outcome, houtcome, hr⟩ := Job.returns_bind.mp hr
      have htried : attempted plain (tool.spec returns) args callId attempt = outcome := by
        obtain ⟨output, houtput, houtcome⟩ := Job.returns_bind.mp houtcome
        unfold attempted
        change (returns args >>= _) = outcome
        rw [← hhandler args output houtput]
        cases output with
        | error exc => exact (Job.returns_done.mp houtcome).symm
        | ok output =>
            obtain ⟨fired, hfired, houtcome⟩ := Job.returns_bind.mp houtcome
            change (fire plain.afterCall
              (.after tool.name (safeArgs args) callId attempt output) >>= _) = outcome
            rw [← fireShared_returns hhooks.after hfired]
            cases fired <;> exact (Job.returns_done.mp houtcome).symm
      cases outcome with
      | ok output =>
          rw [runAttempts_of_ok htried]
          exact Job.returns_done.mp hr
      | error exc =>
          obtain ⟨fired, hfired, hr⟩ := Job.returns_bind.mp hr
          have hfired := (fireShared_returns hhooks.error hfired).symm
          rw [runAttempts_of_error htried]
          cases fired with
          | error hookExc =>
              simp only [SharedTool.spec, hfired]
              exact Job.returns_done.mp hr
          | ok _ =>
              simp only [SharedTool.spec, hfired]
              exact ih hr

theorem getTool_map_spec (returns : SharedTool σ W → Dict → Except String Json) (name : String) :
    getTool (tools.map fun tool => tool.spec (returns tool)) name
      = (getShared tools name).map fun tool => tool.spec (returns tool) :=
  List.find?_map

/-- A call of determined tools has the result of the executor. -/
theorem callJob_returns (hhooks : hooks.Determined plain)
    {returns : SharedTool σ W → Dict → Except String Json}
    (hhandlers : ∀ tool ∈ tools, ∀ args r, (tool.handler args state).Returns r →
      r = returns tool args)
    {call : NormalizedCall} {r : Observation} (hr : (callJob tools hooks state call).Returns r) :
    r = (runCallSafely (tools.map fun tool => tool.spec (returns tool)) plain call).2 := by
  obtain ⟨result, hresult, hr⟩ := Job.returns_bind.mp hr
  have hrun : (runTool (tools.map fun tool => tool.spec (returns tool)) plain call.toolName
      call.toolArgs (some call.callId)).2 = result := by
    unfold runTool
    rw [getTool_map_spec]
    unfold toolJob at hresult
    cases hget : getShared tools call.toolName with
    | none =>
        simp only [hget] at hresult
        exact (Job.returns_done.mp hresult).symm
    | some tool =>
        have hargs : validateArgs (tool.spec (returns tool)) call.toolArgs
            = tool.validateArgs call.toolArgs := rfl
        simp only [hget] at hresult
        simp only [Option.map_some, hargs]
        cases hvalid : tool.validateArgs call.toolArgs with
        | error exc =>
            simp only [hvalid] at hresult
            exact (Job.returns_done.mp hresult).symm
        | ok _ =>
            simp only [hvalid] at hresult
            obtain ⟨fired, hfired, hresult⟩ := Job.returns_bind.mp hresult
            have hfired := (fireShared_returns hhooks.before hfired).symm
            cases fired with
            | error exc =>
                simp only [hfired]
                exact (Job.returns_done.mp hresult).symm
            | ok _ =>
                simp only [hfired]
                exact (attemptJob_returns hhooks
                  (hhandlers tool (getShared_name hget).1) hresult).symm
  unfold runCallSafely
  rw [← hrun] at hr
  generalize runTool (tools.map fun tool => tool.spec (returns tool)) plain call.toolName
    call.toolArgs (some call.callId) = run at hr
  obtain ⟨invoked, result⟩ := run
  cases result <;> exact Job.returns_done.mp hr

end

/-! ## Batches -/

section

variable {tools : List (SharedTool σ W)} {hooks : SharedHooks W} {state : σ} {maxParallel : ℤ}
  {calls : List Dict}

theorem runParallel_returns {schedule : List ℕ} {w : W} {results : List Observation}
    (h : runParallel tools hooks state maxParallel calls schedule w = some results) :
    List.Forall₂ Job.Returns (batchJobs tools hooks state calls) results := by
  obtain ⟨ended, hended, hresults⟩ := Option.bind_eq_some_iff.mp h
  exact Pool.results_returns hended hresults

theorem answers_of_returns {results : List Observation}
    (h : List.Forall₂ Job.Returns (batchJobs tools hooks state calls) results) :
    List.Forall₂ AnswersCall (normalizedCalls calls) results := by
  unfold batchJobs at h
  rw [List.forall₂_map_left_iff] at h
  exact h.imp fun call observation => callJob_answers

theorem runsParallel_eligible (h : runsParallel tools calls = true) :
    ∀ call ∈ normalizedCalls calls, ∃ tool, getShared tools call.toolName = some tool
      ∧ tool.metadata.readOnly = true ∧ tool.metadata.parallelSafe = true := by
  unfold runsParallel at h
  rw [Bool.and_eq_true, List.all_eq_true] at h
  intro call hcall
  have heligible := h.2 call hcall
  unfold sharedEligible at heligible
  split at heligible
  · cases heligible
  · rename_i tool hget
    exact ⟨tool, hget, (Bool.and_eq_true _ _).mp heligible⟩

/-- Both modes return what the executor returns for handlers and hooks that are determined. -/
theorem results_of_returns {plain : ToolLifecycleHooks}
    {returns : SharedTool σ W → Dict → Except String Json} (hhooks : hooks.Determined plain)
    (hhandlers : ∀ tool ∈ tools, ∀ args r, (tool.handler args state).Returns r →
      r = returns tool args) {results : List Observation}
    (h : List.Forall₂ Job.Returns (batchJobs tools hooks state calls) results) :
    results = (runMany (tools.map fun tool => tool.spec (returns tool)) plain calls).results := by
  unfold batchJobs at h
  rw [List.forall₂_map_left_iff] at h
  have hresults : (runMany (tools.map fun tool => tool.spec (returns tool)) plain calls).results
      = (normalizedCalls calls).map fun call =>
          (runCallSafely (tools.map fun tool => tool.spec (returns tool)) plain call).2 :=
    List.map_map
  rw [hresults]
  clear hresults
  generalize normalizedCalls calls = normalized at h
  induction h with
  | nil => rfl
  | cons hr _ ih => rw [List.map_cons, callJob_returns hhooks hhandlers hr, ih]

theorem poolWorkers_pos : 1 ≤ poolWorkers maxParallel calls := by
  unfold poolWorkers
  omega

end

/-- `run_many` answers every call, in parallel only where all tools allow it; it comes to an end,
and the mode does not show in the results where neither a handler's result nor whether a
hook raises depends on the world. -/
theorem tool_batches (tools : List (SharedTool σ W)) (hooks : SharedHooks W) (state : σ)
    (maxParallel : ℤ) (calls : List Dict) :
    (∀ schedule w parallel results,
        runBatch tools hooks state maxParallel calls schedule w = some (parallel, results) →
          List.Forall₂ AnswersCall (normalizedCalls calls) results
            ∧ (parallel = true → ∀ call ∈ normalizedCalls calls,
                ∃ tool, getShared tools call.toolName = some tool
                  ∧ tool.metadata.readOnly = true ∧ tool.metadata.parallelSafe = true))
      ∧ (∀ w, ∃ schedule parallel results,
          runBatch tools hooks state maxParallel calls schedule w = some (parallel, results))
      ∧ (∀ pool : Pool W Observation, pool.results = none →
          ∃ i pool', pool.step (poolWorkers maxParallel calls) i = some pool')
      ∧ (WellFounded fun pool' pool : Pool W Observation =>
          ∃ i, pool.step (poolWorkers maxParallel calls) i = some pool')
      ∧ ∀ plain (returns : SharedTool σ W → Dict → Except String Json),
          hooks.Determined plain →
          (∀ tool ∈ tools, ∀ args r, (tool.handler args state).Returns r →
            r = returns tool args) →
          ∀ schedule w w' results,
            runParallel tools hooks state maxParallel calls schedule w = some results →
              results = runSequential tools hooks state calls w' := by
  refine ⟨fun schedule w parallel results h => ?_, fun w => ?_, fun pool hpool => ?_,
    Pool.step_wellFounded _, fun plain returns hhooks hhandlers schedule w w' results h => ?_⟩
  · unfold runBatch at h
    split at h
    · rename_i hparallel
      obtain ⟨_, hrun, heq⟩ := Option.map_eq_some_iff.mp h
      obtain ⟨rfl, rfl⟩ := Prod.mk.inj heq
      exact ⟨answers_of_returns (runParallel_returns hrun),
        fun _ => runsParallel_eligible hparallel⟩
    · obtain ⟨rfl, rfl⟩ := Prod.mk.inj (Option.some.inj h)
      exact ⟨answers_of_returns (runAll_returns _ w), fun h => by cases h⟩
  · unfold runBatch
    split
    · obtain ⟨schedule, ended, results, hrun, hresults⟩ := Pool.exists_run
        (poolWorkers_pos)
        (⟨batchJobs tools hooks state calls, w⟩ : Pool W Observation)
      refine ⟨schedule, true, results, ?_⟩
      unfold runParallel
      dsimp only
      rw [hrun]
      exact congrArg (Option.map fun results => (true, results)) hresults
    · exact ⟨[], _, _, rfl⟩
  · exact Pool.exists_step poolWorkers_pos hpool
  · have hsequential := results_of_returns hhooks hhandlers
      (runAll_returns (batchJobs tools hooks state calls) w')
    exact (results_of_returns hhooks hhandlers (runParallel_returns h)).trans hsequential.symm

/-- A lookup that counts how often it is used. -/
def countedLookup : SharedTool Unit ℕ where
  name := "read_value"
  inputSchema := [("key", .str)]
  handler := fun args _ => .act (· + 1) fun _ => .done (.ok (Dict.get args "key"))
  metadata := { readOnly := true, parallelSafe := true }

def lookupCalls : List Dict :=
  [[("call_id", .str "c1"), ("tool_name", .str "read_value"),
      ("tool_args", .obj [("key", .str "a")])],
    [("tool_name", .str "read_value"), ("tool_args", .obj [("key", .str "b")])]]

theorem tool_batches_lookup :
    ∀ schedule w w' results,
      runParallel [countedLookup] {} () 4 lookupCalls schedule w = some results →
        results = runSequential [countedLookup] {} () lookupCalls w' := by
  obtain ⟨-, -, -, -, hmodes⟩ := tool_batches [countedLookup] {} () 4 lookupCalls
  refine hmodes {} (fun _ args => .ok (Dict.get args "key")) ⟨.nil, .nil, .nil⟩ ?_
  intro tool htool args r hr
  obtain rfl := List.mem_singleton.mp htool
  obtain ⟨-, hr⟩ := Job.returns_act.mp hr
  exact Job.returns_done.mp hr

/-- A lookup that leaves the world alone. -/
def plainLookup : SharedTool Unit ℕ where
  name := "read_value"
  inputSchema := [("key", .str)]
  handler := fun args _ => .done (.ok (Dict.get args "key"))
  metadata := { readOnly := true, parallelSafe := true }

/-- A log whose first write finds no connection. -/
def firstWriteFails : SharedHooks ℕ where
  afterCall := [fun _ => .act (· + 1) fun writes => .done
    (if writes = 0 then .error "connection refused" else .ok ())]

/-- The lost log entry fails the call that writes first: the second one when its thread is
faster, the first one when the calls run in order. -/
theorem modes_differ_by_hook :
    ¬ ∀ (tools : List (SharedTool Unit ℕ)) (hooks : SharedHooks ℕ) (calls : List Dict)
        (returns : SharedTool Unit ℕ → Dict → Except String Json),
        runsParallel tools calls = true →
        (∀ tool ∈ tools, ∀ args r, (tool.handler args ()).Returns r → r = returns tool args) →
        ∀ maxParallel schedule w results,
          runParallel tools hooks () maxParallel calls schedule w = some results →
            results = runSequential tools hooks () calls w := by
  intro h
  have hsame := h [plainLookup] firstWriteFails lookupCalls
    (fun _ args => .ok (Dict.get args "key")) (by decide)
    (fun tool htool args r hr => by
      obtain rfl := List.mem_singleton.mp htool
      exact Job.returns_done.mp hr)
    4 [1, 0] 0 _ rfl
  exact absurd (congrArg (List.map Observation.status) hsame) (by decide)

example : (runBatch [countedLookup] {} () 4 lookupCalls [1, 0] 0).map
    (fun outcome => (outcome.1, outcome.2.map fun r => (r.callId, r.status, r.output)))
      = some (true, [(some "c1", "ok", some (.str "a")),
          (some "tool-call-2", "ok", some (.str "b"))]) := by
  decide

end Aegora
