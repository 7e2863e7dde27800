import Aegora.PyJson

/-!
# The tool executor

`RuntimeToolExecutor` of the Runtime: the table of tools injected for
one turn, the attempt loop around a handler with its lifecycle hooks,
and the batch entry `runMany`. A handler is a function of its arguments
and of the number of the attempt, so one that fails first and succeeds
later is covered. Next to each result the executor returns the handlers
it invoked, in order: that list is what the approval gate protects.

Latencies and the thread pool are left out: `executor.map` yields the
results in call order, which is the order of the sequential branch.
-/

namespace Aegora

open Py

/-! ## Tools and their table -/

structure ToolMetadata where
  readOnly : Bool := false
  parallelSafe : Bool := false
  idempotent : Bool := false
  sideEffects : String := "unspecified"
deriving DecidableEq, Repr

/-- The argument types an `input_schema` of the source names. -/
inductive ArgType where
  | str
  | int
deriving DecidableEq, Repr

/-- `isinstance(value, expected_type)`; a Python `bool` is an `int`. -/
def ArgType.accepts : ArgType → Json → Bool
  | .str, .str _ => true
  | .int, .int _ => true
  | .int, .bool _ => true
  | _, _ => false

/-- What a handler does with its arguments on its `n`-th invocation. -/
abbrev ToolHandler := Dict → Nat → Except String Json

structure ToolSpec where
  name : String
  inputSchema : List (String × ArgType) := []
  handler : ToolHandler
  maxRetries : Nat := 1
  metadata : ToolMetadata := {}

/-- One invocation of a handler: the tool's name and the arguments. -/
structure Invocation where
  tool : String
  args : Dict
deriving DecidableEq, Repr

/-- The errors `run` raises, with the text each one carries. -/
inductive ToolError where
  | unknownTool (name : String)
  | missingArg (tool key : String)
  | argType (tool key : String)
  | hook (text : String)
  | failed (tool : String) (attempts : Nat) (last : Option String)
deriving DecidableEq, Repr

/-- The event a lifecycle hook receives. -/
inductive ToolEvent where
  | before (tool : String) (args : Dict) (callId : Option String)
  | after (tool : String) (args : Dict) (callId : Option String)
      (attempt : Nat) (output : Json)
  | error (tool : String) (args : Dict) (callId : Option String)
      (attempt : Nat) (error : String)

/-- A hook may raise. -/
abbrev ToolHook := ToolEvent → Except String Unit

structure ToolLifecycleHooks where
  beforeCall : List ToolHook := []
  afterCall : List ToolHook := []
  onError : List ToolHook := []

/-- Hooks run in order; the first that raises ends the sequence. -/
def fire (hooks : List ToolHook) (event : ToolEvent) : Except String Unit :=
  hooks.forM (fun hook => hook event)

/-- An entry of `tool_observations`. -/
structure Observation where
  callId : Option String
  toolName : String
  args : Dict
  status : String
  output : Option Json := none
  error : Option ToolError := none
  attempt : Option Nat := none
deriving DecidableEq

/-- `key.lower()` as far as a comparison with ASCII text can tell: outside
ASCII only the Kelvin sign has an ASCII lower case. -/
def lowerKey (key : String) : String :=
  String.ofList (key.toList.map fun c => if c.toNat = 0x212A then 'k' else c.toLower)

def hiddenArgs : List String := ["password", "token", "api_key", "secret"]

/-- `safe_args`, and `redact_sensitive` of the approval store. -/
def safeArgs (args : Dict) : Dict :=
  args.map fun kv => if lowerKey kv.1 ∈ hiddenArgs then (kv.1, .str "***") else kv

/-- `register`: names are unique in the table. -/
def register (tools : List ToolSpec) (spec : ToolSpec) :
    Except String (List ToolSpec) :=
  if tools.any (fun t => t.name = spec.name) then
    .error ("tool already registered: " ++ spec.name)
  else .ok (tools ++ [spec])

/-- `get`. -/
def getTool (tools : List ToolSpec) (name : String) : Option ToolSpec :=
  tools.find? fun t => t.name = name

/-! ## One call -/

/-- `validate_args`. -/
def validateArgs (spec : ToolSpec) (args : Dict) : Except ToolError Unit :=
  spec.inputSchema.forM fun (key, expected) =>
    match Dict.get? args key with
    | none => .error (.missingArg spec.name key)
    | some value =>
        if expected.accepts value then .ok () else .error (.argType spec.name key)

/-- The attempts of `run` from number `attempt` on, `left` of them. A hook
that raises after the handler returned is handled like a handler that
raised; one that raises in `fire_error` ends the call. -/
def runAttempts (hooks : ToolLifecycleHooks) (spec : ToolSpec) (args : Dict)
    (callId : Option String) (attempt : Nat) (last : Option String) :
    Nat → List Invocation × Except ToolError Observation
  | 0 => ([], .error (.failed spec.name spec.maxRetries last))
  | left + 1 =>
      let outcome := do
        let output ← spec.handler args attempt
        fire hooks.afterCall
          (.after spec.name (safeArgs args) callId attempt output)
        return output
      match outcome with
      | .ok output =>
          ([⟨spec.name, args⟩],
            .ok { callId := callId, toolName := spec.name, args := safeArgs args,
                  status := "ok", output := some output, attempt := some attempt })
      | .error exc =>
          match fire hooks.onError
              (.error spec.name (safeArgs args) callId attempt exc) with
          | .error hookExc => ([⟨spec.name, args⟩], .error (.hook hookExc))
          | .ok () =>
              let (invoked, result) :=
                runAttempts hooks spec args callId (attempt + 1) (some exc) left
              (⟨spec.name, args⟩ :: invoked, result)

/-- `RuntimeToolExecutor.run`. -/
def runTool (tools : List ToolSpec) (hooks : ToolLifecycleHooks) (name : String)
    (args : Dict) (callId : Option String) :
    List Invocation × Except ToolError Observation :=
  match getTool tools name with
  | none => ([], .error (.unknownTool name))
  | some spec =>
      match validateArgs spec args with
      | .error exc => ([], .error exc)
      | .ok () =>
          match fire hooks.beforeCall (.before name (safeArgs args) callId) with
          | .error exc => ([], .error (.hook exc))
          | .ok () => runAttempts hooks spec args callId 1 none spec.maxRetries

/-! ## A batch -/

structure NormalizedCall where
  callId : String
  toolName : String
  toolArgs : Dict
deriving DecidableEq, Repr

/-- `normalize_tool_call`: the name is stripped here. -/
def normalizeToolCall (call : Dict) (index : Nat) : NormalizedCall where
  toolName := strip (((Dict.get call "tool_name").orElse (Dict.get call "name")).orElse
    (.str "")).pyStr
  toolArgs :=
    match (Dict.get call "tool_args").asDict? with
    | some args => args
    | none => ((Dict.get call "args").asDict?).getD []
  callId := ((Dict.get call "call_id").orElse
    (.str ("tool-call-" ++ toString (index + 1)))).pyStr

/-- `_run_call_safely`: an error becomes an observation. -/
def runCallSafely (tools : List ToolSpec) (hooks : ToolLifecycleHooks)
    (call : NormalizedCall) : List Invocation × Observation :=
  match runTool tools hooks call.toolName call.toolArgs (some call.callId) with
  | (invoked, .ok observation) => (invoked, observation)
  | (invoked, .error exc) =>
      (invoked, { callId := some call.callId, toolName := call.toolName,
                  args := safeArgs call.toolArgs, status := "error",
                  error := some exc })

/-- `_parallel_eligible`. -/
def parallelEligible (tools : List ToolSpec) (name : String) : Bool :=
  match getTool tools name with
  | none => false
  | some spec => spec.metadata.readOnly && spec.metadata.parallelSafe

structure BatchResult where
  parallel : Bool
  results : List Observation
  invoked : List Invocation

/-- `RuntimeToolExecutor.run_many`. -/
def runMany (tools : List ToolSpec) (hooks : ToolLifecycleHooks)
    (calls : List Dict) : BatchResult :=
  let normalized := calls.mapIdx fun index call => normalizeToolCall call index
  let runs := normalized.map (runCallSafely tools hooks)
  { parallel := normalized.length > 1
      && normalized.all fun call => parallelEligible tools call.toolName
    results := runs.map Prod.snd
    invoked := runs.flatMap Prod.fst }

/-! ## What a call invokes

Every invocation carries the name under which the tool was found, so the
executor invokes a tool only under its normalized call name. -/

theorem runAttempts_invoked {hooks : ToolLifecycleHooks} {spec : ToolSpec}
    {args : Dict} {callId : Option String} {attempt left : Nat}
    {last : Option String} :
    ∀ inv ∈ (runAttempts hooks spec args callId attempt last left).1,
      inv = ⟨spec.name, args⟩ := by
  induction left generalizing attempt last with
  | zero => intro inv h; simp [runAttempts] at h
  | succ left ih =>
      intro inv h
      rw [runAttempts] at h
      split at h
      · simpa using h
      · split at h
        · simpa using h
        · rcases List.mem_cons.mp h with rfl | h
          · rfl
          · exact ih inv h

theorem runAttempts_length {hooks : ToolLifecycleHooks} {spec : ToolSpec}
    {args : Dict} {callId : Option String} {attempt left : Nat}
    {last : Option String} :
    (runAttempts hooks spec args callId attempt last left).1.length ≤ left := by
  induction left generalizing attempt last with
  | zero => simp [runAttempts]
  | succ left ih =>
      rw [runAttempts]
      split
      · simp
      · split
        · simp
        · exact Nat.succ_le_succ ih

theorem getTool_name {tools : List ToolSpec} {name : String} {spec : ToolSpec}
    (h : getTool tools name = some spec) : spec ∈ tools ∧ spec.name = name := by
  refine ⟨List.mem_of_find?_eq_some h, ?_⟩
  simpa using List.find?_some h

theorem runTool_invoked {tools : List ToolSpec} {hooks : ToolLifecycleHooks}
    {name : String} {args : Dict} {callId : Option String} :
    ∀ inv ∈ (runTool tools hooks name args callId).1,
      inv = ⟨name, args⟩ ∧ ∃ spec ∈ tools, spec.name = name := by
  intro inv h
  unfold runTool at h
  split at h
  · simp at h
  · rename_i spec hget
    obtain ⟨hmem, hname⟩ := getTool_name hget
    split at h
    · simp at h
    · split at h
      · simp at h
      · exact ⟨hname ▸ runAttempts_invoked inv h, spec, hmem, hname⟩

/-- A call invokes no more handlers than its tool has attempts. -/
theorem runTool_length {tools : List ToolSpec} {hooks : ToolLifecycleHooks}
    {name : String} {args : Dict} {callId : Option String} {bound : Nat}
    (h : ∀ spec ∈ tools, spec.maxRetries ≤ bound) :
    (runTool tools hooks name args callId).1.length ≤ bound := by
  unfold runTool
  split
  · simp
  · rename_i spec hget
    split
    · simp
    · split
      · simp
      · exact Nat.le_trans runAttempts_length (h spec (getTool_name hget).1)

theorem runCallSafely_fst (tools : List ToolSpec) (hooks : ToolLifecycleHooks)
    (call : NormalizedCall) :
    (runCallSafely tools hooks call).1
      = (runTool tools hooks call.toolName call.toolArgs (some call.callId)).1 := by
  unfold runCallSafely
  split <;> rename_i heq <;> rw [heq]

theorem runMany_invoked {tools : List ToolSpec} {hooks : ToolLifecycleHooks}
    {calls : List Dict} :
    ∀ inv ∈ (runMany tools hooks calls).invoked,
      ∃ call ∈ calls, ∃ index, inv.tool = (normalizeToolCall call index).toolName
        ∧ ∃ spec ∈ tools, spec.name = inv.tool := by
  intro inv h
  simp only [runMany, List.flatMap_map, List.mem_flatMap, List.mem_mapIdx] at h
  obtain ⟨norm, ⟨index, hindex, rfl⟩, hinv⟩ := h
  rw [runCallSafely_fst] at hinv
  obtain ⟨rfl, hspec⟩ := runTool_invoked inv hinv
  exact ⟨calls[index], List.getElem_mem hindex, index, rfl, hspec⟩

/-- A tool without required arguments or `before_call` hooks is invoked by
every call that finds it. -/
theorem runTool_invokes {tools : List ToolSpec} {hooks : ToolLifecycleHooks}
    {name : String} {spec : ToolSpec} (hget : getTool tools name = some spec)
    (hschema : spec.inputSchema = []) (hbefore : hooks.beforeCall = [])
    (hretries : 0 < spec.maxRetries) (args : Dict) (callId : Option String) :
    ⟨name, args⟩ ∈ (runTool tools hooks name args callId).1 := by
  obtain ⟨left, hleft⟩ := Nat.exists_eq_succ_of_ne_zero (Nat.ne_of_gt hretries)
  have hargs : validateArgs spec args = .ok () := by
    simp [validateArgs, hschema, pure, Except.pure]
  have hfire : ∀ event, fire hooks.beforeCall event = .ok () := by
    simp [fire, hbefore, pure, Except.pure]
  simp only [runTool, hget, hargs, hfire, hleft, Nat.succ_eq_add_one, runAttempts,
    (getTool_name hget).2]
  split
  · simp
  · split <;> simp

theorem runMany_invokes {tools : List ToolSpec} {hooks : ToolLifecycleHooks}
    {calls : List Dict} {name : String} {spec : ToolSpec}
    (hget : getTool tools name = some spec) (hschema : spec.inputSchema = [])
    (hbefore : hooks.beforeCall = []) (hretries : 0 < spec.maxRetries)
    {call : Dict} (hcall : call ∈ calls)
    (hname : ∀ index, (normalizeToolCall call index).toolName = name) :
    ∃ inv ∈ (runMany tools hooks calls).invoked, inv.tool = name := by
  obtain ⟨index, hindex, rfl⟩ := List.getElem_of_mem hcall
  let norm := normalizeToolCall calls[index] index
  refine ⟨⟨name, norm.toolArgs⟩, ?_, rfl⟩
  simp only [runMany, List.flatMap_map, List.mem_flatMap, List.mem_mapIdx]
  refine ⟨norm, ⟨index, hindex, rfl⟩, ?_⟩
  rw [runCallSafely_fst, hname index]
  exact runTool_invokes hget hschema hbefore hretries _ _

end Aegora
