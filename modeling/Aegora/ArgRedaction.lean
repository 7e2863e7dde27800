import Aegora.ApprovalRequests

/-!
# What the shown arguments depend on

Tool observations and approval responses repeat the arguments of a call.
The executor and the approval response put `***` for the values under
`password`, `token`, `api_key` and `secret`; the pending observation of the
gate and the observation of a decision copy the arguments as they are.

Two runs are compared step by step: the same batches and decisions, with
calls that differ only in the values under those keys. What they show is
the same for every such pair exactly when no call that an approval is
requested for has one of the keys (`shown_args_independent_iff`).
-/

namespace Aegora

open Py

/-! ## Arguments that differ in secrets only -/

/-- The same keys in the same order, the same values except under a hidden key. -/
def SameUpToSecrets (args args' : Dict) : Prop :=
  List.Forall₂ (fun kv kv' => kv.1 = kv'.1 ∧ (lowerKey kv.1 ∉ hiddenArgs → kv.2 = kv'.2))
    args args'

/-- No value stands under a hidden key. -/
def NoSecrets (args : Dict) : Prop := ∀ kv ∈ args, lowerKey kv.1 ∉ hiddenArgs

/-- `safe_args` keeps exactly what is no secret. -/
theorem safeArgs_eq_iff {args args' : Dict} :
    safeArgs args = safeArgs args' ↔ SameUpToSecrets args args' := by
  induction args generalizing args' with
  | nil =>
      cases args' with
      | nil => exact iff_of_true rfl .nil
      | cons kv' args' => exact iff_of_false (fun h => nomatch h) fun h => nomatch h
  | cons kv args ih =>
      cases args' with
      | nil => exact iff_of_false (fun h => nomatch h) fun h => nomatch h
      | cons kv' args' =>
          obtain ⟨key, value⟩ := kv
          obtain ⟨key', value'⟩ := kv'
          unfold SameUpToSecrets at ih ⊢
          rw [List.forall₂_cons, ← ih]
          unfold safeArgs
          rw [List.map_cons, List.map_cons, List.cons.injEq]
          refine and_congr_left fun _ => ?_
          dsimp only
          by_cases hkey : key = key'
          · rw [← hkey]
            by_cases hhidden : lowerKey key ∈ hiddenArgs
            · rw [if_pos hhidden, if_pos hhidden]
              exact iff_of_true rfl ⟨rfl, fun hno => absurd hhidden hno⟩
            · rw [if_neg hhidden, if_neg hhidden, Prod.mk.injEq]
              exact ⟨fun h => ⟨h.1, fun _ => h.2⟩, fun h => ⟨h.1, h.2 hhidden⟩⟩
          · refine iff_of_false (fun h => hkey ?_) fun h => hkey h.1
            have hfirst := congrArg Prod.fst h
            split at hfirst <;> split at hfirst <;> exact hfirst

theorem SameUpToSecrets.eq {args args' : Dict} (h : SameUpToSecrets args args')
    (hno : NoSecrets args) : args = args' := by
  induction h with
  | nil => rfl
  | @cons kv kv' args args' hhead _ ih =>
      obtain ⟨hkey, hvalue⟩ := hhead
      have hfirst := hvalue (hno kv List.mem_cons_self)
      rw [ih fun kv hkv => hno kv (List.mem_cons_of_mem _ hkv), Prod.ext hkey hfirst]

/-- Another value. -/
def otherValue (v : Json) : Json := if v = .null then .bool true else .null

theorem otherValue_ne (v : Json) : otherValue v ≠ v := by
  unfold otherValue
  split
  · rename_i hnull
    rw [hnull]
    exact fun h => nomatch h
  · exact fun h => absurd h.symm ‹_›

/-- Every secret replaced by another value. -/
def otherSecrets (args : Dict) : Dict :=
  args.map fun kv => if lowerKey kv.1 ∈ hiddenArgs then (kv.1, otherValue kv.2) else kv

theorem sameUpToSecrets_otherSecrets (args : Dict) :
    SameUpToSecrets args (otherSecrets args) := by
  unfold SameUpToSecrets otherSecrets
  rw [List.forall₂_map_right_iff]
  refine List.forall₂_same.mpr fun kv _ => ?_
  by_cases hhidden : lowerKey kv.1 ∈ hiddenArgs
  · rw [if_pos hhidden]
    exact ⟨rfl, fun hno => absurd hhidden hno⟩
  · rw [if_neg hhidden]
    exact ⟨rfl, fun _ => rfl⟩

theorem noSecrets_of_otherSecrets {args : Dict} (h : otherSecrets args = args) :
    NoSecrets args := by
  intro kv hkv hhidden
  have hfixed := List.map_inj_left.mp (h.trans (List.map_id args).symm) kv hkv
  rw [if_pos hhidden] at hfixed
  exact otherValue_ne kv.2 (congrArg Prod.snd hfixed)

/-! ## What a step shows -/

/-- The `args` of the observations of one step, and the `tool_args_preview`
of its approval responses. -/
structure Shown where
  args : List Json := []
  previews : List Json := []
deriving DecidableEq

def batchArgs (batch : BatchResult) : List Json :=
  batch.results.map fun observation => .obj observation.args

def argsPreview (isoformat : Nat → String) (record : ApprovalRecord) : Json :=
  Dict.get (approvalResponse isoformat record) "tool_args_preview"

/-- The `args` of `approval_observation`. -/
def observedArgs (record : ApprovalRecord) (decision : Decision) : Except DecideError Json :=
  ((approvalObservation record decision).map (Dict.get · "args")).mapError .other

/-- The observations of a decision that reached `record`. -/
def decisionArgs (env : Env) (record : ApprovalRecord) (decision : Decision) :
    Except DecideError (List Json) :=
  match decision with
  | .rejected => (observedArgs record decision).map fun args => [args]
  | .approved => do
      let (_, batch) ← executeSavedCall env record
      (observedArgs record decision).map fun args => args :: batchArgs batch

/-- A tool batch of a configured turn, or a decision. Any decision may reach
any stored record here, whatever its status. -/
inductive ToolStep where
  | batch (turn : ConfiguredTurn) (stamp : Stamp) (s : Store) (calls : List ToolCall)
  | decide (approvalId : String) (decision : ApprovalDecision) (env : Env)

/-- One step: the records stored so far and what the step shows. A step that
raises shows nothing. -/
def showStep (records : List ApprovalRecord) : ToolStep → List ApprovalRecord × Shown
  | .batch turn stamp s calls =>
      match turn.runTools stamp s calls with
      | .ok (.pendingApproval record result) =>
          (records ++ [record],
            { args := (((Dict.get result "results").asList?).getD []).map fun observation =>
                Dict.get observation.dictOrEmpty "args"
              previews := [argsPreview turn.isoformat record] })
      | .ok (.executed batch) => (records, { args := batchArgs batch })
      | .error _ => (records, {})
  | .decide approvalId decision env =>
      match records.find? fun record => record.approvalId = approvalId with
      | some found =>
          let record := found.decided decision env.now
          match decisionArgs env record decision.decision with
          | .ok args => (records, { args := args, previews := [argsPreview env.isoformat record] })
          | .error _ => (records, {})
      | none => (records, {})

/-- What each step of a run shows. -/
def showRun (records : List ApprovalRecord) : List ToolStep → List Shown
  | [] => []
  | step :: steps => (showStep records step).2 :: showRun (showStep records step).1 steps

/-! ## Two runs -/

/-- The same call, its arguments up to secrets. -/
def AlikeCall (call call' : ToolCall) : Prop :=
  ∃ args, call' = { call with toolArgs := args } ∧ SameUpToSecrets call.toolArgs args

/-- The same step, the arguments of its calls up to secrets. The planner's
store holds arguments too and may differ. -/
inductive AlikeStep : ToolStep → ToolStep → Prop
  | batch (turn : ConfiguredTurn) (stamp : Stamp) (s s' : Store) {calls calls' : List ToolCall}
      (h : List.Forall₂ AlikeCall calls calls') :
      AlikeStep (.batch turn stamp s calls) (.batch turn stamp s' calls')
  | decide (approvalId : String) (decision : ApprovalDecision) (env : Env) :
      AlikeStep (.decide approvalId decision env) (.decide approvalId decision env)

/-- The call of a batch that an approval is requested for. -/
def requestedCall (turn : ConfiguredTurn) (calls : List ToolCall) :
    Except String (Option ToolCall) := do
  let tools ← contextTools turn.runtimeContext
  let _ ← buildRuntimeToolExecutor turn.dispatch tools
  match heldCall tools calls with
  | some (call, tool) =>
      let _ ← approvalColumns turn.runtimeContext tool
      return some call
  | none => return none

/-- A batch requests no approval for a call with a secret in its arguments. -/
def RequestsNoSecret : ToolStep → Prop
  | .batch turn _ _ calls =>
      ∀ call, requestedCall turn calls = .ok (some call) → NoSecrets call.toolArgs
  | .decide .. => True

/-! ### The executor -/

theorem runAttempts_args {hooks : ToolLifecycleHooks} {spec : ToolSpec} {args : Dict}
    {callId : Option String} {attempt left : Nat} {last : Option String}
    {observation : Observation}
    (h : (runAttempts hooks spec args callId attempt last left).2 = .ok observation) :
    observation.args = safeArgs args := by
  induction left generalizing attempt last with
  | zero => cases h
  | succ left ih =>
      rw [runAttempts] at h
      split at h
      · obtain rfl := Except.ok.inj h
        rfl
      · split at h
        · cases h
        · exact ih h

/-- Executed or failed, a call is shown without its secrets. -/
theorem runCallSafely_args (tools : List ToolSpec) (hooks : ToolLifecycleHooks)
    (call : NormalizedCall) :
    (runCallSafely tools hooks call).2.args = safeArgs call.toolArgs := by
  unfold runCallSafely
  split
  · rename_i invoked observation hrun
    have hok : (runTool tools hooks call.toolName call.toolArgs (some call.callId)).2
        = .ok observation := congrArg Prod.snd hrun
    unfold runTool at hok
    split at hok
    · cases hok
    · split at hok
      · cases hok
      · split at hok
        · cases hok
        · exact runAttempts_args hok
  · rfl

theorem normalizeToolCall_toolArgs (call : ToolCall) (index : Nat) :
    (normalizeToolCall (toolCallAsDict call) index).toolArgs = call.toolArgs := rfl

theorem batchArgs_runMany (tools : List ToolSpec) (hooks : ToolLifecycleHooks)
    (calls : List ToolCall) :
    batchArgs (runMany tools hooks (calls.map toolCallAsDict))
      = calls.map fun call => .obj (safeArgs call.toolArgs) := by
  unfold batchArgs runMany
  rw [List.map_map, List.map_map]
  refine List.ext_getElem (by simp) fun i hi hi' => ?_
  simp only [List.getElem_map, List.getElem_mapIdx, Function.comp_apply, runCallSafely_args,
    normalizeToolCall_toolArgs]

theorem batchArgs_alike {tools : List ToolSpec} {hooks : ToolLifecycleHooks}
    {calls calls' : List ToolCall} (h : List.Forall₂ AlikeCall calls calls') :
    batchArgs (runMany tools hooks (calls'.map toolCallAsDict))
      = batchArgs (runMany tools hooks (calls.map toolCallAsDict)) := by
  rw [batchArgs_runMany, batchArgs_runMany]
  induction h with
  | nil => rfl
  | @cons call call' calls calls' hcall _ ih =>
      obtain ⟨args, rfl, hargs⟩ := hcall
      rw [List.map_cons, List.map_cons, ih, safeArgs_eq_iff.mpr hargs]

/-! ### The gate -/

/-- The gate looks at names only. -/
theorem heldCall_alike (tools : List (String × Dict)) {calls calls' : List ToolCall}
    (h : List.Forall₂ AlikeCall calls calls') :
    (heldCall tools calls = none ∧ heldCall tools calls' = none)
      ∨ ∃ call call' tool, heldCall tools calls = some (call, tool)
          ∧ heldCall tools calls' = some (call', tool) ∧ AlikeCall call call' := by
  induction h with
  | nil => exact Or.inl ⟨rfl, rfl⟩
  | @cons call call' calls calls' hcall _ ih =>
      have hgate : gateTool tools (toolCallAsDict call')
          = gateTool tools (toolCallAsDict call) := by
        obtain ⟨args, rfl, -⟩ := hcall
        rfl
      unfold heldCall at ih ⊢
      rw [List.findSome?_cons, List.findSome?_cons, hgate]
      cases gateTool tools (toolCallAsDict call) with
      | none => exact ih
      | some tool =>
          rw [Option.bind_some, Option.bind_some]
          by_cases hneeds : toolRequiresApproval tool = true
          · rw [if_pos hneeds, if_pos hneeds]
            exact Or.inr ⟨call, call', tool, rfl, rfl, hcall⟩
          · rw [if_neg hneeds, if_neg hneeds]
            exact ih

/-! ### Records that show the same -/

/-- What a decision on a record shows is read from these columns. -/
structure SameApproval (record record' : ApprovalRecord) : Prop where
  approvalId : record'.approvalId = record.approvalId
  toolId : record'.toolId = record.toolId
  toolArgs : record'.toolArgs = record.toolArgs
  toolCall : Dict.get? record'.snapshot "tool_call" = Dict.get? record.snapshot "tool_call"

theorem SameApproval.decided {record record' : ApprovalRecord} (h : SameApproval record record')
    (decision : ApprovalDecision) (now : Nat) :
    SameApproval (record.decided decision now) (record'.decided decision now) :=
  ⟨h.approvalId, h.toolId, h.toolArgs, h.toolCall⟩

theorem argsPreview_eq (isoformat : Nat → String) (record : ApprovalRecord) :
    argsPreview isoformat record = .obj (safeArgs record.toolArgs) := rfl

theorem SameApproval.savedCall {record record' : ApprovalRecord}
    (h : SameApproval record record') : savedCall record' = savedCall record := by
  unfold Aegora.savedCall Dict.get
  rw [h.toolCall]

theorem SameApproval.executeSavedCall {record record' : ApprovalRecord}
    (h : SameApproval record record') (env : Env) :
    executeSavedCall env record' = executeSavedCall env record := by
  unfold Aegora.executeSavedCall savedToolId runSavedCall
  rw [h.savedCall, h.toolId]

theorem SameApproval.observedArgs {record record' : ApprovalRecord}
    (h : SameApproval record record') (decision : Decision) :
    observedArgs record' decision = observedArgs record decision := by
  unfold Aegora.observedArgs approvalObservation
  rw [h.toolCall]
  split
  · simp only [Except.map, Dict.get, Dict.get?_cons, h.toolArgs]
    rfl
  · rfl

theorem SameApproval.decisionArgs {record record' : ApprovalRecord}
    (h : SameApproval record record') (env : Env) (decision : Decision) :
    decisionArgs env record' decision = decisionArgs env record decision := by
  unfold Aegora.decisionArgs
  rw [h.observedArgs, h.executeSavedCall]

theorem find_sameApproval {records records' : List ApprovalRecord}
    (h : List.Forall₂ SameApproval records records') (approvalId : String) :
    (records.find? (fun record => record.approvalId = approvalId) = none
        ∧ records'.find? (fun record => record.approvalId = approvalId) = none)
      ∨ ∃ record record', records.find? (fun record => record.approvalId = approvalId) = some record
          ∧ records'.find? (fun record => record.approvalId = approvalId) = some record'
          ∧ SameApproval record record' := by
  induction h with
  | nil => exact Or.inl ⟨rfl, rfl⟩
  | @cons record record' records records' hsame _ ih =>
      rw [List.find?_cons, List.find?_cons, hsame.approvalId]
      split
      · exact Or.inr ⟨record, record', rfl, rfl, hsame⟩
      · exact ih

/-! ### One step of the two runs -/

/-- A batch and one that differs from it in secrets raise alike, execute
alike, or request an approval for two alike calls. -/
theorem runTools_alike (turn : ConfiguredTurn) (stamp : Stamp) (s s' : Store)
    {calls calls' : List ToolCall} (h : List.Forall₂ AlikeCall calls calls') :
    (∃ e e', turn.runTools stamp s calls = .error e ∧ turn.runTools stamp s' calls' = .error e')
      ∨ (∃ tools hooks,
          turn.runTools stamp s calls
            = .ok (.executed (runMany tools hooks (calls.map toolCallAsDict)))
          ∧ turn.runTools stamp s' calls'
            = .ok (.executed (runMany tools hooks (calls'.map toolCallAsDict))))
      ∨ ∃ call call' record record', requestedCall turn calls = .ok (some call)
          ∧ AlikeCall call call'
          ∧ turn.runTools stamp s calls = .ok (.pendingApproval record
              (pendingResult turn.isoformat record (toolCallAsDict call)))
          ∧ turn.runTools stamp s' calls' = .ok (.pendingApproval record'
              (pendingResult turn.isoformat record' (toolCallAsDict call')))
          ∧ record.toolArgs = call.toolArgs ∧ record'.toolArgs = call'.toolArgs
          ∧ (call' = call → SameApproval record record') := by
  unfold ConfiguredTurn.runTools requestedCall
  cases htools : contextTools turn.runtimeContext with
  | error e => exact Or.inl ⟨e, e, rfl, rfl⟩
  | ok tools =>
      cases hspecs : buildRuntimeToolExecutor turn.dispatch tools with
      | error e =>
          refine Or.inl ⟨e, e, ?_, ?_⟩ <;> simp only [bind, Except.bind, hspecs]
      | ok specs =>
          simp only [bind, Except.bind, hspecs]
          rcases heldCall_alike tools h with ⟨hnone, hnone'⟩ | hheld
          · rw [hnone, hnone']
            exact Or.inr (Or.inl ⟨specs, _, rfl, rfl⟩)
          · obtain ⟨call, call', tool, hcall, hcall', halike⟩ := hheld
            rw [hcall, hcall']
            dsimp only
            unfold ConfiguredTurn.createApproval
            cases hcolumns : approvalColumns turn.runtimeContext tool with
            | error e => exact Or.inl ⟨e, e, rfl, rfl⟩
            | ok columns =>
                exact Or.inr (Or.inr ⟨call, call', _, _, rfl, halike, rfl, rfl, rfl, rfl,
                  fun heq => ⟨rfl, rfl, congrArg ToolCall.toolArgs heq, by rw [heq]; rfl⟩⟩)

/-- A pending observation shows the arguments as they are. -/
theorem showStep_pending {turn : ConfiguredTurn} {stamp : Stamp} {s : Store}
    {calls : List ToolCall} {call : ToolCall} {record : ApprovalRecord}
    (h : turn.runTools stamp s calls = .ok (.pendingApproval record
      (pendingResult turn.isoformat record (toolCallAsDict call))))
    (hargs : record.toolArgs = call.toolArgs) (records : List ApprovalRecord) :
    showStep records (.batch turn stamp s calls) = (records ++ [record],
      { args := [.obj call.toolArgs], previews := [.obj (safeArgs call.toolArgs)] }) := by
  have hshown : (Dict.get (toolCallAsDict call) "tool_args").orElse (.obj [])
      = .obj call.toolArgs := by
    change (Json.obj call.toolArgs).orElse (.obj []) = .obj call.toolArgs
    cases call.toolArgs <;> rfl
  rw [showStep, h]
  dsimp only
  rw [argsPreview_eq, hargs, ← hshown]
  rfl

theorem showStep_alike {records records' : List ApprovalRecord} {step step' : ToolStep}
    (hrecords : List.Forall₂ SameApproval records records') (h : AlikeStep step step')
    (hno : RequestsNoSecret step) :
    (showStep records' step').2 = (showStep records step).2
      ∧ List.Forall₂ SameApproval (showStep records step).1 (showStep records' step').1 := by
  cases h with
  | batch turn stamp s s' hcalls =>
      rcases runTools_alike turn stamp s s' hcalls with
        ⟨e, e', he, he'⟩ | ⟨tools, hooks, hrun, hrun'⟩
        | ⟨call, call', record, record', hrequested, halike, hrun, hrun', hargs, hargs', hsame⟩
      · rw [showStep, showStep, he, he']
        exact ⟨rfl, hrecords⟩
      · rw [showStep, showStep, hrun, hrun']
        dsimp only
        rw [batchArgs_alike hcalls]
        exact ⟨rfl, hrecords⟩
      · obtain ⟨args, rfl, hupto⟩ := halike
        obtain rfl := hupto.eq (hno call hrequested)
        rw [showStep_pending hrun hargs, showStep_pending hrun' hargs']
        exact ⟨rfl, List.rel_append hrecords (.cons (hsame rfl) .nil)⟩
  | decide approvalId decision env =>
      rw [showStep, showStep]
      rcases find_sameApproval hrecords approvalId with
        ⟨hnone, hnone'⟩ | ⟨found, found', hfound, hfound', hsame⟩
      · rw [hnone, hnone']
        exact ⟨rfl, hrecords⟩
      · have hdecided := hsame.decided decision env.now
        rw [hfound, hfound']
        dsimp only
        rw [hdecided.decisionArgs, argsPreview_eq, argsPreview_eq, hdecided.toolArgs]
        split
        · exact ⟨rfl, hrecords⟩
        · exact ⟨rfl, hrecords⟩

theorem showRun_alike {records records' : List ApprovalRecord} {steps steps' : List ToolStep}
    (hrecords : List.Forall₂ SameApproval records records')
    (h : List.Forall₂ AlikeStep steps steps') (hno : ∀ step ∈ steps, RequestsNoSecret step) :
    showRun records' steps' = showRun records steps := by
  induction h generalizing records records' with
  | nil => rfl
  | @cons step step' steps steps' hstep _ ih =>
      obtain ⟨hshown, hrest⟩ := showStep_alike hrecords hstep (hno step List.mem_cons_self)
      rw [showRun, showRun, hshown,
        ih hrest fun step hstep => hno step (List.mem_cons_of_mem _ hstep)]

/-! ### A secret that shows -/

theorem sameUpToSecrets_refl (args : Dict) : SameUpToSecrets args args :=
  List.forall₂_same.mpr fun _ _ => ⟨rfl, fun _ => rfl⟩

theorem alikeStep_refl (step : ToolStep) : AlikeStep step step := by
  cases step with
  | batch turn stamp s calls =>
      exact .batch turn stamp s s (List.forall₂_same.mpr fun call _ =>
        ⟨call.toolArgs, rfl, sameUpToSecrets_refl _⟩)
  | decide approvalId decision env => exact .decide approvalId decision env

/-- The same call with other secrets. -/
def ToolCall.withOtherSecrets (call : ToolCall) : ToolCall :=
  { call with toolArgs := otherSecrets call.toolArgs }

theorem heldCall_withOtherSecrets (tools : List (String × Dict)) (calls : List ToolCall) :
    heldCall tools (calls.map ToolCall.withOtherSecrets)
      = (heldCall tools calls).map fun held => (held.1.withOtherSecrets, held.2) := by
  unfold heldCall
  induction calls with
  | nil => rfl
  | cons call calls ih =>
      have hgate : gateTool tools (toolCallAsDict call.withOtherSecrets)
          = gateTool tools (toolCallAsDict call) := rfl
      rw [List.map_cons, List.findSome?_cons, List.findSome?_cons, hgate]
      cases gateTool tools (toolCallAsDict call) with
      | none => exact ih
      | some tool =>
          rw [Option.bind_some, Option.bind_some]
          by_cases hneeds : toolRequiresApproval tool = true
          · rw [if_pos hneeds, if_pos hneeds]
            rfl
          · rw [if_neg hneeds, if_neg hneeds]
            exact ih

theorem requestedCall_withOtherSecrets {turn : ConfiguredTurn} {calls : List ToolCall}
    {call : ToolCall} (h : requestedCall turn calls = .ok (some call)) :
    requestedCall turn (calls.map ToolCall.withOtherSecrets)
      = .ok (some call.withOtherSecrets) := by
  unfold requestedCall at h ⊢
  obtain ⟨tools, htools, h⟩ := bind_eq_ok.mp h
  obtain ⟨specs, hspecs, h⟩ := bind_eq_ok.mp h
  rw [htools]
  simp only [bind, Except.bind, hspecs, heldCall_withOtherSecrets]
  cases hheld : heldCall tools calls with
  | none => rw [hheld] at h; cases h
  | some held =>
      rw [hheld] at h
      obtain ⟨columns, hcolumns, h⟩ := bind_eq_ok.mp h
      obtain rfl := Option.some.inj (Except.ok.inj h)
      simp only [Option.map_some, hcolumns]
      rfl

/-- The call an approval is requested for is shown with its arguments. -/
theorem showStep_requested {turn : ConfiguredTurn} {calls : List ToolCall} {call : ToolCall}
    (h : requestedCall turn calls = .ok (some call)) (stamp : Stamp) (s : Store)
    (records : List ApprovalRecord) :
    (showStep records (.batch turn stamp s calls)).2
      = { args := [.obj call.toolArgs], previews := [.obj (safeArgs call.toolArgs)] } := by
  unfold requestedCall at h
  obtain ⟨tools, htools, h⟩ := bind_eq_ok.mp h
  obtain ⟨specs, hspecs, h⟩ := bind_eq_ok.mp h
  cases hheld : heldCall tools calls with
  | none => rw [hheld] at h; cases h
  | some held =>
      rw [hheld] at h
      obtain ⟨columns, hcolumns, h⟩ := bind_eq_ok.mp h
      obtain rfl := Option.some.inj (Except.ok.inj h)
      have hrun : ∃ record, turn.runTools stamp s calls = .ok (.pendingApproval record
          (pendingResult turn.isoformat record (toolCallAsDict held.1)))
          ∧ record.toolArgs = held.1.toolArgs := by
        unfold ConfiguredTurn.runTools ConfiguredTurn.createApproval
        rw [htools]
        simp only [bind, Except.bind, hspecs, hheld, hcolumns]
        exact ⟨_, rfl, rfl⟩
      obtain ⟨record, hrun, hargs⟩ := hrun
      rw [showStep_pending hrun hargs]

/-- A batch that shows the same with other secrets requests no approval for a
call with a secret. -/
theorem requestsNoSecret_of_shown (records : List ApprovalRecord) {step : ToolStep}
    (h : ∀ step', AlikeStep step step' → (showStep records step').2 = (showStep records step).2) :
    RequestsNoSecret step := by
  cases step with
  | decide approvalId decision env => trivial
  | batch turn stamp s calls =>
      intro call hrequested
      have halike : List.Forall₂ AlikeCall calls (calls.map ToolCall.withOtherSecrets) := by
        rw [List.forall₂_map_right_iff]
        exact List.forall₂_same.mpr fun call _ =>
          ⟨_, rfl, sameUpToSecrets_otherSecrets call.toolArgs⟩
      have hshown := h _ (.batch turn stamp s s halike)
      rw [showStep_requested (requestedCall_withOtherSecrets hrequested) stamp s records,
        showStep_requested hrequested stamp s records] at hshown
      have hargs := congrArg Shown.args hshown
      exact noSecrets_of_otherSecrets (Json.obj.inj (List.cons.inj hargs).1)

/-! ## Which runs hide their secrets -/

/-- Runs that differ only in secrets show the same arguments and previews at
every step exactly when no approval is requested for a call whose arguments
hold one. -/
theorem shown_args_independent_iff (records : List ApprovalRecord) (steps : List ToolStep) :
    (∀ steps', List.Forall₂ AlikeStep steps steps' →
        showRun records steps' = showRun records steps)
      ↔ ∀ step ∈ steps, RequestsNoSecret step := by
  constructor
  · intro h
    induction steps generalizing records with
    | nil => exact fun step hstep => nomatch hstep
    | cons step steps ih =>
        intro other hother
        rcases List.mem_cons.mp hother with rfl | hother
        · refine requestsNoSecret_of_shown records fun step' hstep' => ?_
          have hrun := h (step' :: steps)
            (.cons hstep' (List.forall₂_same.mpr fun step _ => alikeStep_refl step))
          exact (List.cons.inj hrun).1
        · refine ih (showStep records step).1 (fun steps' hsteps' => ?_) other hother
          have hrun := h (step :: steps') (.cons (alikeStep_refl step) hsteps')
          exact (List.cons.inj hrun).2
  · intro hno steps' hsteps'
    exact showRun_alike (List.forall₂_same.mpr fun record _ => ⟨rfl, rfl, rfl, rfl⟩) hsteps' hno

/-- A turn whose only tool, `pay`, needs approval. -/
def payTurn : ConfiguredTurn where
  runtimeContext :=
    [("release", .obj [("agent_id", .str "agent_1"), ("release_id", .str "rel_1")]),
      ("actor", .obj [("actor_id", .str "u1")]), ("channel", .str "web_console"),
      ("tools", .arr [.obj [("tool_id", .str "pay"), ("requires_approval", .bool true)]])]
  dispatch := fun _ _ _ => .ok .null
  isoformat := fun _ => "1970-01-01T00:00:00+00:00"

def payBatch (token : String) : ToolStep :=
  .batch payTurn { approvalId := "appr_1", now := 0 }
    { request := { query := "pay" }
      state := { toolCatalog := [], traceId := none, runContext := [] } }
    [{ callId := "tool-call-1", toolName := "pay", toolArgs := [("token", .str token)] }]

/-- The token of a call that waits for approval is part of the observation. -/
theorem pending_observation_shows_token :
    AlikeStep (payBatch "a") (payBatch "b")
      ∧ (showRun [] [payBatch "a"]).map Shown.args = [[.obj [("token", .str "a")]]]
      ∧ (showRun [] [payBatch "b"]).map Shown.args = [[.obj [("token", .str "b")]]]
      ∧ ¬ (∀ steps', List.Forall₂ AlikeStep [payBatch "a"] steps' →
        showRun [] steps' = showRun [] [payBatch "a"]) := by
  have halike : AlikeStep (payBatch "a") (payBatch "b") :=
    .batch _ _ _ _ (.cons ⟨_, rfl, .cons ⟨rfl, fun hno => absurd (by decide) hno⟩ .nil⟩ .nil)
  have ha : (showRun [] [payBatch "a"]).map Shown.args = [[.obj [("token", .str "a")]]] := by
    decide +kernel
  have hb : (showRun [] [payBatch "b"]).map Shown.args = [[.obj [("token", .str "b")]]] := by
    decide +kernel
  refine ⟨halike, ha, hb, fun hall => ?_⟩
  have heq := congrArg (List.map Shown.args) (hall [payBatch "b"] (.cons halike .nil))
  rw [ha, hb] at heq
  exact absurd heq (by decide)

end Aegora
