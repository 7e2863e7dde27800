import Aegora.ApprovalRequests
import Aegora.ApprovalRuns
import Aegora.ReleaseAccess

/-!
# What an approval executes

The call that a gate held is saved in the snapshot of its record. On the
approval `resume_approved_approval` resolves the runtime context of the
record's agent, release, actor and channel from the database as it is then,
asks whether the tool is still among its `tool_ids`, and runs the saved call
on an executor without a gate.

The check is made on the name as it was saved, the executor strips it. The
handler that runs is the one of the approved tool, or none, unless the
refreshed context has a second tool under the stripped name
(`resume_runs_approved_call_iff`). The turn that continues afterwards makes
decisions of its own, which pass the gate again.
-/

namespace Aegora

open Py

/-! ## The call in the record -/

theorem mem_of_lookup {tools : List (String × Dict)} {name : String} {tool : Dict}
    (h : tools.lookup name = some tool) : (name, tool) ∈ tools := by
  obtain ⟨front, back, rfl, -⟩ := List.lookup_eq_some_iff.mp h
  exact List.mem_append_right _ List.mem_cons_self

/-- A tool is found under its own id. -/
theorem runtimeTools_id {items : List Json} {name : String} {tool : Dict}
    (h : (name, tool) ∈ runtimeTools items) :
    (Dict.get tool "tool_id").truthy = true ∧ (Dict.get tool "tool_id").pyStr = name := by
  obtain ⟨item, -, hitem⟩ := List.mem_filterMap.mp h
  obtain ⟨entries, -, hentries⟩ := Option.bind_eq_some_iff.mp hitem
  dsimp only at hentries
  split at hentries
  · rename_i htruthy
    obtain ⟨rfl, rfl⟩ := Prod.mk.inj (Option.some.inj hentries)
    exact ⟨htruthy, rfl⟩
  · cases hentries

theorem gateTool_toolName {tools : List (String × Dict)} {call : ToolCall} :
    gateTool tools (toolCallAsDict call) = tools.lookup call.toolName := by
  unfold gateTool
  by_cases hempty : call.toolName = "" <;>
    simp [toolCallAsDict, Dict.get, Dict.get?_cons, Json.orElse, hempty]

theorem contextTools_eq_ok {context : Dict} {tools : List (String × Dict)}
    (h : contextTools context = .ok tools) : ∃ items, tools = runtimeTools items := by
  unfold contextTools at h
  split at h
  · rename_i items _
    exact ⟨items, (Except.ok.inj h).symm⟩
  · cases h

theorem textColumn_eq_ok {value : Json} {text : String} (h : textColumn value = .ok text) :
    value = .str text := by
  unfold textColumn at h
  split at h
  · rw [Except.ok.inj h]
  · cases h
  · cases h

theorem approvalColumns_toolId {runtimeContext tool : Dict} {columns : ApprovalColumns}
    (h : approvalColumns runtimeContext tool = .ok columns) :
    Dict.get tool "tool_id" = .str columns.toolId := by
  unfold approvalColumns at h
  obtain ⟨release, -, h⟩ := bind_eq_ok.mp h
  obtain ⟨actor, -, h⟩ := bind_eq_ok.mp h
  obtain ⟨agentId, -, h⟩ := bind_eq_ok.mp h
  obtain ⟨releaseId, -, h⟩ := bind_eq_ok.mp h
  obtain ⟨actorId, -, h⟩ := bind_eq_ok.mp h
  obtain ⟨channel, -, h⟩ := bind_eq_ok.mp h
  obtain ⟨toolId, htoolId, h⟩ := bind_eq_ok.mp h
  obtain ⟨runnerToolId, -, h⟩ := bind_eq_ok.mp h
  obtain ⟨runnerName, -, h⟩ := bind_eq_ok.mp h
  obtain rfl := Except.ok.inj h
  exact textColumn_eq_ok htoolId

/-- What a record holds of the call it was created for. -/
structure Holds (record : ApprovalRecord) (call : ToolCall) : Prop where
  toolId : record.toolId = call.toolName
  toolArgs : record.toolArgs = call.toolArgs
  savedCall : savedCall record = toolCallAsDict call
  named : call.toolName ≠ ""

/-- The gate creates the record of a call of the batch. -/
theorem holds_of_runTools {turn : ConfiguredTurn} {stamp : Stamp} {s : Store}
    {calls : List ToolCall} {record : ApprovalRecord} {result : Dict}
    (h : turn.runTools stamp s calls = .ok (.pendingApproval record result)) :
    ∃ call ∈ calls, Holds record call := by
  unfold ConfiguredTurn.runTools at h
  obtain ⟨tools, htools, h⟩ := bind_eq_ok.mp h
  obtain ⟨specs, -, h⟩ := bind_eq_ok.mp h
  cases hheld : heldCall tools calls with
  | none => rw [hheld] at h; cases h
  | some held =>
      obtain ⟨call, tool⟩ := held
      rw [hheld] at h
      obtain ⟨created, hcreated, h⟩ := bind_eq_ok.mp h
      have hrecord : created = record := (BatchOutcome.pendingApproval.inj (Except.ok.inj h)).1
      rw [hrecord] at hcreated
      obtain ⟨hmem, hgate, -⟩ := mem_of_heldCall hheld
      rw [gateTool_toolName] at hgate
      obtain ⟨items, rfl⟩ := contextTools_eq_ok htools
      obtain ⟨htruthy, hid⟩ := runtimeTools_id (mem_of_lookup hgate)
      unfold ConfiguredTurn.createApproval at hcreated
      obtain ⟨columns, hcolumns, rfl⟩ := map_eq_ok.mp hcreated
      rw [approvalColumns_toolId hcolumns] at htruthy hid
      have hname : columns.toolId = call.toolName := by rw [← hid, Json.pyStr_str]
      refine ⟨call, hmem, hname, rfl, rfl, ?_⟩
      rw [← hname]
      simpa using htruthy

/-! ## The resumption -/

/-- The dictionary `build_runtime_context` returns. -/
def RuntimeContext.asDict (context : RuntimeContext) : Dict :=
  [("release", .obj context.release), ("agent", .obj context.agent),
    ("actor", .obj [("actor_id", optStr context.actorId)]), ("channel", optStr context.channel),
    ("tools", .arr (context.tools.map .obj)), ("tool_ids", strings context.toolIds),
    ("tool_scopes", .obj (context.toolScopes.map fun entry => (entry.1, entry.2.toJson))),
    ("permission_snapshot", .obj context.permissionSnapshot),
    ("learning_policy", .obj context.learningPolicy),
    ("memory_governance", .obj context.memoryGovernance), ("policy", .obj context.policy)]

def ContextError.text : ContextError → String
  | .runtime message _ => message
  | .python kind => kind

/-- The runtime context of a record, resolved from the database. -/
def recordContext (runtime : RuntimeEnv) (db : SharedTables) (record : ApprovalRecord) :
    Except ContextError RuntimeContext :=
  resolveRuntimeContext runtime db record.agentId record.releaseId record.actorId record.channel

/-- The outside of `resume_approved_approval` with that database. -/
def Env.withDatabase (env : Env) (runtime : RuntimeEnv) (db : SharedTables)
    (record : ApprovalRecord) : Env :=
  { env with
    resolveRuntimeContext :=
      ((recordContext runtime db record).map RuntimeContext.asDict).mapError ContextError.text }

/-- The resumption up to the tool batch. -/
def resumeSavedCall (env : Env) (runtime : RuntimeEnv) (db : SharedTables)
    (record : ApprovalRecord) : Except DecideError (Dict × BatchResult) :=
  executeSavedCall (env.withDatabase runtime db record) record

/-- The handlers it invoked: none where it raised before the batch. -/
def handlersInvoked : Except DecideError (Dict × BatchResult) → List Invocation
  | .ok (_, batch) => batch.invoked
  | .error _ => []

/-- Nothing but the approved tool runs, on the recorded arguments, and only in
a resolved context that still has the tool; else the resumption raises. -/
structure RunsApprovedCall (env : Env) (runtime : RuntimeEnv) (db : SharedTables)
    (record : ApprovalRecord) : Prop where
  only : ∀ inv ∈ handlersInvoked (resumeSavedCall env runtime db record),
    inv = ⟨record.toolId, record.toolArgs⟩
  authorized : handlersInvoked (resumeSavedCall env runtime db record) ≠ [] →
    ∃ context, recordContext runtime db record = .ok context
      ∧ record.toolId ∈ context.toolIds
  refused : (∀ context, recordContext runtime db record = .ok context →
      record.toolId ∉ context.toolIds) →
    ∃ error, resumeSavedCall env runtime db record = .error error

/-- The ids `build_runtime_tool_executor` registers. -/
def RuntimeContext.registeredIds (context : RuntimeContext) : List String :=
  (runtimeTools (context.tools.map .obj)).map Prod.fst

/-- The name is allowed, and stripped it is the id of another registered tool. -/
def NamesAnotherTool (context : RuntimeContext) (name : String) : Prop :=
  name ∈ context.toolIds ∧ context.registeredIds.Nodup ∧ strip name ∈ context.registeredIds
    ∧ strip name ≠ name

/-! ### Its checks -/

theorem ensureToolStillAllowed_asDict (context : RuntimeContext) (toolId : String) :
    ensureToolStillAllowed context.asDict toolId
      = if toolId ∈ context.toolIds then .ok () else .error .toolUnavailable := by
  have hids : ((Dict.get context.asDict "tool_ids").asList?.getD []).map Json.pyStr
      = context.toolIds := by
    change (context.toolIds.map Json.str).map Json.pyStr = context.toolIds
    rw [List.map_map, show Json.pyStr ∘ Json.str = id from funext Json.pyStr_str, List.map_id]
  unfold ensureToolStillAllowed
  dsimp only
  rw [hids]

theorem contextTools_asDict (context : RuntimeContext) :
    contextTools context.asDict = .ok (runtimeTools (context.tools.map .obj)) := by
  have htools : (Dict.get context.asDict "tools").orElse (.arr [])
      = .arr (context.tools.map .obj) := by
    change (Json.arr (context.tools.map .obj)).orElse (.arr []) = _
    cases context.tools <;> rfl
  simp only [contextTools, htools]

/-- A registry that was built has every name once. By induction over the tools still
to register. -/
theorem nodup_of_buildRuntimeToolExecutor {dispatch : Dict → ToolHandler}
    {tools : List (String × Dict)} {specs : List ToolSpec}
    (h : buildRuntimeToolExecutor dispatch tools = .ok specs) :
    (tools.map Prod.fst).Nodup ∧ specs = configuredSpecs dispatch tools := by
  have go : ∀ (rest : List (String × Dict)) (acc : List ToolSpec),
      (acc.map ToolSpec.name).Nodup →
      rest.foldlM (fun specs tool =>
          register specs (toolSpecFromConfig dispatch tool.1 tool.2)) acc = .ok specs →
      (acc.map ToolSpec.name ++ rest.map Prod.fst).Nodup
        ∧ specs = acc ++ configuredSpecs dispatch rest := by
    intro rest
    induction rest with
    | nil =>
        intro acc hacc hspecs
        obtain rfl := Except.ok.inj hspecs
        simpa [configuredSpecs] using hacc
    | cons tool rest ih =>
        intro acc hacc hspecs
        rw [List.foldlM_cons] at hspecs
        obtain ⟨next, hnext, hspecs⟩ := bind_eq_ok.mp hspecs
        unfold register at hnext
        split at hnext
        · cases hnext
        · rename_i hfresh
          obtain rfl := Except.ok.inj hnext
          have hnew : tool.1 ∉ acc.map ToolSpec.name := by
            intro hmem
            obtain ⟨spec, hspec, hname⟩ := List.mem_map.mp hmem
            exact hfresh (List.any_eq_true.mpr ⟨spec, hspec, decide_eq_true hname⟩)
          have hnodup : ((acc ++ [toolSpecFromConfig dispatch tool.1 tool.2]).map
              ToolSpec.name).Nodup := by
            rw [List.map_append, List.map_singleton]
            refine List.nodup_append.mpr
              ⟨hacc, List.nodup_singleton _, fun name hname b hb heq => ?_⟩
            have hsame : name = tool.1 := heq.trans (List.mem_singleton.mp hb)
            rw [hsame] at hname
            exact hnew hname
          obtain ⟨hall, rfl⟩ := ih _ hnodup hspecs
          refine ⟨?_, by simp [configuredSpecs]⟩
          rwa [List.map_append, List.map_singleton, List.append_assoc] at hall
  exact go tools [] List.nodup_nil h

/-- The saved call reaches a handler under its stripped name only, on its
arguments. -/
theorem runMany_single {specs : List ToolSpec} {hooks : ToolLifecycleHooks} {call : ToolCall} :
    ∀ inv ∈ (runMany specs hooks [toolCallAsDict call]).invoked,
      inv = ⟨strip call.toolName, call.toolArgs⟩
        ∧ ∃ spec ∈ specs, spec.name = strip call.toolName := by
  intro inv hinv
  have hrun : (runMany specs hooks [toolCallAsDict call]).invoked
      = (runTool specs hooks (normalizeToolCall (toolCallAsDict call) 0).toolName call.toolArgs
          (some (normalizeToolCall (toolCallAsDict call) 0).callId)).1 := by
    simp only [runMany, List.mapIdx_cons, List.mapIdx_nil, List.map_cons, List.map_nil,
      List.flatMap_cons, List.flatMap_nil, List.append_nil, runCallSafely_fst]
    rfl
  rw [hrun, normalizeToolCall_toolName] at hinv
  exact runTool_invoked inv hinv

section Resumption

variable (env : Env) {runtime : RuntimeEnv} {db : SharedTables} {record : ApprovalRecord}

theorem resumeSavedCall_unresolved {error : ContextError}
    (h : recordContext runtime db record = .error error) :
    resumeSavedCall env runtime db record = .error (.other error.text) := by
  unfold resumeSavedCall executeSavedCall Env.withDatabase
  rw [h]
  rfl

/-- A resumption in a resolved context: the check, the registry, the call. -/
theorem resumeSavedCall_resolved {context : RuntimeContext} {call : ToolCall}
    (hcontext : recordContext runtime db record = .ok context) (hcall : Holds record call) :
    resumeSavedCall env runtime db record
      = if call.toolName ∈ context.toolIds then
          ((buildRuntimeToolExecutor env.dispatch
              (runtimeTools (context.tools.map .obj))).mapError .other).map fun specs =>
            (context.asDict,
              runMany specs (configuredHooks env.toolLogDbEnabled) [toolCallAsDict call])
        else .error (.approval .toolUnavailable) := by
  have hid : savedToolId record = call.toolName := by
    unfold savedToolId
    rw [hcall.savedCall]
    have hname := hcall.named
    simp [toolCallAsDict, Dict.get, Dict.get?_cons, Json.orElse, hname]
  unfold resumeSavedCall executeSavedCall Env.withDatabase
  rw [hcontext, hid]
  simp only [Except.map, Except.mapError, bind, Except.bind, pure, Except.pure,
    ensureToolStillAllowed_asDict]
  by_cases hallowed : call.toolName ∈ context.toolIds
  · rw [if_pos hallowed, if_pos hallowed]
    simp only [runSavedCall, contextTools_asDict, hcall.savedCall, bind, Except.bind, pure,
      Except.pure]
    cases buildRuntimeToolExecutor env.dispatch (runtimeTools (context.tools.map .obj)) <;> rfl
  · rw [if_neg hallowed, if_neg hallowed]

/-- What the batch of a resolved context invokes. -/
theorem handlersInvoked_resolved {context : RuntimeContext} {call : ToolCall}
    (hcontext : recordContext runtime db record = .ok context) (hcall : Holds record call) :
    ∀ inv ∈ handlersInvoked (resumeSavedCall env runtime db record),
      inv = ⟨strip call.toolName, call.toolArgs⟩
        ∧ call.toolName ∈ context.toolIds ∧ context.registeredIds.Nodup
        ∧ strip call.toolName ∈ context.registeredIds := by
  intro inv hinv
  rw [resumeSavedCall_resolved env hcontext hcall] at hinv
  by_cases hallowed : call.toolName ∈ context.toolIds
  · rw [if_pos hallowed] at hinv
    cases hspecs : buildRuntimeToolExecutor env.dispatch
        (runtimeTools (context.tools.map .obj)) with
    | error _ => rw [hspecs] at hinv; cases hinv
    | ok specs =>
        rw [hspecs] at hinv
        obtain ⟨hnodup, rfl⟩ := nodup_of_buildRuntimeToolExecutor hspecs
        obtain ⟨rfl, spec, hspec, hname⟩ := runMany_single inv hinv
        refine ⟨rfl, hallowed, hnodup, ?_⟩
        have hnames : (configuredSpecs env.dispatch (runtimeTools (context.tools.map .obj))).map
            ToolSpec.name = context.registeredIds := configuredSpecs_name
        rw [← hname, ← hnames]
        exact List.mem_map_of_mem hspec
  · rw [if_neg hallowed] at hinv
    cases hinv

/-- A registered tool under the stripped name is invoked. -/
theorem handlersInvoked_stripped {context : RuntimeContext} {call : ToolCall}
    (hcontext : recordContext runtime db record = .ok context) (hcall : Holds record call)
    (hallowed : call.toolName ∈ context.toolIds) (hnodup : context.registeredIds.Nodup)
    (hregistered : strip call.toolName ∈ context.registeredIds) :
    ∃ inv ∈ handlersInvoked (resumeSavedCall env runtime db record),
      inv.tool = strip call.toolName := by
  obtain ⟨⟨name, tool⟩, hmem, hname⟩ := List.mem_map.mp hregistered
  obtain rfl : name = strip call.toolName := hname
  have hspecs : buildRuntimeToolExecutor env.dispatch (runtimeTools (context.tools.map .obj))
      = .ok (configuredSpecs env.dispatch (runtimeTools (context.tools.map .obj))) :=
    buildRuntimeToolExecutor_ok env.dispatch hnodup
  rw [resumeSavedCall_resolved env hcontext hcall, if_pos hallowed, hspecs]
  exact (runMany_tool_iff (configuredHooks_beforeCall _) hmem).mpr
    ⟨call, List.mem_singleton_self _, rfl⟩

/-- The approved call runs as it was recorded exactly when the refreshed
context does not register another tool under its stripped name. -/
theorem runsApprovedCall_iff {call : ToolCall} (hcall : Holds record call) :
    RunsApprovedCall env runtime db record
      ↔ ¬ ∃ context, recordContext runtime db record = .ok context
          ∧ NamesAnotherTool context call.toolName := by
  constructor
  · rintro hruns ⟨context, hcontext, hallowed, hnodup, hregistered, hother⟩
    obtain ⟨inv, hinv, htool⟩ :=
      handlersInvoked_stripped env hcontext hcall hallowed hnodup hregistered
    rw [hruns.only inv hinv, hcall.toolId] at htool
    exact hother htool.symm
  · intro hno
    cases hcontext : recordContext runtime db record with
    | error error =>
        have hraises := resumeSavedCall_unresolved env hcontext
        refine ⟨?_, ?_, fun _ => ⟨_, hraises⟩⟩
        · rw [hraises]
          exact fun inv hinv => nomatch hinv
        · rw [hraises]
          exact fun hne => absurd rfl hne
    | ok context =>
        have hinvoked := handlersInvoked_resolved env hcontext hcall
        refine ⟨fun inv hinv => ?_, fun hne => ?_, fun hrefused => ?_⟩
        · obtain ⟨rfl, hallowed, hnodup, hregistered⟩ := hinvoked inv hinv
          have hsame : strip call.toolName = call.toolName := by
            by_contra hother
            exact hno ⟨context, hcontext, hallowed, hnodup, hregistered, hother⟩
          rw [hsame, hcall.toolId, hcall.toolArgs]
        · obtain ⟨inv, hinv⟩ := List.exists_mem_of_ne_nil _ hne
          refine ⟨context, hcontext, ?_⟩
          rw [hcall.toolId]
          exact (hinvoked inv hinv).2.1
        · refine ⟨_, (resumeSavedCall_resolved env hcontext hcall).trans (if_neg ?_)⟩
          rw [← hcall.toolId]
          exact hrefused context hcontext

end Resumption

/-! ## The records a gate creates -/

/-- A record that a gate created for a call of its batch, once decided, and any database at the
time of the resumption. What is invoked is the approved call or nothing, exactly when no second
tool of the refreshed context has the stripped name. -/
theorem resume_runs_approved_call_iff {turn : ConfiguredTurn} {stamp : Stamp} {s : Store}
    {calls : List ToolCall} {record : ApprovalRecord} {result : Dict}
    (h : turn.runTools stamp s calls = .ok (.pendingApproval record result))
    (decision : ApprovalDecision) (now : Nat) (env : Env) (runtime : RuntimeEnv)
    (db : SharedTables) :
    (∃ call ∈ calls, record.toolId = call.toolName ∧ record.toolArgs = call.toolArgs)
      ∧ (RunsApprovedCall env runtime db (record.decided decision now)
        ↔ ¬ ∃ context, recordContext runtime db record = .ok context
            ∧ NamesAnotherTool context record.toolId) := by
  obtain ⟨call, hmem, hcall⟩ := holds_of_runTools h
  refine ⟨⟨call, hmem, hcall.toolId, hcall.toolArgs⟩, ?_⟩
  have hdecided : Holds (record.decided decision now) call :=
    ⟨hcall.toolId, hcall.toolArgs, hcall.savedCall, hcall.named⟩
  rw [runsApprovedCall_iff env hdecided, hcall.toolId]
  rfl

/-- The record of a batch that waits. -/
def BatchOutcome.record? : BatchOutcome → Option ApprovalRecord
  | .pendingApproval record _ => some record
  | .executed _ => none

theorem record?_eq_some {outcome : Except String BatchOutcome} {record : ApprovalRecord}
    (h : outcome.toOption.bind BatchOutcome.record? = some record) :
    ∃ result, outcome = .ok (.pendingApproval record result) := by
  cases outcome with
  | error _ => cases h
  | ok outcome =>
      cases outcome with
      | executed _ => cases h
      | pendingApproval created result =>
          obtain rfl := Option.some.inj h
          exact ⟨result, rfl⟩

/-- A release with the tools `pay` and `"pay "`, both of which need approval. -/
def spacedRelease : PublishedRelease where
  releaseId := "rel_1"
  agentId := "agent_1"
  version := 1
  status := "published"
  config :=
    [("agent", .obj [("id", .str "agent_1"), ("owner_user_id", .str "u1"), ("members", .arr []),
       ("channels", .arr [.str "web_console"])]),
     ("tools", .arr [.obj [("tool_id", .str "pay"), ("scope", .obj []), ("timeout_ms", .int 8000)],
       .obj [("tool_id", .str "pay "), ("scope", .obj []), ("timeout_ms", .int 8000)]]),
     ("permission_snapshot", .obj [("role_tool_scopes", .obj [])])]
  readable :=
    ⟨⟨_, rfl, ⟨[], rfl⟩, ⟨["web_console"], rfl⟩⟩,
      ⟨[[("tool_id", .str "pay"), ("scope", .obj []), ("timeout_ms", .int 8000)],
        [("tool_id", .str "pay "), ("scope", .obj []), ("timeout_ms", .int 8000)]], rfl,
        fun tool htool => by
          rcases List.mem_cons.mp htool with rfl | htool
          · exact ⟨⟨_, rfl⟩, ⟨[], rfl⟩, ⟨8000, rfl⟩⟩
          · cases List.mem_singleton.mp htool
            exact ⟨⟨_, rfl⟩, ⟨[], rfl⟩, ⟨8000, rfl⟩⟩⟩,
      ⟨_, [], rfl, rfl⟩⟩

/-- The user `u1` may run both tools. -/
def spacedTables : SharedTables where
  tools := [{ id := "pay", status := "active", requiresApproval := true },
    { id := "pay ", status := "active", requiresApproval := true }]
  users := [⟨"u1", "active"⟩]
  roles := [⟨"cashier", "active"⟩]
  userRoles := [("u1", "cashier")]
  rolePermissions := [⟨"cashier", "pay", .obj []⟩, ⟨"cashier", "pay ", .obj []⟩]
  releases := [spacedRelease]

def stdioRuntime : RuntimeEnv := { localRunner := "mcp+stdio://python" }

/-- A turn in the context of those tables. -/
def spacedTurn : ConfiguredTurn where
  runtimeContext :=
    ((resolveRuntimeContext stdioRuntime spacedTables "agent_1" "rel_1" "u1" "web_console").map
      RuntimeContext.asDict).toOption.getD []
  dispatch := fun _ _ _ => .ok .null
  isoformat := fun _ => "1970-01-01T00:00:00+00:00"

/-- The record of a call of that turn. -/
def spacedRecord (name : String) : Option ApprovalRecord :=
  (spacedTurn.runTools { approvalId := "appr_1", now := 0 }
      { request := { query := "pay" }
        state := { toolCatalog := [], traceId := none, runContext := [] } }
      [{ callId := "tool-call-1", toolName := name, toolArgs := [("amount", .int 3)] }]
    ).toOption.bind BatchOutcome.record?

def approvedByAda : ApprovalDecision := ⟨.approved, "ada", none⟩

theorem resume_runs_approved_call_iff_pay :
    ∃ record, spacedRecord "pay" = some record
      ∧ (RunsApprovedCall payEnv stdioRuntime spacedTables (record.decided approvedByAda 1)
        ↔ ¬ ∃ context, recordContext stdioRuntime spacedTables record = .ok context
            ∧ NamesAnotherTool context record.toolId) := by
  have hsome : (spacedRecord "pay").isSome := by decide +kernel
  obtain ⟨record, hrecord⟩ := Option.isSome_iff_exists.mp hsome
  obtain ⟨result, hresult⟩ := record?_eq_some hrecord
  exact ⟨record, hrecord,
    (resume_runs_approved_call_iff hresult approvedByAda 1 payEnv stdioRuntime spacedTables).2⟩

/-- The approval of a call of `"pay "` runs the tool `pay`. -/
theorem approval_runs_another_tool :
    ∃ record, spacedRecord "pay " = some record ∧ record.toolId = "pay "
      ∧ handlersInvoked (resumeSavedCall payEnv stdioRuntime spacedTables
          (record.decided approvedByAda 1)) = [⟨"pay", [("amount", .int 3)]⟩]
      ∧ ¬ RunsApprovedCall payEnv stdioRuntime spacedTables (record.decided approvedByAda 1) := by
  have hruns : (spacedRecord "pay ").map (fun record => (record.toolId,
      handlersInvoked (resumeSavedCall payEnv stdioRuntime spacedTables
        (record.decided approvedByAda 1))))
      = some ("pay ", [⟨"pay", [("amount", .int 3)]⟩]) := by
    decide +kernel
  obtain ⟨record, hrecord, hpair⟩ := Option.map_eq_some_iff.mp hruns
  obtain ⟨htool, hinvoked⟩ := Prod.mk.inj hpair
  refine ⟨record, hrecord, htool, hinvoked, fun hruns => ?_⟩
  have hinv := hruns.only ⟨"pay", [("amount", .int 3)]⟩
    (by rw [hinvoked]; exact List.mem_singleton_self _)
  have hname : "pay" = record.toolId := congrArg Invocation.tool hinv
  rw [htool] at hname
  exact absurd hname (by decide)

end Aegora
