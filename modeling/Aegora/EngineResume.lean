import Aegora.PlannerNodes

/-!
# What a resumed graph is authorized by

`LangGraphEngine.resume` is handed dependencies and a runtime context that
were resolved again for the decision. The node adapter builds a store from
them and then writes the checkpoint's keys over it. Of what the governance
decides only `runtime_context` is stripped from a checkpoint: the tool
catalog `think` takes its allowed tools from, and the `tool_scopes` a loaded
skill is checked against, are the ones of the suspended turn.

The nodes after the resumption read the refreshed values exactly when the
checkpoint happens to hold them already, or when nothing is planned again.
-/

namespace Aegora

open Py Flows

/-! ## The resumption -/

/-- A node the graph comes to after `LangGraphEngine.resume`, and the state it comes to
it in. The checkpoint waits in `await_approval`. -/
def LaterNode (maxIterations : Int) (request : AgentRequest) (deps : AgentDependencies)
    (live : Dict) (payload : Json) (checkpoint : PlannerState) (node : PlannerNode)
    (s : PlannerState) : Prop :=
  Reaches (graphVisit maxIterations request deps live)
    (routeAfterApproval (awaitApproval payload checkpoint))
    (awaitApproval payload checkpoint) node s

/-- The catalog of the refreshed executor decides what `think` may call, and the
refreshed scopes what a loaded skill is checked against. -/
structure AuthorizedBy (maxIterations : Int) (catalog : List Json) (live : Dict)
    (node : PlannerNode) (s : PlannerState) : Prop where
  think : node = .think → s.loopCount + 1 ≤ maxIterations →
    (adapterState live s).toolCatalog = catalog
  executeTool : node = .executeTool →
    (adapterState live s).toolScopes = (Dict.get live "tool_scopes").dictOrEmpty

/-- Whatever the model and the tools do, every later node is authorized by what was
refreshed. -/
def ResumeAuthorized (maxIterations : Int) (request : AgentRequest) (catalog : List Json)
    (live : Dict) (payload : Json) (checkpoint : PlannerState) : Prop :=
  ∀ deps : AgentDependencies, deps.toolCatalog = some catalog → ∀ node s,
    LaterNode maxIterations request deps live payload checkpoint node s →
      AuthorizedBy maxIterations catalog live node s

/-! ## What the resumption and the later nodes keep -/

section

variable {maxIterations : Int} {request : AgentRequest} {deps : AgentDependencies}
  {catalog : List Json} {live : Dict} {payload : Json} {checkpoint : PlannerState}

/-- A later node works with the checkpoint's catalog and scopes, and runs tools only
when the checkpoint had an iteration left. -/
structure CarriesCheckpoint (maxIterations : Int) (checkpoint : PlannerState)
    (node : PlannerNode) (s : PlannerState) : Prop where
  node : node = .think ∨ node = .selfCheck
    ∨ node = .executeTool ∧ checkpoint.loopCount + 1 ≤ maxIterations
  toolCatalog : s.toolCatalog = checkpoint.toolCatalog
  toolScopes : s.toolScopes = checkpoint.toolScopes
  loopCount : checkpoint.loopCount ≤ s.loopCount

theorem carriesCheckpoint_step {node next : PlannerNode} {s s' : PlannerState}
    (h : CarriesCheckpoint maxIterations checkpoint node s)
    (hvisit : graphVisit maxIterations request deps live node s = .goto next s') :
    CarriesCheckpoint maxIterations checkpoint next s' := by
  have hmoves := graphVisit_moves hvisit
  have hcount := h.loopCount
  obtain ⟨t, action, hv, rfl, -⟩ := graphVisit_goto hvisit
  rcases h.node with rfl | rfl | ⟨rfl, -⟩
  · obtain ⟨d, -, ht, -⟩ := thinkNode_spec hv
    have hkeeps := (thinkPost_spec (adapterState live s) d.1).1
    rw [← ht] at hkeeps
    have hcatalog := hkeeps.toolCatalog.trans (adapterState_toolCatalog live s)
    have hscopes := hkeeps.toolScopes.trans (adapterState_toolScopes live s)
    have hnode : (next = .executeTool ∧ checkpoint.loopCount + 1 ≤ maxIterations
        ∨ next = .selfCheck) ∧ (persistedState t).loopCount = s.loopCount + 1 := by
      generalize (persistedState t).loopCount = n' at hmoves
      cases hmoves with
      | toolCall _ hle => exact ⟨Or.inl ⟨rfl, by omega⟩, rfl⟩
      | answer => exact ⟨Or.inr rfl, rfl⟩
    refine ⟨?_, hcatalog.trans h.toolCatalog, hscopes.trans h.toolScopes, ?_⟩
    · exact Or.inr hnode.1.symm
    · have := hnode.2
      omega
  · cases hmoves
  · obtain ⟨batch, -, hpost⟩ := executeToolNode_spec hv
    have hkept : t.toolCatalog = s.toolCatalog ∧ t.toolScopes = s.toolScopes := by
      rcases executeToolPost_spec hpost with ⟨-, hkeeps, -⟩ | ⟨-, hkeeps, -⟩
      · exact ⟨hkeeps.toolCatalog.trans (adapterState_toolCatalog live s),
          hkeeps.toolScopes.trans (adapterState_toolScopes live s)⟩
      · exact ⟨hkeeps.toolCatalog.trans (adapterState_toolCatalog live s),
          hkeeps.toolScopes.trans (adapterState_toolScopes live s)⟩
    have hnode : (next = .think ∨ next = .selfCheck)
        ∧ (persistedState t).loopCount = s.loopCount := by
      generalize (persistedState t).loopCount = n' at hmoves
      cases hmoves with
      | ran => exact ⟨Or.inl rfl, rfl⟩
      | parked => exact ⟨Or.inr rfl, rfl⟩
    refine ⟨?_, hkept.1.trans h.toolCatalog, hkept.2.trans h.toolScopes, ?_⟩
    · rcases hnode.1 with hthink | hcheck
      · exact Or.inl hthink
      · exact Or.inr (Or.inl hcheck)
    · have := hnode.2
      omega

theorem carriesCheckpoint_later {node : PlannerNode} {s : PlannerState}
    (h : LaterNode maxIterations request deps live payload checkpoint node s) :
    CarriesCheckpoint maxIterations checkpoint node s := by
  have hkeeps := awaitApproval_keeps payload checkpoint
  refine h.invariant (I := CarriesCheckpoint maxIterations checkpoint)
    (fun _ _ _ _ hI hvisit => carriesCheckpoint_step hI hvisit) ?_
  refine ⟨?_, hkeeps.toolCatalog, hkeeps.toolScopes,
    Int.le_of_eq hkeeps.loopCount.symm⟩
  rw [routeAfterApproval_eq]
  split
  · exact Or.inl rfl
  · exact Or.inr (Or.inl rfl)

/-- A resumption that is no approval only comes to the self check. -/
theorem later_of_not_approved (hpayload : resumeApproves payload = false)
    {node : PlannerNode} {s : PlannerState}
    (h : LaterNode maxIterations request deps live payload checkpoint node s) :
    node = .selfCheck := by
  refine h.invariant (I := fun node _ => node = .selfCheck) ?_ ?_
  · intro node s node' s' hnode hvisit
    have hmoves := graphVisit_moves hvisit
    rw [hnode] at hmoves
    cases hmoves
  · rw [routeAfterApproval_eq, hpayload]
    rfl

/-! ## A probe -/

/-- A model that calls a tool on every iteration. -/
def probeDeps (catalog : List Json) : AgentDependencies where
  loadContext := fun _ => .ok []
  think := fun _ => .ok ⟨{ route := "tool_call", toolName := some "load_skill" }, by decide⟩
  runTool := fun _ _ _ => .ok []
  selfCheck := fun _ => .ok { passed := true }
  toolCatalog := some catalog

/-- An approval with an iteration left leads the probe to `think` and then to its tool,
with the checkpoint's catalog and scopes. -/
theorem authorized_probe
    (h : ResumeAuthorized maxIterations request catalog live payload checkpoint)
    (hpayload : resumeApproves payload = true)
    (hcount : checkpoint.loopCount + 1 ≤ maxIterations) :
    checkpoint.toolCatalog = catalog
      ∧ checkpoint.toolScopes = (Dict.get live "tool_scopes").dictOrEmpty := by
  have hall := h (probeDeps catalog) rfl
  have hkeeps := awaitApproval_keeps payload checkpoint
  have hstart : LaterNode maxIterations request (probeDeps catalog) live payload checkpoint
      .think (awaitApproval payload checkpoint) := by
    have hroute : routeAfterApproval (awaitApproval payload checkpoint) = .think := by
      rw [routeAfterApproval_eq, hpayload]
      rfl
    unfold LaterNode
    rw [hroute]
    exact .here
  have hexec : thinkExec maxIterations (probeDeps catalog)
      ⟨request, adapterState live (awaitApproval payload checkpoint)⟩
      = .ok ⟨{ route := "tool_call", toolName := some "load_skill" }, by decide⟩ := by
    have hloop : (awaitApproval payload checkpoint).loopCount = checkpoint.loopCount :=
      hkeeps.loopCount
    unfold thinkExec
    dsimp only
    rw [adapterState_loopCount, hloop, if_neg (by omega)]
    rfl
  have hvisit : ∃ s', graphVisit maxIterations request (probeDeps catalog) live .think
      (awaitApproval payload checkpoint) = .goto .executeTool s' := by
    have hnode : visitNode maxIterations (probeDeps catalog) .think
        ⟨request, adapterState live (awaitApproval payload checkpoint)⟩
        = .ok (thinkPost (adapterState live (awaitApproval payload checkpoint))
            { route := "tool_call", toolName := some "load_skill" }) := by
      change thinkNode maxIterations _ _ = _
      unfold thinkNode
      rw [hexec]
      rfl
    unfold graphVisit
    rw [hnode]
    exact ⟨_, rfl⟩
  obtain ⟨s', hs'⟩ := hvisit
  constructor
  · have hthink := (hall _ _ hstart).think rfl (by rw [hkeeps.loopCount]; exact hcount)
    rw [adapterState_toolCatalog] at hthink
    exact hkeeps.toolCatalog.symm.trans hthink
  · have htool := (hall _ _ (hstart.step hs')).executeTool rfl
    rw [adapterState_toolScopes] at htool
    exact (carriesCheckpoint_later (hstart.step hs')).toolScopes.symm.trans htool

end

/-! ## When the later nodes read what was refreshed -/

/-- Every node after a resumption is authorized by the refreshed catalog and scopes if
and only if nothing is planned again, because the payload is no approval or the
iterations are used up, or the checkpoint holds the refreshed values already. -/
theorem resume_authorized_iff (maxIterations : Int) (request : AgentRequest)
    (catalog : List Json) (live : Dict) (payload : Json) (checkpoint : PlannerState) :
    ResumeAuthorized maxIterations request catalog live payload checkpoint
      ↔ resumeApproves payload = false ∨ maxIterations ≤ checkpoint.loopCount
        ∨ checkpoint.toolCatalog = catalog
          ∧ checkpoint.toolScopes = (Dict.get live "tool_scopes").dictOrEmpty := by
  constructor
  · intro h
    cases hpayload : resumeApproves payload with
    | false => exact Or.inl rfl
    | true =>
        by_cases hcount : maxIterations ≤ checkpoint.loopCount
        · exact Or.inr (Or.inl hcount)
        · exact Or.inr (Or.inr (authorized_probe h hpayload (by omega)))
  · rintro hcond deps - node s hlater
    have hcarries := carriesCheckpoint_later hlater
    have hcount := hcarries.loopCount
    rcases hcond with hpayload | hused | ⟨hcatalog, hscopes⟩
    · have hnode := later_of_not_approved hpayload hlater
      exact ⟨fun h => (by rw [hnode] at h; cases h), fun h => (by rw [hnode] at h; cases h)⟩
    · constructor
      · intro _ hle
        omega
      · rintro rfl
        rcases hcarries.node with h | h | ⟨-, hle⟩
        · cases h
        · cases h
        · omega
    · constructor
      · intro _ _
        rw [adapterState_toolCatalog, hcarries.toolCatalog, hcatalog]
      · intro _
        rw [adapterState_toolScopes, hcarries.toolScopes, hscopes]

/-- A turn suspended while the actor could still transfer; resolved again, the release
has no tool left. -/
def revokedCheckpoint : PlannerState where
  toolCatalog := [.obj [("name", .str "bank.transfer")]]
  traceId := some "turn-1"
  runContext := []
  context := .ofDict [("tool_scopes", .obj [("bank.transfer", .obj [])])]
  loopCount := 1
  status := "pending_approval"

theorem resume_keeps_revoked_tools :
    ¬ ResumeAuthorized 3 { query := "pay" } [] [("tool_scopes", .obj [])]
      (.obj [("decision", .str "approved")]) revokedCheckpoint := by
  intro h
  have hprobe := authorized_probe h (by decide) (by decide)
  exact absurd hprobe.1 (by decide)

end Aegora
