import Aegora.PyJson

/-!
# Memory items and who may recall them

The items a memory provider hands out, the per-namespace policies and
sharing preferences that govern them, and `can_recall`, the filter every
recalled item passes. A namespace without a stored policy falls back to a
default that depends on its name: user controlled for `preferences`,
private to the agent for any other.

`can_recall` raises on a blank namespace, since the default policy it then
builds requires one.
-/

namespace Aegora

open Py

/-! ## Items -/

structure MemoryItem where
  memoryId : String
  memoryType : String
  key : String
  content : String
  scope : String := "user_global"
  nameSpace : String := "preferences"
  version : Nat := 1
  sourceAgentId : Option String := none
  sourceKind : String := "legacy"
  metadata : Dict := []
deriving DecidableEq

/-! ## Policies -/

inductive PolicyMode where
  | tenantRequired
  | userControlled
  | agentPrivate
deriving DecidableEq, Repr

/-- `mode in MEMORY_POLICY_MODES`. -/
def PolicyMode.parse (text : String) : Option PolicyMode :=
  if text = "tenant_required" then some .tenantRequired
  else if text = "user_controlled" then some .userControlled
  else if text = "agent_private" then some .agentPrivate
  else none

/-- A constructed policy has a namespace. -/
structure MemoryNamespacePolicy where
  nameSpace : String
  mode : PolicyMode
  allowPublicAgents : Bool
  nonblank : nameSpace ≠ ""
deriving DecidableEq

/-- `MemoryNamespacePolicy(...)` up to the check of the mode. -/
def MemoryNamespacePolicy.make (nameSpace : String) (mode : PolicyMode)
    (allowPublicAgents : Bool) : Except String MemoryNamespacePolicy :=
  if h : strip nameSpace = "" then .error "memory namespace is required"
  else .ok ⟨strip nameSpace, mode, allowPublicAgents, h⟩

structure MemoryGovernance where
  tenantId : String := "default"
  agentId : Option String := none
  agentVisibility : String := "private"
  namespacePolicies : List (String × MemoryNamespacePolicy) := []
  userPreferences : List (String × Bool) := []
deriving DecidableEq

/-- The mode of a namespace without a stored policy. -/
def defaultMode (nameSpace : String) : PolicyMode :=
  if nameSpace = "preferences" then .userControlled else .agentPrivate

/-- `policy_for`. -/
def MemoryGovernance.policyFor (governance : MemoryGovernance) (nameSpace : String) :
    Except String MemoryNamespacePolicy :=
  match Dict.get? governance.namespacePolicies nameSpace with
  | some policy => .ok policy
  | none => MemoryNamespacePolicy.make nameSpace (defaultMode nameSpace) false

theorem policyFor_total (governance : MemoryGovernance) {nameSpace : String}
    (h : strip nameSpace ≠ "") : ∃ policy, governance.policyFor nameSpace = .ok policy := by
  unfold MemoryGovernance.policyFor
  split
  · exact ⟨_, rfl⟩
  · unfold MemoryNamespacePolicy.make
    rw [dif_neg h]
    exact ⟨_, rfl⟩

/-- `share_enabled`. -/
def MemoryGovernance.shareEnabled (governance : MemoryGovernance) (nameSpace : String) :
    Option Bool :=
  Dict.get? governance.userPreferences nameSpace

/-- `write_scope_for`. -/
def writeScopeFor (governance : MemoryGovernance) (nameSpace : String) :
    Except String String := do
  let policy ← governance.policyFor nameSpace
  return match policy.mode with
    | .tenantRequired => "tenant_user"
    | .agentPrivate => "user_agent"
    | .userControlled => "user_global"

/-! ## The recall filter -/

/-- `item.source_agent_id and item.source_agent_id == governance.agent_id`. -/
def ownItem (agentId : Option String) (item : MemoryItem) : Bool :=
  item.sourceAgentId.any (· ≠ "") && decide (item.sourceAgentId = agentId)

/-- `item.source_agent_id in {None, "", "legacy"}`. -/
def legacySource (item : MemoryItem) : Bool :=
  decide (item.sourceAgentId ∈ [none, some "", some "legacy"])

/-- `governance.agent_id and item_agent_id == governance.agent_id`. -/
def agentOverlay (agentId : Option String) (item : MemoryItem) : Bool :=
  agentId.any (· ≠ "")
    && decide (some ((Dict.get item.metadata "agent_id").orElse (.str "")).pyStr = agentId)

/-- A public agent sees another source's items only where the policy allows. -/
def passesPublicCheck (agentVisibility : String) (agentId : Option String)
    (allowPublicAgents : Bool) (item : MemoryItem) : Bool :=
  agentVisibility ≠ "public" || allowPublicAgents || decide (item.sourceAgentId = agentId)

/-- `can_recall` past the lookup of the policy. -/
def recallsUnder (governance : MemoryGovernance) (mode : PolicyMode)
    (allowPublicAgents : Bool) (item : MemoryItem) : Bool :=
  if passesPublicCheck governance.agentVisibility governance.agentId allowPublicAgents item
      = false then false
  else if mode = .tenantRequired then item.scope = "tenant_user"
  else if item.scope = "tenant_user" then false
  else if item.scope = "user_agent" then
    if mode ≠ .agentPrivate then false else agentOverlay governance.agentId item
  else if item.scope ≠ "user_global" ∨ mode = .agentPrivate then false
  else if ownItem governance.agentId item then true
  else
    match governance.shareEnabled item.nameSpace with
    | some share => share
    | none => legacySource item

/-- `can_recall`. -/
def canRecall (item : MemoryItem) (governance : MemoryGovernance) : Except String Bool := do
  let policy ← governance.policyFor item.nameSpace
  return recallsUnder governance policy.mode policy.allowPublicAgents item

/-- `can_recall` returns true. -/
def Admits (governance : MemoryGovernance) (item : MemoryItem) : Prop :=
  canRecall item governance = .ok true

instance (governance : MemoryGovernance) (item : MemoryItem) :
    Decidable (Admits governance item) := by
  unfold Admits
  exact
    match canRecall item governance with
    | .ok true => isTrue rfl
    | .ok false => isFalse nofun
    | .error _ => isFalse nofun

theorem admits_iff {governance : MemoryGovernance} {item : MemoryItem}
    {policy : MemoryNamespacePolicy} (h : governance.policyFor item.nameSpace = .ok policy) :
    Admits governance item
      ↔ recallsUnder governance policy.mode policy.allowPublicAgents item = true := by
  unfold Admits canRecall
  rw [h]
  simp [bind, Except.bind, pure, Except.pure]

/-- What each mode hands out, past the check for public agents. -/
theorem recallsUnder_iff {governance : MemoryGovernance} {mode : PolicyMode}
    {allowPublicAgents : Bool} {item : MemoryItem} :
    recallsUnder governance mode allowPublicAgents item = true
      ↔ passesPublicCheck governance.agentVisibility governance.agentId
          allowPublicAgents item = true
        ∧ match mode with
          | .tenantRequired => item.scope = "tenant_user"
          | .agentPrivate =>
              item.scope = "user_agent" ∧ agentOverlay governance.agentId item = true
          | .userControlled =>
              item.scope = "user_global"
                ∧ (ownItem governance.agentId item = true
                  ∨ governance.shareEnabled item.nameSpace = some true
                  ∨ (governance.shareEnabled item.nameSpace = none
                    ∧ legacySource item = true)) := by
  unfold recallsUnder
  cases hpublic : passesPublicCheck governance.agentVisibility governance.agentId
      allowPublicAgents item with
  | false => simp
  | true =>
      cases mode with
      | tenantRequired => simp
      | agentPrivate =>
          by_cases htenant : item.scope = "tenant_user"
          · simp [htenant]
          · by_cases hagent : item.scope = "user_agent" <;> simp [htenant, hagent]
      | userControlled =>
          by_cases htenant : item.scope = "tenant_user"
          · simp [htenant]
          · by_cases hagent : item.scope = "user_agent"
            · simp [hagent]
            · by_cases hglobal : item.scope = "user_global"
              · cases ownItem governance.agentId item
                · cases governance.shareEnabled item.nameSpace <;> simp [hglobal]
                · simp [hglobal]
              · simp [htenant, hagent, hglobal]

/-- `filter_recalled_items`. -/
def filterRecalledItems (items : List MemoryItem) (governance : MemoryGovernance) :
    Except String (List MemoryItem) :=
  items.filterM fun item => canRecall item governance

end Aegora
