import Aegora.MemoryPolicy

/-!
# Reading the governance of a turn

`fetch_memory_governance` reads the policies and the sharing preferences of
the Control Plane in two queries and returns what it has when one of them
fails; `governance_from_runtime_context` turns that into the governance of
the turn. A failure drops stored restrictions rather than access: the
namespace defaults and the legacy sharing rule take the place of what was
not read. The last section says for which items that matters.
-/

namespace Aegora

open Py

/-! ## The tables -/

def PolicyMode.text : PolicyMode → String
  | .tenantRequired => "tenant_required"
  | .userControlled => "user_controlled"
  | .agentPrivate => "agent_private"

/-- A row of `memory_namespace_policies`; the mode is under a `CHECK`. -/
structure PolicyRow where
  tenantId : String
  nameSpace : String
  mode : PolicyMode
  allowPublicAgents : Bool
deriving DecidableEq

/-- A row of `user_memory_preferences`. -/
structure PreferenceRow where
  tenantId : String
  userId : String
  nameSpace : String
  shareAcrossAgents : Bool
deriving DecidableEq

/-- `none` where the table does not exist. -/
structure GovernanceTables where
  policies : Option (List PolicyRow)
  preferences : Option (List PreferenceRow)

def GovernanceTables.tenantPolicies (tables : GovernanceTables) (tenantId : String) :
    List (String × PolicyRow) :=
  ((tables.policies.getD []).filter fun row => row.tenantId = tenantId).map fun row =>
    (row.nameSpace, row)

def GovernanceTables.userPreferences (tables : GovernanceTables)
    (tenantId actorId : String) : List (String × PreferenceRow) :=
  ((tables.preferences.getD []).filter fun row =>
    row.tenantId = tenantId ∧ row.userId = actorId).map fun row => (row.nameSpace, row)

/-! ## The lookup -/

/-- Where the lookup can raise: connecting, asking which tables exist, one of
the two reads, closing the connection. -/
inductive LookupStage where
  | connect
  | tables
  | policies
  | preferences
  | close
deriving DecidableEq, Repr

/-- The failure comes before the policies are in the result. -/
def policiesLost : Option LookupStage → Bool
  | some .connect | some .tables | some .policies => true
  | _ => false

/-- The failure comes before the preferences are in the result. -/
def preferencesLost : Option LookupStage → Bool
  | some .connect | some .tables | some .policies | some .preferences => true
  | _ => false

/-- `os.getenv("AEGORA_TENANT_ID", "default").strip() or "default"`. -/
def runtimeTenantId (env : Option String) : String :=
  let tenantId := strip (env.getD "default")
  if tenantId = "" then "default" else tenantId

/-- `fetch_memory_governance`, raising at `failure` inside the `try`. -/
def fetchMemoryGovernance (tables : GovernanceTables) (env : Option String)
    (actorId : Option String) (agentVisibility : String)
    (failure : Option LookupStage) : Dict :=
  let tenantId := runtimeTenantId env
  let result (policies preferences : Dict) (available : Bool) : Dict :=
    [("tenant_id", .str tenantId), ("agent_visibility", .str agentVisibility),
     ("namespace_policies", .obj policies), ("user_preferences", .obj preferences),
     ("policy_available", .bool available)]
  match actorId with
  | none | some "" => result [] [] false
  | some actor =>
      let policies : Dict :=
        Dict.ofEntries ((tables.tenantPolicies tenantId).map fun kv =>
          (kv.1, .obj [("mode", .str kv.2.mode.text),
            ("allow_public_agents", .bool kv.2.allowPublicAgents)]))
      let preferences : Dict :=
        Dict.ofEntries ((tables.userPreferences tenantId actor).map fun kv =>
          (kv.1, .bool kv.2.shareAcrossAgents))
      result
        (if policiesLost failure then [] else policies)
        (if preferencesLost failure then [] else preferences)
        (!preferencesLost failure && tables.policies.isSome)

/-! ## The governance of a turn -/

/-- One entry of `namespace_policies`; what raises is skipped. -/
def policyFromJson (nameSpace : String) (item : Json) : Option MemoryNamespacePolicy :=
  item.asDict?.bind fun entries =>
    (PolicyMode.parse ((Dict.get entries "mode").orElse (.str "user_controlled")).pyStr).bind
      fun mode =>
        (MemoryNamespacePolicy.make nameSpace mode
          ((Dict.get? entries "allow_public_agents").getD (.bool false)).truthy).toOption

/-- `str(x or "").strip()`, absent when empty. -/
def strippedOr (value : Json) : Option String :=
  let text := strip (value.orElse (.str "")).pyStr
  if text = "" then none else some text

/-- `agent_id or … or None`. -/
def resolvedAgentId (agentId : Option String) (agent release : Dict) : Option String :=
  match agentId with
  | none | some "" =>
      (strippedOr (Dict.get agent "id")).or (strippedOr (Dict.get release "agent_id"))
  | some agentId => some agentId

/-- `release.get("visibility") or agent.get("visibility") or … or "private"`. -/
def effectiveVisibility (agent release : Dict) (lookedUp : Json) : String :=
  ((((Dict.get release "visibility").orElse (Dict.get agent "visibility")).orElse
    lookedUp).orElse (.str "private")).pyStr

/-- `governance_from_runtime_context`. -/
def governanceFromRuntimeContext (context : Dict) (agentId : Option String) :
    MemoryGovernance :=
  let raw := (Dict.get context "memory_governance").dictOrEmpty
  let release := (Dict.get context "release").dictOrEmpty
  let agent := (Dict.get context "agent").dictOrEmpty
  { tenantId := ((Dict.get raw "tenant_id").orElse (.str "default")).pyStr
    agentId := resolvedAgentId agentId agent release
    agentVisibility := effectiveVisibility agent release (Dict.get raw "agent_visibility")
    namespacePolicies :=
      Dict.ofEntries ((Dict.get raw "namespace_policies").dictOrEmpty.filterMap fun kv =>
        (policyFromJson kv.1 kv.2).map (kv.1, ·))
    userPreferences :=
      Dict.ofEntries ((Dict.get raw "user_preferences").dictOrEmpty.map fun kv =>
        (kv.1, kv.2.truthy)) }

/-! ## What a failed lookup leaves -/

/-- A turn: the tables, the environment and the context it is run in. -/
structure Turn where
  tables : GovernanceTables
  env : Option String
  actorId : Option String
  agentVisibility : String
  context : Dict
  agentId : Option String

namespace Turn

variable (turn : Turn) (failure : Option LookupStage) (nameSpace : String)

/-- The governance when the lookup fails at `failure`. -/
def governance : MemoryGovernance :=
  governanceFromRuntimeContext
    (Dict.set turn.context "memory_governance"
      (.obj (fetchMemoryGovernance turn.tables turn.env turn.actorId turn.agentVisibility
        failure))) turn.agentId

/-- The agent the governance is for. -/
def agent : Option String :=
  resolvedAgentId turn.agentId (Dict.get turn.context "agent").dictOrEmpty
    (Dict.get turn.context "release").dictOrEmpty

def visibility : String :=
  effectiveVisibility (Dict.get turn.context "agent").dictOrEmpty
    (Dict.get turn.context "release").dictOrEmpty (.str turn.agentVisibility)

/-- The policy the tables hold for a namespace; no actor, no lookup. -/
def storedPolicy : Option PolicyRow :=
  match turn.actorId with
  | none | some "" => none
  | some _ => Dict.get? (Dict.ofEntries (turn.tables.tenantPolicies (runtimeTenantId turn.env)))
      nameSpace

/-- The sharing choice the tables hold for a namespace. -/
def storedShare : Option Bool :=
  match turn.actorId with
  | none | some "" => none
  | some actor =>
      (Dict.get? (Dict.ofEntries
        (turn.tables.userPreferences (runtimeTenantId turn.env) actor)) nameSpace).map
        PreferenceRow.shareAcrossAgents

/-- The policy that was read before the failure. -/
def readPolicy : Option PolicyRow :=
  if policiesLost failure then none else turn.storedPolicy nameSpace

def readShare : Option Bool :=
  if preferencesLost failure then none else turn.storedShare nameSpace

/-- The mode the turn works with. -/
def mode : PolicyMode :=
  ((turn.readPolicy failure nameSpace).map PolicyRow.mode).getD (defaultMode nameSpace)

def allowsPublic : Bool :=
  ((turn.readPolicy failure nameSpace).map PolicyRow.allowPublicAgents).getD false

/-- The dictionary the lookup returns, seen by its readers. -/
theorem fetch_get :
    let raw := fetchMemoryGovernance turn.tables turn.env turn.actorId turn.agentVisibility
      failure
    Dict.get raw "agent_visibility" = .str turn.agentVisibility
      ∧ Dict.get raw "namespace_policies" = .obj
          (if policiesLost failure then [] else
            match turn.actorId with
            | none | some "" => []
            | some _ => Dict.ofEntries
                ((turn.tables.tenantPolicies (runtimeTenantId turn.env)).map fun kv =>
                  (kv.1, .obj [("mode", .str kv.2.mode.text),
                    ("allow_public_agents", .bool kv.2.allowPublicAgents)])))
      ∧ Dict.get raw "user_preferences" = .obj
          (if preferencesLost failure then [] else
            match turn.actorId with
            | none | some "" => []
            | some actor => Dict.ofEntries
                ((turn.tables.userPreferences (runtimeTenantId turn.env) actor).map
                  fun kv => (kv.1, .bool kv.2.shareAcrossAgents))) := by
  unfold fetchMemoryGovernance
  dsimp only
  split <;> simp [Dict.get, Dict.get?_cons]

theorem governance_eq :
    turn.governance failure =
      let raw := fetchMemoryGovernance turn.tables turn.env turn.actorId
        turn.agentVisibility failure
      { tenantId := ((Dict.get raw "tenant_id").orElse (.str "default")).pyStr
        agentId := turn.agent
        agentVisibility := turn.visibility
        namespacePolicies :=
          Dict.ofEntries ((Dict.get raw "namespace_policies").dictOrEmpty.filterMap
            fun kv => (policyFromJson kv.1 kv.2).map (kv.1, ·))
        userPreferences :=
          Dict.ofEntries ((Dict.get raw "user_preferences").dictOrEmpty.map fun kv =>
            (kv.1, kv.2.truthy)) } := by
  have hraw : (Dict.get (Dict.set turn.context "memory_governance"
      (.obj (fetchMemoryGovernance turn.tables turn.env turn.actorId turn.agentVisibility
        failure))) "memory_governance").dictOrEmpty
      = fetchMemoryGovernance turn.tables turn.env turn.actorId turn.agentVisibility
          failure := by
    simp [Dict.get_set, Json.dictOrEmpty, Json.asDict?]
  have hkeep : ∀ k, k ≠ "memory_governance" → ∀ v,
      Dict.get (Dict.set turn.context "memory_governance" v) k = Dict.get turn.context k := by
    intro k hk v
    rw [Dict.get_set, if_neg hk]
  unfold governance governanceFromRuntimeContext
  dsimp only
  rw [hraw, hkeep "release" (by decide), hkeep "agent" (by decide), (turn.fetch_get failure).1]
  rfl

@[simp] theorem governance_agentId : (turn.governance failure).agentId = turn.agent := by
  rw [governance_eq]

@[simp] theorem governance_agentVisibility :
    (turn.governance failure).agentVisibility = turn.visibility := by
  rw [governance_eq]

/-- The policy read for a namespace, with the namespaces that raise left out. -/
theorem governance_policy :
    Dict.get? (turn.governance failure).namespacePolicies nameSpace
      = (turn.readPolicy failure nameSpace).bind fun row =>
          (MemoryNamespacePolicy.make nameSpace row.mode row.allowPublicAgents).toOption := by
  rw [governance_eq]
  dsimp only
  rw [(turn.fetch_get failure).2.1]
  unfold readPolicy storedPolicy
  split
  · rfl
  · split
    · rfl
    · rfl
    · simp only [Json.dictOrEmpty, Json.asDict?, Option.getD_some]
      rw [Dict.get?_ofEntries_filterMap policyFromJson (Dict.nodup_keys_ofEntries _),
        Dict.get?_ofEntries_map (fun row : PolicyRow =>
          Json.obj [("mode", .str row.mode.text),
            ("allow_public_agents", .bool row.allowPublicAgents)])]
      rw [Option.bind_map]
      congr 1
      funext row
      cases hmode : row.mode <;>
        simp [policyFromJson, Json.asDict?, Dict.get, Dict.get?_cons, Json.orElse, hmode,
          PolicyMode.text, PolicyMode.parse]

@[simp] theorem governance_shareEnabled :
    (turn.governance failure).shareEnabled nameSpace
      = turn.readShare failure nameSpace := by
  unfold MemoryGovernance.shareEnabled
  rw [governance_eq]
  dsimp only
  rw [(turn.fetch_get failure).2.2]
  unfold readShare storedShare
  split
  · rfl
  · split
    · rfl
    · rfl
    · simp only [Json.dictOrEmpty, Json.asDict?, Option.getD_some]
      rw [Dict.get?_ofEntries_map Json.truthy,
        Dict.get?_ofEntries_of_nodup (Dict.nodup_keys_ofEntries _),
        Dict.get?_ofEntries_map (fun row : PreferenceRow => Json.bool row.shareAcrossAgents),
        Option.map_map]
      rfl

/-- `policy_for` under the governance of the turn. -/
theorem policyFor_governance (h : strip nameSpace ≠ "") :
    ∃ policy, (turn.governance failure).policyFor nameSpace = .ok policy
      ∧ policy.mode = turn.mode failure nameSpace
      ∧ policy.allowPublicAgents = turn.allowsPublic failure nameSpace := by
  unfold MemoryGovernance.policyFor
  rw [governance_policy]
  unfold mode allowsPublic
  cases turn.readPolicy failure nameSpace with
  | none => simp [MemoryNamespacePolicy.make, h]
  | some row => simp [MemoryNamespacePolicy.make, h, Except.toOption]

theorem policyFor_blank (h : strip nameSpace = "") :
    (turn.governance failure).policyFor nameSpace
      = .error "memory namespace is required" := by
  unfold MemoryGovernance.policyFor
  rw [governance_policy]
  cases turn.readPolicy failure nameSpace with
  | none => simp [MemoryNamespacePolicy.make, h]
  | some row => simp [MemoryNamespacePolicy.make, h, Except.toOption]

theorem admits_governance_iff (item : MemoryItem) :
    Admits (turn.governance failure) item
      ↔ strip item.nameSpace ≠ ""
        ∧ recallsUnder (turn.governance failure) (turn.mode failure item.nameSpace)
            (turn.allowsPublic failure item.nameSpace) item = true := by
  unfold Admits canRecall
  by_cases h : strip item.nameSpace = ""
  · rw [turn.policyFor_blank failure _ h]
    simp [h, bind, Except.bind]
  · obtain ⟨policy, hpolicy, hmode, hallow⟩ := turn.policyFor_governance failure _ h
    rw [hpolicy]
    simp [h, bind, Except.bind, pure, Except.pure, hmode, hallow]

/-! ## Which items a failure lets through -/

variable (item : MemoryItem)

/-- The failure loses what keeps the item from the agent. Either the stored
mode of its namespace is not read and the default mode would hand it out, or
its owner's choice not to share is not read and the item has no known source. -/
def LosesRestriction : Prop :=
  strip item.nameSpace ≠ ""
    ∧ ((policiesLost failure = true
          ∧ (∃ row, turn.storedPolicy item.nameSpace = some row
              ∧ row.mode ≠ defaultMode item.nameSpace)
          ∧ passesPublicCheck turn.visibility turn.agent false item = true
          ∧ if item.nameSpace = "preferences" then
              item.scope = "user_global"
                ∧ (ownItem turn.agent item = true ∨ legacySource item = true)
            else item.scope = "user_agent" ∧ agentOverlay turn.agent item = true)
        ∨ (preferencesLost failure = true
          ∧ turn.storedShare item.nameSpace = some false
          ∧ item.scope = "user_global"
          ∧ legacySource item = true ∧ ownItem turn.agent item = false
          ∧ turn.mode failure item.nameSpace = .userControlled
          ∧ passesPublicCheck turn.visibility turn.agent
              (turn.allowsPublic failure item.nameSpace) item = true))

theorem passesPublicCheck_mono {visibility : String} {agentId : Option String}
    {allowed : Bool} {item : MemoryItem}
    (h : passesPublicCheck visibility agentId false item = true) :
    passesPublicCheck visibility agentId allowed item = true := by
  unfold passesPublicCheck at h ⊢
  cases allowed <;> simp_all

/-- With both tables unread, the default mode and the legacy rule decide. -/
theorem keeps_restrictions_of_policiesLost {failure : Option LookupStage}
    (hpolicies : policiesLost failure = true) (hpreferences : preferencesLost failure = true)
    (turn : Turn) (item : MemoryItem) :
    (Admits (turn.governance failure) item → Admits (turn.governance none) item)
      ↔ ¬ turn.LosesRestriction failure item := by
  have hmode : turn.mode failure item.nameSpace = defaultMode item.nameSpace := by
    simp [mode, readPolicy, hpolicies]
  have hallow : turn.allowsPublic failure item.nameSpace = false := by
    simp [allowsPublic, readPolicy, hpolicies]
  have hshare : turn.readShare failure item.nameSpace = none := by
    simp [readShare, hpreferences]
  have hmono : passesPublicCheck turn.visibility turn.agent false item = true →
      passesPublicCheck turn.visibility turn.agent (turn.allowsPublic none item.nameSpace)
        item = true := passesPublicCheck_mono
  have hstored : turn.mode none item.nameSpace
      = ((turn.storedPolicy item.nameSpace).map PolicyRow.mode).getD
          (defaultMode item.nameSpace) := rfl
  have hstoredShare : turn.readShare none item.nameSpace
      = turn.storedShare item.nameSpace := rfl
  simp only [admits_governance_iff, recallsUnder_iff, governance_agentId,
    governance_agentVisibility, governance_shareEnabled, LosesRestriction, hmode, hallow,
    hshare, hpolicies, hpreferences, hstored, hstoredShare]
  rcases turn.storedShare item.nameSpace with _ | _ | _ <;>
    rcases turn.storedPolicy item.nameSpace with _ | row <;>
    by_cases hns : item.nameSpace = "preferences" <;>
    simp only [defaultMode, hns, if_true, if_false, Option.map_none, Option.getD_none,
      Option.map_some, Option.getD_some, Option.some.injEq, exists_eq_left', reduceCtorEq,
      false_and, exists_false, and_false, true_and, false_or, or_false] <;>
    try cases row.mode
  all_goals grind

/-- With the preferences unread only a choice not to share can be lost. -/
theorem keeps_restrictions_of_policiesRead {failure : Option LookupStage}
    (hpolicies : policiesLost failure = false) (turn : Turn) (item : MemoryItem) :
    (Admits (turn.governance failure) item → Admits (turn.governance none) item)
      ↔ ¬ turn.LosesRestriction failure item := by
  have hread : turn.readPolicy none item.nameSpace
      = turn.readPolicy failure item.nameSpace := by
    rw [readPolicy, readPolicy, hpolicies]
    rfl
  have hmode : turn.mode none item.nameSpace = turn.mode failure item.nameSpace := by
    rw [mode, hread, mode]
  have hallow : turn.allowsPublic none item.nameSpace
      = turn.allowsPublic failure item.nameSpace := by
    rw [allowsPublic, hread, allowsPublic]
  have hstoredShare : turn.readShare none item.nameSpace
      = turn.storedShare item.nameSpace := rfl
  simp only [admits_governance_iff, recallsUnder_iff, governance_agentId,
    governance_agentVisibility, governance_shareEnabled, LosesRestriction, hmode, hallow,
    hpolicies, hstoredShare]
  unfold readShare
  cases preferencesLost failure <;> cases turn.mode failure item.nameSpace <;>
    rcases turn.storedShare item.nameSpace with _ | _ | _ <;>
    simp only [if_true, if_false, reduceCtorEq, Bool.false_eq_true, false_and, true_and,
      and_false, false_or, or_false]
  all_goals grind

/-- A failed lookup widens the access to an item exactly when it loses what keeps the item from
the agent. Which of the two queries failed decides what is lost: the policies, with the
preferences, or the preferences alone. -/
theorem failed_lookup_keeps_restrictions_iff (turn : Turn) (failure : LookupStage)
    (item : MemoryItem) :
    (Admits (turn.governance (some failure)) item → Admits (turn.governance none) item)
      ↔ ¬ turn.LosesRestriction (some failure) item := by
  cases failure with
  | connect | tables | policies => exact keeps_restrictions_of_policiesLost rfl rfl turn item
  | preferences | close => exact keeps_restrictions_of_policiesRead rfl turn item

end Turn

/-- The tenant made `preferences` private to each agent. -/
def privatePreferences : Turn where
  tables :=
    { policies := some [⟨"default", "preferences", .agentPrivate, false⟩]
      preferences := some [] }
  env := none
  actorId := some "u1"
  agentVisibility := "private"
  context := [("agent", .obj [("id", .str "agent_b")])]
  agentId := none

/-- An item another agent's user left before sources were recorded. -/
def legacyPreference : MemoryItem where
  memoryId := "1"
  memoryType := "semantic"
  key := "language"
  content := "zh"

/-- The policy read fails, and the default mode hands the item out. -/
theorem failed_lookup_widens :
    Admits (privatePreferences.governance (some .policies)) legacyPreference
      ∧ ¬ Admits (privatePreferences.governance none) legacyPreference := by
  decide

end Aegora
