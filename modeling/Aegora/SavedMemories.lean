import Aegora.MemoryProtection

/-!
# Who recalls what a turn has saved

A save and a recall of one turn take the agent from the same runtime context by
different ways. `save_user_memory` reads `agent.id` alone, as it stands; the
governance that `load_configured_context` recalls under strips it, and falls
back to `release.agent_id`. The source of a saved row is the agent of the save,
unless the value was there already: then the row stays as it is, and with it
the source of whoever wrote it first.

A saved row is recalled by the agent of the turn, and by others only as shared,
exactly when its source is that agent or the row is shared with a source that
names no agent.
-/

namespace Aegora

open Py

/-! ## The law -/

/-- The governance that `load_configured_context` recalls under. -/
def recallGovernance (context : Dict) : MemoryGovernance :=
  governanceFromRuntimeContext context none

/-- An agent that did not write an item may have it: the item is global to the
user under a policy that leaves it to the user, who shares it or whose row is
older than the recording of sources; a public agent also needs the policy's
permission. -/
def SharedWith (governance : MemoryGovernance) (item : MemoryItem) : Prop :=
  item.scope = "user_global"
    ∧ ∃ policy, governance.policyFor item.nameSpace = .ok policy
      ∧ policy.mode = .userControlled
      ∧ (governance.shareEnabled item.nameSpace = some true ∨ legacySource item = true)
      ∧ (governance.agentVisibility = "public" → policy.allowPublicAgents = true)

/-- The agent of the context recalls the item; another agent does only where
it is shared. -/
structure RecallLaw (context : Dict) (item : MemoryItem) : Prop where
  own : Admits (recallGovernance context) item
  others : ∀ other, (recallGovernance other).agentId ≠ none →
    (recallGovernance other).agentId ≠ (recallGovernance context).agentId →
    Admits (recallGovernance other) item → SharedWith (recallGovernance other) item

/-! ## The row that a save repeats -/

/-- The active row that already says what the save would. -/
def savedBefore (request : SaveRequest) (key value : String) (t : MemoryTables) :
    Option MemoryRow :=
  match saveTarget request key value with
  | .ok (.inl (scope, memory)) =>
      (t.current (scope.identity memory.key)).filter fun row => sameMemory memory row
  | _ => none

/-- The source the save leaves: that of the row it repeats, else its agent. -/
def savedSource (request : SaveRequest) (key value : String) (t : MemoryTables) :
    Option String :=
  match savedBefore request key value t with
  | some row => nonEmpty row.sourceAgentId
  | none => nonEmpty (requestAgentId request)

/-- A save by `writer` that leaves `source` stays with the agent of the
governance. -/
def StaysWithAgent (governance : MemoryGovernance) (policy : MemoryNamespacePolicy)
    (writer source : Option String) : Prop :=
  (governance.agentVisibility = "public" →
      policy.allowPublicAgents = true ∨ source = governance.agentId)
    ∧ match policy.mode with
      | .tenantRequired => False
      | .agentPrivate => writer = governance.agentId
      | .userControlled =>
          (source ≠ none ∧ source = governance.agentId)
            ∨ (governance.shareEnabled "preferences" = some true
              ∧ ∀ id, source = some id → strip id ≠ id)
            ∨ (governance.shareEnabled "preferences" = none ∧ source = none)

/-! ## Readers -/

theorem strippedOr_eq_some {value : Json} {text : String} (h : strippedOr value = some text) :
    strip text = text ∧ text ≠ "" := by
  unfold strippedOr at h
  dsimp only at h
  split at h
  · cases h
  · rename_i hblank
    obtain rfl := Option.some.inj h
    exact ⟨strip_strip _, hblank⟩

/-- The agent of a recall is a stripped text. -/
theorem recallGovernance_agentId {context : Dict} {id : String}
    (h : (recallGovernance context).agentId = some id) : strip id = id ∧ id ≠ "" := by
  unfold recallGovernance governanceFromRuntimeContext at h
  simp only [resolvedAgentId] at h
  rcases Option.or_eq_some_iff.mp h with hagent | ⟨-, hrelease⟩
  · exact strippedOr_eq_some hagent
  · exact strippedOr_eq_some hrelease

/-- A context without stored governance, for an agent of some visibility. -/
def agentContext (id visibility : String) : Dict :=
  [("agent", .obj [("id", .str id), ("visibility", .str visibility)])]

theorem recallGovernance_agentContext {id visibility : String} (hid : id ≠ "")
    (hstrip : strip id = id) (hvisibility : visibility ≠ "") :
    recallGovernance (agentContext id visibility)
      = { agentId := some id, agentVisibility := visibility } := by
  simp [recallGovernance, governanceFromRuntimeContext, agentContext, Dict.get, Dict.get?_cons,
    Json.dictOrEmpty, Json.asDict?, resolvedAgentId, strippedOr, effectiveVisibility,
    Json.orElse, Json.pyStr, Dict.ofEntries, Dict.merge, hid, hstrip, hvisibility]

/-! ## What a save writes -/

section Saves

variable {request : SaveRequest} {key value : String} {scope : MemoryScope}
  {memory : MemoryWrite} {t : MemoryTables}

/-- The agent that a save names has no part in its policies. -/
theorem policyFor_recallGovernance (context : Dict) (agentId : Option String)
    (nameSpace : String) :
    (recallGovernance context).policyFor nameSpace
      = (governanceFromRuntimeContext context agentId).policyFor nameSpace := by
  simp only [MemoryGovernance.policyFor, recallGovernance, governanceFromRuntimeContext]

/-- The scope of a save under the policy that the recall reads, too. -/
theorem saveTarget_scope (h : saveTarget request key value = .ok (.inl (scope, memory))) :
    ∃ policy, (recallGovernance request.runtimeContext).policyFor "preferences" = .ok policy
      ∧ policy.mode ≠ .tenantRequired
      ∧ scope.memoryScope = (if policy.mode = .agentPrivate then .userAgent else .userGlobal)
      ∧ scope.nameSpace = "preferences" ∧ scope.agentId = requestAgentId request
      ∧ memory.sourceAgentId = requestAgentId request := by
  unfold saveTarget at h
  split at h
  · cases h
  · obtain ⟨policy, hpolicy, h⟩ := bind_eq_ok.mp h
    refine ⟨policy, (policyFor_recallGovernance _ _ _).trans hpolicy, ?_⟩
    split at h
    · cases h
    · rename_i hmode
      obtain ⟨memoryScope, hscope, h⟩ := bind_eq_ok.mp h
      obtain ⟨target, htarget, h⟩ := bind_eq_ok.mp h
      obtain ⟨written, hwritten, h⟩ := bind_eq_ok.mp h
      cases h
      have hkind : ScopeKind.parse memoryScope
          = some (if policy.mode = .agentPrivate then .userAgent else .userGlobal) := by
        unfold writeScopeFor at hscope
        rw [hpolicy] at hscope
        obtain rfl := Except.ok.inj hscope
        cases hcase : policy.mode with
        | tenantRequired => exact absurd hcase hmode
        | userControlled => decide
        | agentPrivate => decide
      obtain ⟨-, -, hagent, hspace, hparsed⟩ := MemoryScope.make_spec htarget
      exact ⟨hmode, Option.some.inj (hparsed.symm.trans hkind), hspace, hagent,
        (MemoryWrite.make_spec hwritten).2.2⟩

theorem savedBefore_eq (h : saveTarget request key value = .ok (.inl (scope, memory))) :
    savedBefore request key value t
      = (t.current (scope.identity memory.key)).filter fun row => sameMemory memory row := by
  unfold savedBefore
  rw [h]

theorem nonEmpty_nonEmpty_or (text : Option String) :
    nonEmpty ((nonEmpty text).or text) = nonEmpty text := by
  cases text with
  | none => rfl
  | some text => by_cases htext : text = "" <;> simp [nonEmpty, htext]

/-- The source of the row that `remember` returns. -/
theorem remember_source (h : saveTarget request key value = .ok (.inl (scope, memory)))
    (env : FloatEnv) (now : Time) :
    nonEmpty (remember env scope memory now t).2.sourceAgentId
      = savedSource request key value t := by
  obtain ⟨-, -, -, -, -, hagent, hsource⟩ := saveTarget_scope h
  unfold savedSource
  rw [savedBefore_eq h]
  rcases remember_cases env scope memory now t with ⟨row, hrow, hsame, heq⟩ | ⟨hnew, heq⟩
  · rw [heq, hrow, Option.filter_some, if_pos hsame]
  · have hnone : (t.current (scope.identity memory.key)).filter
        (fun row => sameMemory memory row) = none := by
      rw [Option.filter_eq_none_iff]
      exact fun row hrow hsame => hnew ⟨row, hrow, hsame⟩
    rw [hnone, heq]
    change nonEmpty ((nonEmpty memory.sourceAgentId).or scope.agentId) = _
    rw [hagent, hsource, nonEmpty_nonEmpty_or]

/-- What a recall reads of a saved item. -/
structure SavedItem (policy : MemoryNamespacePolicy) (writer source : Option String)
    (item : MemoryItem) : Prop where
  nameSpace : item.nameSpace = "preferences"
  sourceAgent : item.sourceAgentId = source
  scope : item.scope = if policy.mode = .agentPrivate then "user_agent" else "user_global"
  named : source ≠ some ""
  overlay : policy.mode = .agentPrivate → ∃ id, id ≠ "" ∧ writer = some id
    ∧ Dict.get item.metadata "agent_id" = .str id

theorem rowToItem_agent (env : FloatEnv) {row : MemoryRow} {id : String}
    (h : row.agentId = some id) : Dict.get (rowToItem env row).metadata "agent_id" = .str id := by
  unfold rowToItem
  rw [h]
  simp [Dict.get, Dict.get?_cons]

theorem savedItem_of_saveTarget
    (h : saveTarget request key value = .ok (.inl (scope, memory))) (env : FloatEnv) (now : Time) :
    ∃ policy, (recallGovernance request.runtimeContext).policyFor "preferences" = .ok policy
      ∧ policy.mode ≠ .tenantRequired
      ∧ SavedItem policy (requestAgentId request) (savedSource request key value t)
        (rowToItem env (remember env scope memory now t).2) := by
  obtain ⟨policy, hpolicy, hmode, hkind, hspace, hagent, -⟩ := saveTarget_scope h
  refine ⟨policy, hpolicy, hmode, ?_, remember_source h env now, ?_, ?_, ?_⟩
  all_goals
    have hidentity : (remember env scope memory now t).2.identity = scope.identity memory.key :=
      remember_row.2.2.1
  · have hrow : (remember env scope memory now t).2.nameSpace = scope.nameSpace :=
      congrArg MemoryIdentity.nameSpace hidentity
    change textOr (remember env scope memory now t).2.nameSpace "preferences" = "preferences"
    rw [hrow, hspace]
    decide
  · have hrow : (remember env scope memory now t).2.scope = scope.memoryScope :=
      congrArg MemoryIdentity.scope hidentity
    unfold rowToItem
    rw [hrow, hkind]
    split <;> rfl
  · rw [← remember_source h env now]
    exact nonEmpty_ne_blank _
  · intro hprivate
    rw [if_pos hprivate] at hkind
    have hrow : (remember env scope memory now t).2.agentId.getD "" = scope.rowAgent.getD "" :=
      congrArg MemoryIdentity.agentId hidentity
    obtain ⟨id, hid, hnonempty⟩ := (Option.any_eq_true _ _).mp (scope.agent hkind)
    rw [decide_eq_true_eq] at hnonempty
    rw [MemoryScope.rowAgent, if_pos hkind, hid, Option.getD_some] at hrow
    refine ⟨id, hnonempty, hagent ▸ hid, rowToItem_agent env ?_⟩
    cases hcolumn : (remember env scope memory now t).2.agentId with
    | none =>
        rw [hcolumn] at hrow
        exact absurd hrow.symm hnonempty
    | some column =>
        rw [hcolumn] at hrow
        exact congrArg some hrow

end Saves

/-! ## The law on a saved item -/

section Law

variable {context : Dict} {policy : MemoryNamespacePolicy} {writer source : Option String}
  {item : MemoryItem}

theorem passesPublicCheck_iff {agentVisibility : String} {agentId : Option String}
    {allowPublicAgents : Bool} :
    passesPublicCheck agentVisibility agentId allowPublicAgents item = true
      ↔ (agentVisibility = "public" →
          allowPublicAgents = true ∨ item.sourceAgentId = agentId) := by
  unfold passesPublicCheck
  by_cases hpublic : agentVisibility = "public" <;> simp [hpublic]

theorem agentOverlay_iff {agentId : Option String} {id : String} (hid : id ≠ "")
    (h : Dict.get item.metadata "agent_id" = .str id) :
    agentOverlay agentId item = true ↔ some id = agentId := by
  unfold agentOverlay
  rw [h]
  constructor
  · simp [Json.orElse, hid, Json.pyStr]
  · rintro rfl
    simp [Json.orElse, hid, Json.pyStr]

theorem ownItem_iff {agentId : Option String} (h : item.sourceAgentId ≠ some "") :
    ownItem agentId item = true
      ↔ item.sourceAgentId ≠ none ∧ item.sourceAgentId = agentId := by
  unfold ownItem
  cases hsource : item.sourceAgentId with
  | none => simp
  | some id =>
      have hid : id ≠ "" := fun hblank => h (by rw [hsource, hblank])
      simp [hid]

/-- A saved item whose source is a stripped name goes to a public agent of that
name, whatever its policies say. -/
theorem admits_named_source {id : String} (hitem : SavedItem policy writer (some id) item)
    (hscope : item.scope = "user_global") (hstrip : strip id = id) :
    Admits (recallGovernance (agentContext id "public")) item
      ∧ ¬ SharedWith (recallGovernance (agentContext id "public")) item := by
  have hid : id ≠ "" := fun hblank => hitem.named (by rw [hblank])
  have hgovernance := recallGovernance_agentContext hid hstrip (by decide : "public" ≠ "")
  have hdefault : (recallGovernance (agentContext id "public")).policyFor item.nameSpace
      = .ok ⟨"preferences", .userControlled, false, by decide⟩ := by
    rw [hgovernance, hitem.nameSpace]
    rfl
  constructor
  · rw [admits_iff hdefault, recallsUnder_iff, passesPublicCheck_iff, hgovernance,
      hitem.sourceAgent]
    refine ⟨fun _ => Or.inr rfl, hscope, Or.inl ?_⟩
    rw [ownItem_iff (by rw [hitem.sourceAgent]; exact hitem.named), hitem.sourceAgent]
    exact ⟨nofun, rfl⟩
  · rintro ⟨-, found, hfound, -, -, hallow⟩
    obtain rfl := Except.ok.inj (hdefault.symm.trans hfound)
    exact absurd (hallow (by rw [hgovernance])) (by decide)

/-- The source that stays with an agent names no other. -/
theorem StaysWithAgent.source_ne {governance : MemoryGovernance}
    (h : StaysWithAgent governance policy writer source) (hmode : policy.mode = .userControlled)
    {other : Dict} (hnamed : (recallGovernance other).agentId ≠ none)
    (hother : (recallGovernance other).agentId ≠ governance.agentId) :
    source ≠ (recallGovernance other).agentId := by
  intro hsource
  obtain ⟨-, h⟩ := h
  rw [hmode] at h
  rcases h with ⟨-, hown⟩ | ⟨-, hunnamed⟩ | ⟨-, hnone⟩
  · exact hother (hsource.symm.trans hown)
  · obtain ⟨id, hid⟩ := Option.ne_none_iff_exists'.mp hnamed
    exact hunnamed id (hsource.trans hid) (recallGovernance_agentId hid).1
  · exact hnamed (hsource.symm.trans hnone)

theorem recallLaw_of_stays
    (hpolicy : (recallGovernance context).policyFor "preferences" = .ok policy)
    (hitem : SavedItem policy writer source item)
    (h : StaysWithAgent (recallGovernance context) policy writer source) :
    RecallLaw context item := by
  have hnamed : item.sourceAgentId ≠ some "" := by
    rw [hitem.sourceAgent]
    exact hitem.named
  constructor
  · rw [← hitem.nameSpace] at hpolicy
    rw [admits_iff hpolicy, recallsUnder_iff, passesPublicCheck_iff, hitem.sourceAgent]
    refine ⟨h.1, ?_⟩
    obtain ⟨-, h⟩ := h
    have hscope := hitem.scope
    cases hmode : policy.mode with
    | tenantRequired =>
        rw [hmode] at h
        exact h.elim
    | agentPrivate =>
        rw [hmode] at h
        rw [if_pos hmode] at hscope
        obtain ⟨id, hid, hwriter, hoverlay⟩ := hitem.overlay hmode
        exact ⟨hscope, (agentOverlay_iff hid hoverlay).mpr (hwriter.symm.trans h)⟩
    | userControlled =>
        rw [hmode] at h
        rw [hmode, if_neg nofun] at hscope
        refine ⟨hscope, ?_⟩
        rw [ownItem_iff hnamed, hitem.sourceAgent, hitem.nameSpace, legacySource,
          hitem.sourceAgent]
        rcases h with hown | ⟨hshare, -⟩ | ⟨hshare, hnone⟩
        · exact Or.inl hown
        · exact Or.inr (Or.inl hshare)
        · exact Or.inr (Or.inr ⟨hshare, by simp [hnone]⟩)
  · intro other hagent hother hadmits
    obtain ⟨found, hfound⟩ := policyFor_total (recallGovernance other)
      (by rw [hitem.nameSpace]; decide : strip item.nameSpace ≠ "")
    rw [admits_iff hfound, recallsUnder_iff, passesPublicCheck_iff] at hadmits
    obtain ⟨hpublic, hadmits⟩ := hadmits
    have hscope := hitem.scope
    cases hmode : found.mode with
    | tenantRequired =>
        rw [hmode] at hadmits
        rw [hadmits] at hscope
        split at hscope <;> exact absurd hscope (by decide)
    | agentPrivate =>
        rw [hmode] at hadmits
        obtain ⟨hagentScope, hoverlay⟩ := hadmits
        by_cases hprivate : policy.mode = .agentPrivate
        · obtain ⟨id, hid, hwriter, hmetadata⟩ := hitem.overlay hprivate
          have hown := h.2
          rw [hprivate] at hown
          have hread := (agentOverlay_iff hid hmetadata).mp hoverlay
          exact absurd (hread.symm.trans (hwriter.symm.trans hown)) hother
        · rw [if_neg hprivate, hagentScope] at hscope
          exact absurd hscope (by decide)
    | userControlled =>
        rw [hmode] at hadmits
        obtain ⟨hglobal, hadmits⟩ := hadmits
        have howner : policy.mode = .userControlled := by
          cases hcase : policy.mode with
          | tenantRequired => exact (by simpa [hcase] using h.2 : False).elim
          | agentPrivate =>
              rw [if_pos hcase, hglobal] at hscope
              exact absurd hscope (by decide)
          | userControlled => rfl
        have hstranger : item.sourceAgentId ≠ (recallGovernance other).agentId := by
          rw [hitem.sourceAgent]
          exact h.source_ne howner hagent hother
        refine ⟨hglobal, found, hfound, hmode, ?_, fun hvisible => ?_⟩
        · rcases hadmits with hown | hshare | ⟨-, hlegacy⟩
          · exact absurd ((ownItem_iff hnamed).mp hown).2 hstranger
          · exact Or.inl hshare
          · exact Or.inr hlegacy
        · exact (hpublic hvisible).resolve_right hstranger

/-- A source that names a reader has to be this one, since that reader gets the item. -/
theorem stays_of_recallLaw
    (hpolicy : (recallGovernance context).policyFor "preferences" = .ok policy)
    (hmode : policy.mode ≠ .tenantRequired) (hitem : SavedItem policy writer source item)
    (h : RecallLaw context item) :
    StaysWithAgent (recallGovernance context) policy writer source := by
  have hnamed : item.sourceAgentId ≠ some "" := by
    rw [hitem.sourceAgent]
    exact hitem.named
  have hown := h.own
  rw [← hitem.nameSpace] at hpolicy
  rw [admits_iff hpolicy, recallsUnder_iff, passesPublicCheck_iff, hitem.sourceAgent] at hown
  refine ⟨hown.1, ?_⟩
  replace hown := hown.2
  cases hcase : policy.mode with
  | tenantRequired => exact absurd hcase hmode
  | agentPrivate =>
      rw [hcase] at hown
      obtain ⟨id, hid, hwriter, hmetadata⟩ := hitem.overlay hcase
      exact hwriter.trans ((agentOverlay_iff hid hmetadata).mp hown.2)
  | userControlled =>
      rw [hcase] at hown
      obtain ⟨hglobal, hown⟩ := hown
      rw [ownItem_iff hnamed, hitem.sourceAgent, hitem.nameSpace] at hown
      have hreader : ∀ id, source = some id → strip id = id →
          source = (recallGovernance context).agentId := by
        rintro id rfl hstrip
        by_contra hother
        obtain ⟨hadmits, hunshared⟩ := admits_named_source hitem hglobal hstrip
        have hagent : (recallGovernance (agentContext id "public")).agentId = some id := by
          rw [recallGovernance_agentContext (fun hblank => hitem.named (by rw [hblank])) hstrip
            (by decide)]
        exact hunshared (h.others (agentContext id "public") (by rw [hagent]; exact nofun)
          (by rw [hagent]; exact hother) hadmits)
      by_cases hsource : source ≠ none ∧ source = (recallGovernance context).agentId
      · exact Or.inl hsource
      · have hunnamed : ∀ id, source = some id → strip id ≠ id := fun id hid hstrip =>
          hsource ⟨by rw [hid]; exact nofun, hreader id hid hstrip⟩
        rcases hown with hown | hshare | ⟨hshare, hlegacy⟩
        · exact absurd hown hsource
        · exact Or.inr (Or.inl ⟨hshare, hunnamed⟩)
        · refine Or.inr (Or.inr ⟨hshare, ?_⟩)
          rw [legacySource, hitem.sourceAgent, decide_eq_true_eq] at hlegacy
          cases source with
          | none => rfl
          | some id =>
              have hid : id = "" ∨ id = "legacy" := by simpa using hlegacy
              rcases hid with rfl | rfl
              · exact absurd rfl hitem.named
              · exact absurd (by decide) (hunnamed "legacy" rfl)

end Law

/-! ## Saves and recalls of one turn -/

/-- What a save that reports success has done. -/
theorem saveUserMemory_saved {service : MemoryService} {request : SaveRequest}
    {key value : String} {outcome : CallOutcome} {now : Time} {t t' : MemoryTables}
    {result : MemoryWriteResult}
    (h : saveUserMemory service request key value outcome now t = .ok (t', result))
    (hsaved : result.saved = true) :
    ∃ scope memory, saveTarget request key value = .ok (.inl (scope, memory))
      ∧ t' = (remember service.floats scope memory now t).1
      ∧ result.item = some (rowToItem service.floats (remember service.floats scope memory now t).2)
      := by
  unfold saveUserMemory at h
  obtain ⟨target, htarget, h⟩ := bind_eq_ok.mp h
  cases target with
  | inr reason =>
      obtain ⟨-, rfl⟩ := Prod.mk.inj (Except.ok.inj h)
      cases hsaved
  | inl target =>
      obtain ⟨scope, memory⟩ := target
      refine ⟨scope, memory, htarget, ?_⟩
      have hwritten : service.remember outcome scope memory now t = (t', result) :=
        Except.ok.inj h
      unfold MemoryService.remember at hwritten
      split at hwritten
      · obtain ⟨-, rfl⟩ := Prod.mk.inj hwritten
        cases hsaved
      · cases outcome with
        | done =>
            obtain ⟨rfl, rfl⟩ := Prod.mk.inj hwritten
            exact ⟨rfl, rfl⟩
        | rolledBack | unacknowledged =>
            obtain ⟨-, rfl⟩ := Prod.mk.inj hwritten
            cases hsaved

theorem remember_mem (env : FloatEnv) (scope : MemoryScope) (memory : MemoryWrite) (now : Time)
    (t : MemoryTables) :
    (remember env scope memory now t).2 ∈ (remember env scope memory now t).1.rows := by
  rcases remember_cases env scope memory now t with ⟨row, hrow, -, heq⟩ | ⟨-, heq⟩
  · rw [heq]
    exact (current_spec hrow).1
  · rw [heq]
    exact List.mem_append_right _ List.mem_cons_self

/-- The item of a save that reports success obeys the law exactly when the source it is left
with stays with the agent of the recall. A value that was there keeps its old source, so the
condition is about the row after the save. -/
theorem saved_item_recall_iff (service : MemoryService) (request : SaveRequest)
    (key value : String) (outcome : CallOutcome) (now : Time) (t : MemoryTables)
    {t' : MemoryTables} {result : MemoryWriteResult}
    (h : saveUserMemory service request key value outcome now t = .ok (t', result))
    (hsaved : result.saved = true) :
    ∃ row ∈ t'.rows, row.active = true
      ∧ result.item = some (rowToItem service.floats row)
      ∧ ∃ policy, (recallGovernance request.runtimeContext).policyFor "preferences" = .ok policy
        ∧ (RecallLaw request.runtimeContext (rowToItem service.floats row)
          ↔ StaysWithAgent (recallGovernance request.runtimeContext) policy
            (requestAgentId request) (savedSource request key value t)) := by
  obtain ⟨scope, memory, htarget, rfl, hitem⟩ := saveUserMemory_saved h hsaved
  obtain ⟨policy, hpolicy, hmode, hrow⟩ :=
    savedItem_of_saveTarget (t := t) htarget service.floats now
  exact ⟨_, remember_mem service.floats scope memory now t, remember_row.2.2.2, hitem, policy,
    hpolicy, stays_of_recallLaw hpolicy hmode hrow, recallLaw_of_stays hpolicy hrow⟩

/-- A turn of some agent with the user `u1`. -/
def turnRequest (context : Dict) : SaveRequest where
  sessionId := some "s1"
  userId := some "u1"
  traceId := none
  runtimeContext := context

theorem saved_item_recall_publicAgent :
    ∃ t' result item,
      saveUserMemory plainService (turnRequest (agentContext "a1" "public")) "city" "Lyon" .done 1
        {} = .ok (t', result)
      ∧ result.item = some item ∧ RecallLaw (agentContext "a1" "public") item := by
  obtain ⟨row, -, -, hitem, policy, hpolicy, hiff⟩ := saved_item_recall_iff plainService
    (turnRequest (agentContext "a1" "public")) "city" "Lyon" .done 1 {} rfl rfl
  refine ⟨_, _, _, rfl, hitem, hiff.mpr ?_⟩
  have hgovernance : recallGovernance (agentContext "a1" "public")
      = { agentId := some "a1", agentVisibility := "public" } :=
    recallGovernance_agentContext (by decide) (by decide) (by decide)
  change (recallGovernance (agentContext "a1" "public")).policyFor "preferences" = .ok policy
    at hpolicy
  rw [hgovernance] at hpolicy
  obtain rfl : policy = ⟨"preferences", .userControlled, false, by decide⟩ :=
    (Except.ok.inj hpolicy).symm
  have hsource : savedSource (turnRequest (agentContext "a1" "public")) "city" "Lyon" {}
      = some "a1" := by decide +kernel
  change StaysWithAgent (recallGovernance (agentContext "a1" "public")) _ _ _
  rw [hgovernance, hsource]
  exact ⟨fun _ => Or.inr rfl, Or.inl ⟨nofun, rfl⟩⟩

/-- The agent is named by the release alone. -/
def releaseContext (visibility : String) (share : Bool) : Dict :=
  [("release", .obj [("agent_id", .str "a1"), ("visibility", .str visibility)]),
   ("memory_governance", .obj [("user_preferences", .obj [("preferences", .bool share)])])]

/-- The agent of the context does not recall what its turn has saved. -/
def losesSaved (context : Dict) (t : MemoryTables) : Bool :=
  match saveUserMemory plainService (turnRequest context) "city" "Lyon" .done 1 t with
  | .ok (_, ⟨true, some item, _⟩) => !decide (Admits (recallGovernance context) item)
  | _ => false

theorem not_recalled_of_losesSaved {context : Dict} {t : MemoryTables}
    (h : losesSaved context t = true) :
    ∃ t' result item,
      saveUserMemory plainService (turnRequest context) "city" "Lyon" .done 1 t
        = .ok (t', result)
      ∧ result.saved = true ∧ result.item = some item ∧ ¬ RecallLaw context item := by
  unfold losesSaved at h
  split at h
  · rename_i item reason heq
    rw [Bool.not_eq_true', decide_eq_false_iff_not] at h
    exact ⟨_, _, item, heq, rfl, rfl, fun hlaw => h hlaw.own⟩
  · cases h

/-- The private agent `a2` with a user who shares nothing. -/
def unsharedContext : Dict :=
  ("memory_governance", .obj [("user_preferences", .obj [("preferences", .bool false)])])
    :: agentContext "a2" "private"

/-- `a1` has saved the city before. -/
def cityOfOther : MemoryTables where
  rows := [{ backfilledRow 0 "u1" "city" "Lyon" 1 with
    sourceAgentId := some "a1", sourceKind := .explicit }]
  nextId := 2

/-- The source is lost where only the release names the agent, for a public
agent and for a user who does not share; a value that another agent has saved
keeps that agent. -/
theorem saved_item_not_recalled :
    (∃ t' result item,
        saveUserMemory plainService (turnRequest (releaseContext "public" true)) "city" "Lyon"
          .done 1 {} = .ok (t', result)
        ∧ result.saved = true ∧ result.item = some item
        ∧ ¬ RecallLaw (releaseContext "public" true) item)
      ∧ (∃ t' result item,
        saveUserMemory plainService (turnRequest (releaseContext "private" false)) "city" "Lyon"
          .done 1 {} = .ok (t', result)
        ∧ result.saved = true ∧ result.item = some item
        ∧ ¬ RecallLaw (releaseContext "private" false) item)
      ∧ ∃ t' result item,
        saveUserMemory plainService (turnRequest unsharedContext) "city" "Lyon" .done 1
          cityOfOther = .ok (t', result)
        ∧ result.saved = true ∧ result.item = some item ∧ ¬ RecallLaw unsharedContext item :=
  ⟨not_recalled_of_losesSaved (by decide +kernel), not_recalled_of_losesSaved (by decide +kernel),
    not_recalled_of_losesSaved (by decide +kernel)⟩

end Aegora
