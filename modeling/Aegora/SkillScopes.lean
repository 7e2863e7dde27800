import Mathlib.Data.Fintype.EquivFin
import Aegora.EmbeddingRows
import Aegora.RuntimeContext
import Aegora.SkillTable

/-!
# Tool scopes and the Skills they open

The scope of `load_skill` decides which Skills are listed
(`skill_index_for_scope`) and which are loaded (`load_skill_by_name`). To
authorization a missing key allows nothing, and so the scope without it is the
smaller one; to these two filters it restricts nothing. A scope inside another
one therefore opens no more Skills exactly when it names a library and
restricts whatever the other one restricts (`scope_bounds_skills_iff`).
-/

namespace Aegora

open Py

/-! ## The filters -/

/-- The values that count of one key of a scope. -/
def skillScopeValues (scope : Dict) (key : String) : List String :=
  match Dict.get scope key with
  | .arr items => sortedSet (items.filterMap fun
      | .str text => if strip text ≠ "" then some text else none
      | _ => none)
  | _ => []

structure SkillScope where
  productIds : List String
  domains : List String
  libraryIds : List String
deriving DecidableEq

/-- `normalize_skill_scope`. -/
def normalizeSkillScope (scope : Dict) : SkillScope where
  productIds := skillScopeValues scope "product_ids"
  domains := skillScopeValues scope "domains"
  libraryIds := skillScopeValues scope "skill_library_ids"

/-- `column IS NULL OR column = ANY(values)`, where there are values. -/
def columnIn (values : List String) (column : Option String) : Bool :=
  values.isEmpty || column.all fun value => value ∈ values

/-- `metadata->>key`. -/
def metadataText (metadata : Json) (key : String) : Option String :=
  match Dict.get metadata.dictOrEmpty key with
  | .null => none
  | .str text => some text
  | other => some (jsonText other)

/-- `COALESCE(metadata->>'skill_library_id', metadata->>'library_id')`. -/
def SkillFields.library (fields : SkillFields) : Option String :=
  (metadataText fields.metadata "skill_library_id").or (metadataText fields.metadata "library_id")

/-- `skill_scope_where`. -/
def skillScopeWhere (values : SkillScope) (row : SkillRow) : Bool :=
  columnIn values.productIds row.fields.productId && columnIn values.domains row.fields.domain
    && row.fields.library.any fun library => library ∈ values.libraryIds

/-- `skills` and `skill_embeddings`; of a vector only its presence is read. -/
structure SkillStore where
  skills : SkillTable
  embeddings : List (EmbeddingRow Unit)

/-- The join with a completed embedding, of active Skills. -/
def SkillStore.retrievable (store : SkillStore) (row : SkillRow) : Bool :=
  row.fields.status = .str "active" && store.embeddings.any fun e =>
    e.ownerId = row.id && e.status = .completed && e.embedding.isSome

/-! ## `skill_index_for_scope` -/

/-- Its filter. -/
def indexAdmits (store : SkillStore) (scope : Dict) (row : SkillRow) : Bool :=
  let values := normalizeSkillScope scope
  !values.libraryIds.isEmpty && store.retrievable row && skillScopeWhere values row

/-- The Skills that it lists, before it orders and limits them. -/
def skillIndexForScope (enabled : Bool) (store : SkillStore) (scope : Dict) : List SkillRow :=
  if enabled then store.skills.rows.filter (indexAdmits store scope) else []

/-! ## `load_skill` -/

def commercialExplicitTerms : List String :=
  ["购买", "价格", "多少钱", "会员", "权益", "开通", "续费", "升级", "套餐", "优惠", "折扣"]

/-- `contains_any`. -/
def containsAny (lower : String → String) (text : String) (terms : List String) : Bool :=
  terms.any fun term => strip term ≠ "" && occursIn (lower (strip term)) (lower text)

/-- `contains_any(text, rules.get(key) or [])`. -/
def rulesContain (lower : String → String) (text : String) (rules : Dict) (key : String) :
    Except ContextError Bool := do
  let terms ← pyList ((Dict.get rules key).orElse (.arr []))
  return containsAny lower text (terms.map Json.pyStr)

/-- What the tool is called with, and what it reads of the state of the turn. -/
structure LoadSkillRequest where
  name : String
  query : String
  productId : String
  domainHint : Option String
  allowedNames : List String
  alreadyLoadedIds : List Nat

inductive SkillLoad where
  | refused (reason : String)
  | alreadyLoaded (row : SkillRow)
  | loaded (row : SkillRow)
deriving DecidableEq

/-- The Skill that was loaded, now or before. -/
def SkillLoad.skill? : SkillLoad → Option SkillRow
  | .refused _ => none
  | .alreadyLoaded row | .loaded row => some row

/-- `product_id IS NULL OR product_id = …`, and the two cases of the domain. -/
def hardGates (productId : String) (domainHint : Option String) (row : SkillRow) : Bool :=
  row.fields.productId.all (fun value => value = productId)
    && match domainHint with
      | none => row.fields.domain.isNone
      | some hint => row.fields.domain.all fun value => value = hint

/-- The query of `load_skill_by_name`; without a library the scope is left out. -/
def findSkill (store : SkillStore) (name productId : String) (domainHint : Option String)
    (scope : Dict) : Option SkillRow :=
  let values := normalizeSkillScope scope
  store.skills.rows.find? fun row =>
    row.fields.name = name && store.retrievable row && hardGates productId domainHint row
      && (values.libraryIds.isEmpty || skillScopeWhere values row)

/-- The gates of `load_skill_by_name` on the row it has found. -/
def loadFound (lower : String → String) (query : String) (alreadyLoadedIds : List Nat)
    (row : SkillRow) : Except ContextError SkillLoad := do
  let rules := row.fields.triggerRules.dictOrEmpty
  if ← rulesContain lower query rules "exclude_terms" then
    return .refused "excluded_by_term"
  if row.fields.skillType = .str "commercial" then
    let strongRelated ← rulesContain lower query rules "strong_related_terms"
    if !containsAny lower query commercialExplicitTerms && !strongRelated then
      return .refused "commercial_gate_not_matched"
  return if row.id ∈ alreadyLoadedIds then .alreadyLoaded row else .loaded row

/-- `load_skill_by_name`. -/
def loadSkillByName (lower : String → String) (store : SkillStore) (name query productId : String)
    (domainHint : Option String) (allowedNames : List String) (alreadyLoadedIds : List Nat)
    (scope : Dict) : Except ContextError SkillLoad :=
  if name ∉ allowedNames then .ok (.refused "skill_not_in_available_index")
  else match findSkill store name productId domainHint scope with
  | none => .ok (.refused "skill_unavailable_or_out_of_scope")
  | some row => loadFound lower query alreadyLoadedIds row

/-- `first_scope_value`. -/
def firstScopeValue (scope : Dict) (key : String) : Option String :=
  match Dict.get scope key with
  | .arr items => items.findSome? fun
      | .str text => if strip text ≠ "" then some text else none
      | _ => none
  | _ => none

/-- `load_skill`, under the scope of the current tool. -/
def loadSkill (lower : String → String) (store : SkillStore) (request : LoadSkillRequest)
    (scope : Dict) : Except ContextError SkillLoad :=
  loadSkillByName lower store (strip request.name) request.query
    ((firstScopeValue scope "product_ids").getD request.productId)
    ((firstScopeValue scope "domains").or request.domainHint) request.allowedNames
    request.alreadyLoadedIds scope

theorem skill_of_loadFound {lower : String → String} {query : String} {ids : List Nat}
    {row found : SkillRow} {load : SkillLoad} (h : loadFound lower query ids row = .ok load)
    (hfound : load.skill? = some found) : found = row := by
  have hlast : ∀ load : SkillLoad,
      load = (if row.id ∈ ids then .alreadyLoaded row else .loaded row) →
      load.skill? = some found → found = row := by
    rintro load rfl hfound
    split at hfound <;> cases hfound <;> rfl
  obtain ⟨excluded, -, h⟩ := bind_eq_ok.mp h
  cases excluded with
  | true =>
      cases h
      cases hfound
  | false =>
      simp only [Bool.false_eq_true, if_false] at h
      by_cases hcommercial : row.fields.skillType = .str "commercial"
      · rw [if_pos hcommercial] at h
        obtain ⟨strongRelated, -, h⟩ := bind_eq_ok.mp h
        by_cases hgate : (!containsAny lower query commercialExplicitTerms && !strongRelated) = true
        · rw [if_pos hgate] at h
          cases h
          cases hfound
        · rw [if_neg hgate] at h
          exact hlast load (Except.ok.inj h).symm hfound
      · rw [if_neg hcommercial] at h
        exact hlast load (Except.ok.inj h).symm hfound

/-- What a loaded Skill has passed. -/
theorem skill_of_loadSkill {lower : String → String} {store : SkillStore}
    {request : LoadSkillRequest} {scope : Dict} {load : SkillLoad} {row : SkillRow}
    (h : loadSkill lower store request scope = .ok load) (hrow : load.skill? = some row) :
    store.retrievable row = true
      ∧ ((normalizeSkillScope scope).libraryIds ≠ [] →
        skillScopeWhere (normalizeSkillScope scope) row = true) := by
  unfold loadSkill loadSkillByName at h
  split at h
  · cases h
    cases hrow
  · cases hfound : findSkill store (strip request.name)
        ((firstScopeValue scope "product_ids").getD request.productId)
        ((firstScopeValue scope "domains").or request.domainHint) scope with
    | none =>
        rw [hfound] at h
        cases h
        cases hrow
    | some found =>
        rw [hfound] at h
        cases skill_of_loadFound h hrow
        have hgates := List.find?_some hfound
        simp only [Bool.and_eq_true, Bool.or_eq_true, List.isEmpty_iff] at hgates
        obtain ⟨⟨⟨-, hretrievable⟩, -⟩, hscope⟩ := hgates
        exact ⟨hretrievable, fun hlibraries => hscope.resolve_left hlibraries⟩

/-! ## Scope inclusion -/

/-- The smaller scope names a library and restricts what the larger one restricts. -/
structure RestrictsAlike (s t : SkillScope) : Prop where
  library : s.libraryIds ≠ []
  products : t.productIds ≠ [] → s.productIds ≠ []
  domains : t.domains ≠ [] → s.domains ≠ []

instance (s t : SkillScope) : Decidable (RestrictsAlike s t) :=
  decidable_of_iff (s.libraryIds ≠ [] ∧ (t.productIds ≠ [] → s.productIds ≠ [])
      ∧ (t.domains ≠ [] → s.domains ≠ []))
    ⟨fun ⟨h, h', h''⟩ => ⟨h, h', h''⟩, fun ⟨h, h', h''⟩ => ⟨h, h', h''⟩⟩

/-- What is listed or loaded under `s` is inside the filter of `t`, whatever the table and the
request. -/
def BoundsSkills (lower : String → String) (s t : Dict) : Prop :=
  ∀ (enabled : Bool) (store : SkillStore) (request : LoadSkillRequest),
    (∀ row ∈ skillIndexForScope enabled store s, row ∈ skillIndexForScope enabled store t)
      ∧ ∀ load row, loadSkill lower store request s = .ok load → load.skill? = some row →
        indexAdmits store t row = true

section Inclusion

variable {s t : Dict} {ns nt : Scope}

/-- The values that count are those of the normalized scope that are not blank. -/
theorem mem_skillScopeValues (h : normalizeScope (.obj s) = .ok ns) (key value : String) :
    value ∈ skillScopeValues s key ↔ value ∈ ns.values key ∧ strip value ≠ "" := by
  induction s generalizing ns with
  | nil =>
      cases h
      simp [skillScopeValues, Scope.values, Dict.get]
  | cons kv rest ih =>
      obtain ⟨values, tail, hraw, htail, rfl⟩ := normalizeScope_cons h
      obtain ⟨l, raw⟩ := kv
      subst hraw
      unfold skillScopeValues Scope.values Dict.get at ih ⊢
      rw [Dict.get?_cons, Dict.get?_cons]
      by_cases hkey : key = l
      · simp only [hkey, if_true, Option.getD_some, mem_sortedSet, List.mem_filterMap,
          List.mem_map]
        constructor
        · rintro ⟨_, ⟨text, htext, rfl⟩, heq⟩
          dsimp only at heq
          split at heq
          · rename_i hblank
            cases heq
            exact ⟨htext, hblank⟩
          · cases heq
        · rintro ⟨hvalue, hblank⟩
          exact ⟨.str value, ⟨value, hvalue, rfl⟩, if_pos hblank⟩
      · simp only [if_neg hkey]
        exact ih htail

/-- Inclusion of scopes is inclusion of the values that count, key by key. -/
theorem skillScopeValues_subset (hs : normalizeScope (.obj s) = .ok ns)
    (ht : normalizeScope (.obj t) = .ok nt) (h : ScopeWithin ns nt) {key value : String}
    (hvalue : value ∈ skillScopeValues s key) : value ∈ skillScopeValues t key := by
  obtain ⟨hmem, hblank⟩ := (mem_skillScopeValues hs key value).mp hvalue
  refine (mem_skillScopeValues ht key value).mpr ⟨?_, hblank⟩
  unfold Scope.values at hmem
  cases hfound : Dict.get? ns key with
  | none =>
      rw [hfound] at hmem
      cases hmem
  | some values =>
      rw [hfound] at hmem
      exact h (key, values) (Dict.mem_of_get? hfound) value hmem

theorem columnIn_mono {values others : List String} {column : Option String}
    (hsub : ∀ value ∈ values, value ∈ others) (hrestricts : others ≠ [] → values ≠ [])
    (h : columnIn values column = true) : columnIn others column = true := by
  unfold columnIn at h ⊢
  rw [Bool.or_eq_true, List.isEmpty_iff] at h ⊢
  by_cases hothers : others = []
  · exact Or.inl hothers
  · right
    rcases h with hvalues | h
    · exact absurd hvalues (hrestricts hothers)
    · cases column with
      | none => rfl
      | some value =>
          simp only [Option.all_some, decide_eq_true_eq] at h ⊢
          exact hsub value h

theorem skillScopeWhere_mono (hs : normalizeScope (.obj s) = .ok ns)
    (ht : normalizeScope (.obj t) = .ok nt) (hsub : ScopeWithin ns nt)
    (halike : RestrictsAlike (normalizeSkillScope s) (normalizeSkillScope t)) {row : SkillRow}
    (h : skillScopeWhere (normalizeSkillScope s) row = true) :
    skillScopeWhere (normalizeSkillScope t) row = true := by
  have hvalues : ∀ key, ∀ value ∈ skillScopeValues s key, value ∈ skillScopeValues t key :=
    fun key value hvalue => skillScopeValues_subset hs ht hsub hvalue
  unfold skillScopeWhere at h ⊢
  rw [Bool.and_eq_true, Bool.and_eq_true] at h ⊢
  obtain ⟨⟨hproduct, hdomain⟩, hlibrary⟩ := h
  refine ⟨⟨columnIn_mono (hvalues "product_ids") halike.products hproduct,
    columnIn_mono (hvalues "domains") halike.domains hdomain⟩, ?_⟩
  cases hcolumn : row.fields.library with
  | none =>
      rw [hcolumn] at hlibrary
      cases hlibrary
  | some library =>
      rw [hcolumn] at hlibrary
      simp only [Option.any_some, decide_eq_true_eq] at hlibrary ⊢
      exact hvalues "skill_library_ids" library hlibrary

theorem library_of_alike (hs : normalizeScope (.obj s) = .ok ns)
    (ht : normalizeScope (.obj t) = .ok nt) (hsub : ScopeWithin ns nt)
    (halike : RestrictsAlike (normalizeSkillScope s) (normalizeSkillScope t)) :
    (normalizeSkillScope t).libraryIds ≠ [] := by
  obtain ⟨library, hlibrary⟩ := List.exists_mem_of_ne_nil _ halike.library
  exact List.ne_nil_of_mem (skillScopeValues_subset hs ht hsub hlibrary)

theorem boundsSkills_of_alike (lower : String → String) (hs : normalizeScope (.obj s) = .ok ns)
    (ht : normalizeScope (.obj t) = .ok nt) (hsub : ScopeWithin ns nt)
    (halike : RestrictsAlike (normalizeSkillScope s) (normalizeSkillScope t)) :
    BoundsSkills lower s t := by
  have hadmits : ∀ (store : SkillStore) (row : SkillRow), store.retrievable row = true →
      skillScopeWhere (normalizeSkillScope s) row = true → indexAdmits store t row = true := by
    intro store row hretrievable hwhere
    unfold indexAdmits
    have hlibrary := library_of_alike hs ht hsub halike
    simp [hlibrary, hretrievable, skillScopeWhere_mono hs ht hsub halike hwhere]
  intro enabled store request
  constructor
  · intro row hrow
    cases enabled with
    | false => cases hrow
    | true =>
        obtain ⟨hmem, hadmitted⟩ := List.mem_filter.mp hrow
        refine List.mem_filter.mpr ⟨hmem, ?_⟩
        unfold indexAdmits at hadmitted
        simp only [Bool.and_eq_true] at hadmitted
        exact hadmits store row hadmitted.1.2 hadmitted.2
  · intro load row hload hrow
    obtain ⟨hretrievable, hwhere⟩ := skill_of_loadSkill hload hrow
    exact hadmits store row hretrievable (hwhere halike.library)

/-! ### Skills that get past -/

/-- An active Skill of one product, domain and library. -/
def openSkill (product domain library : Option String) : SkillRow where
  id := 1
  version := 1
  contentHash := ""
  fields :=
    { name := "s", title := "s", description := "s", content := "s", productId := product,
      domain := domain, skillType := .str "guidance", source := .str "manual",
      status := .str "active", priority := 0, triggerRules := .obj [],
      metadata := .obj (library.elim [] fun text => [("skill_library_id", .str text)]) }

/-- The database that holds this Skill. -/
def openStore (row : SkillRow) : SkillStore where
  skills :=
    { rows := [row]
      nextId := row.id + 1
      names := List.nodup_singleton _
      ids := List.nodup_singleton _
      below := fun other hother => by
        rw [List.mem_singleton.mp hother]
        exact Nat.lt_succ_self _ }
  embeddings := [⟨row.id, some (), "m", "", 1, .completed, 0, none⟩]

theorem openSkill_retrievable (product domain library : Option String) :
    (openStore (openSkill product domain library)).retrievable (openSkill product domain library)
      = true := rfl

theorem openSkill_library (product domain library : Option String) :
    (openSkill product domain library).fields.library = library := by
  cases library <;> rfl

/-- It is listed under the scopes that its columns are in. -/
theorem mem_skillIndex_openSkill {scope : Dict} {product domain library : Option String} :
    openSkill product domain library ∈ skillIndexForScope true
        (openStore (openSkill product domain library)) scope
      ↔ columnIn (normalizeSkillScope scope).productIds product = true
        ∧ columnIn (normalizeSkillScope scope).domains domain = true
        ∧ ∃ name, library = some name ∧ name ∈ (normalizeSkillScope scope).libraryIds := by
  unfold skillIndexForScope
  rw [if_pos rfl, List.mem_filter]
  unfold indexAdmits skillScopeWhere
  dsimp only
  rw [openSkill_retrievable, openSkill_library]
  have hmem : openSkill product domain library
      ∈ (openStore (openSkill product domain library)).skills.rows := List.mem_singleton_self _
  have hproduct : (openSkill product domain library).fields.productId = product := rfl
  have hdomain : (openSkill product domain library).fields.domain = domain := rfl
  rw [hproduct, hdomain]
  cases library with
  | none => simp [hmem]
  | some name =>
      simp only [hmem, Bool.and_true, Bool.and_eq_true, Bool.not_eq_true',
        List.isEmpty_eq_false_iff, Option.any_some, decide_eq_true_eq, true_and,
        Option.some.injEq, exists_eq_left']
      constructor
      · rintro ⟨-, ⟨hproduct, hdomain⟩, hname⟩
        exact ⟨hproduct, hdomain, hname⟩
      · rintro ⟨hproduct, hdomain, hname⟩
        exact ⟨List.ne_nil_of_mem hname, ⟨hproduct, hdomain⟩, hname⟩

/-- A text that a list does not have. -/
theorem exists_other_value (values : List String) : ∃ value, value ∉ values := by
  obtain ⟨value, hvalue⟩ := Infinite.exists_notMem_finset values.toFinset
  exact ⟨value, fun hmem => hvalue (List.mem_toFinset.mpr hmem)⟩

/-- A Skill without product and domain passes the gates of any request. -/
theorem load_openSkill {lower : String → String} {scope : Dict} (library : Option String)
    (h : (normalizeSkillScope scope).libraryIds = []) :
    loadSkill lower (openStore (openSkill none none library)) ⟨"s", "", "", none, ["s"], []⟩ scope
      = .ok (.loaded (openSkill none none library)) := by
  have hgates : ∀ productId domainHint,
      hardGates productId domainHint (openSkill none none library) = true := by
    intro productId domainHint
    cases domainHint <;> rfl
  have hfind : ∀ productId domainHint,
      findSkill (openStore (openSkill none none library)) "s" productId domainHint scope
        = some (openSkill none none library) := by
    intro productId domainHint
    unfold findSkill
    refine List.find?_cons_of_pos ?_
    rw [openSkill_retrievable, hgates, h]
    rfl
  have hname : strip "s" = "s" := by decide
  unfold loadSkill loadSkillByName
  rw [if_neg (by simp [hname]), hname, hfind]
  rfl

/-- A Skill of another product or domain is listed when the smaller scope leaves that open. -/
theorem alike_of_boundsSkills {lower : String → String} (h : BoundsSkills lower s t) :
    RestrictsAlike (normalizeSkillScope s) (normalizeSkillScope t) := by
  have hlibrary : (normalizeSkillScope s).libraryIds ≠ [] := by
    intro hempty
    have hadmitted := (h true _ _).2 _ _ (load_openSkill none hempty) rfl
    unfold indexAdmits skillScopeWhere at hadmitted
    simp [openSkill_library] at hadmitted
  obtain ⟨library, hmem⟩ := List.exists_mem_of_ne_nil _ hlibrary
  have hindex : ∀ product domain : Option String,
      columnIn (normalizeSkillScope s).productIds product = true →
      columnIn (normalizeSkillScope s).domains domain = true →
      columnIn (normalizeSkillScope t).productIds product = true
        ∧ columnIn (normalizeSkillScope t).domains domain = true := by
    intro product domain hproduct hdomain
    have hlisted := mem_skillIndex_openSkill.mpr ⟨hproduct, hdomain, library, rfl, hmem⟩
    have hother := (h true _ ⟨"", "", "", none, [], []⟩).1 _ hlisted
    obtain ⟨hproduct, hdomain, -⟩ := mem_skillIndex_openSkill.mp hother
    exact ⟨hproduct, hdomain⟩
  have hnone : ∀ values : List String, columnIn values none = true := by
    intro values
    simp [columnIn]
  have hopen : ∀ column : Option String, columnIn [] column = true := fun _ => rfl
  have hclosed : ∀ (values : List String) (value : String), values ≠ [] → value ∉ values →
      columnIn values (some value) ≠ true := by
    intro values value hvalues hvalue
    simp [columnIn, hvalues, hvalue]
  refine ⟨hlibrary, fun hproducts hempty => ?_, fun hdomains hempty => ?_⟩
  · obtain ⟨product, hproduct⟩ := exists_other_value (normalizeSkillScope t).productIds
    refine hclosed _ _ hproducts hproduct (hindex (some product) none ?_ (hnone _)).1
    rw [hempty]
    exact hopen _
  · obtain ⟨domain, hdomain⟩ := exists_other_value (normalizeSkillScope t).domains
    refine hclosed _ _ hdomains hdomain (hindex none (some domain) (hnone _) ?_).2
    rw [hempty]
    exact hopen _

end Inclusion

/-! ## The scopes of one tool -/

/-- For scopes one inside the other, those that `validate_tool_scope` accepts among them: whatever
the Skills and the request, the smaller opens no Skill that the larger does not, exactly when it
restricts what the larger restricts. -/
theorem scope_bounds_skills_iff (lower : String → String) (s t : Dict)
    (hsub : scopeIsSubset (.obj s) (.obj t) = .ok true) :
    BoundsSkills lower s t
      ↔ RestrictsAlike (normalizeSkillScope s) (normalizeSkillScope t) := by
  obtain ⟨ns, hs, hsub⟩ := bind_eq_ok.mp hsub
  obtain ⟨nt, ht, hsub⟩ := bind_eq_ok.mp hsub
  have hwithin : ScopeWithin ns nt := of_decide_eq_true (Except.ok.inj hsub)
  exact ⟨alike_of_boundsSkills, boundsSkills_of_alike lower hs ht hwithin⟩

/-- The schema of `runtime.load_skill`. -/
def loadSkillSchema : Scope :=
  [("actions", ["read"]), ("product_ids", ["aicoin"]), ("domains", ["customer_support"]),
    ("skill_library_ids", ["aicoin_customer_support"])]

/-- All that the schema has. -/
def fullSkillScope : Dict :=
  [("actions", .arr [.str "read"]), ("product_ids", .arr [.str "aicoin"]),
    ("domains", .arr [.str "customer_support"]),
    ("skill_library_ids", .arr [.str "aicoin_customer_support"])]

/-- Less of it: the library alone. -/
def librarySkillScope : Dict :=
  [("skill_library_ids", .arr [.str "aicoin_customer_support"])]

/-- The library, with the product and the domain that the full scope restricts it to. -/
def readSkillScope : Dict := fullSkillScope.tail

theorem scope_bounds_skills_read :
    validateToolScope "runtime.load_skill" (.obj readSkillScope) (some loadSkillSchema)
        = .ok loadSkillSchema.tail
      ∧ (BoundsSkills id readSkillScope fullSkillScope
        ↔ RestrictsAlike (normalizeSkillScope readSkillScope)
          (normalizeSkillScope fullSkillScope)) :=
  ⟨by decide, scope_bounds_skills_iff id readSkillScope fullSkillScope (by decide)⟩

/-- The library alone is inside the full scope, and lists a Skill of another product. -/
theorem smaller_scope_opens_more :
    validateToolScope "runtime.load_skill" (.obj librarySkillScope) (some loadSkillSchema)
      = .ok [("skill_library_ids", ["aicoin_customer_support"])]
    ∧ validateToolScope "runtime.load_skill" (.obj fullSkillScope) (some loadSkillSchema)
      = .ok loadSkillSchema
    ∧ scopeIsSubset (.obj librarySkillScope) (.obj fullSkillScope) = .ok true
    ∧ ¬ BoundsSkills id librarySkillScope fullSkillScope := by
  refine ⟨by decide, by decide, by decide, fun h => ?_⟩
  let row := openSkill (some "other") none (some "aicoin_customer_support")
  have hlisted : row ∈ skillIndexForScope true (openStore row) librarySkillScope := by decide
  have hother := (h true (openStore row) ⟨"", "", "", none, [], []⟩).1 row hlisted
  exact absurd hother (by decide)

end Aegora
