import Aegora.SkillHashes
import Aegora.SkillScopes

/-!
# Skills that are listed and Skills that load

`skill_index_for_scope` tells the model which Skills there are under a scope,
`load_skill` loads one of them by its name. The list takes all products and
domains of the scope, the loader the first of each (or what the request says,
where the scope names none), and without a library the list is empty while the
loader leaves the scope out.

`skills_agree_iff` says for which scopes the two agree whatever the table.
-/

namespace Aegora

open Py

/-! ## What the writers store -/

/-- A text column that is not null. -/
def StoredText (value : String) : Prop := strip value = value ∧ value ≠ ""

structure SkillFields.Stored (fields : SkillFields) : Prop where
  name : strip fields.name = fields.name
  product : ∀ value, fields.productId = some value → StoredText value
  domain : ∀ value, fields.domain = some value → StoredText value

def SkillTable.Stored (t : SkillTable) : Prop := ∀ row ∈ t.rows, row.fields.Stored

section Stored

variable {env : SkillEnv} {t t' : SkillTable} {fields : SkillFields}

theorem nonEmptyText_stored {raw value : String} (h : nonEmptyText (strip raw) = some value) :
    StoredText value := by
  unfold nonEmptyText at h
  split at h
  · cases h
  · rename_i hne
    cases h
    exact ⟨strip_strip raw, hne⟩

theorem stored_upsert (ht : t.Stored) (hfields : fields.Stored) (hash : String) :
    (t.upsert fields hash).Stored := by
  intro row hrow
  unfold SkillTable.upsert at hrow
  split at hrow
  · obtain ⟨old, hold, rfl⟩ := List.mem_map.mp hrow
    unfold SkillTable.updated
    split
    · exact hfields
    · exact ht old hold
  · rcases List.mem_append.mp hrow with hold | hnew
    · exact ht row hold
    · rw [List.mem_singleton.mp hnew]
      exact hfields

theorem stored_upsertAll {hash : SkillFields → String} {rows : List SkillFields}
    (ht : t.Stored) (hrows : ∀ fields ∈ rows, fields.Stored) :
    (rows.foldl (fun t fields => t.upsert fields (hash fields)) t).Stored := by
  induction rows generalizing t with
  | nil => exact ht
  | cons fields rows ih =>
      exact ih (stored_upsert ht (hrows fields List.mem_cons_self) _)
        fun other hother => hrows other (List.mem_cons_of_mem _ hother)

theorem normalizedSkill_stored {row : Dict} (h : normalizedSkill row = .ok fields) :
    fields.Stored := by
  unfold normalizedSkill at h
  obtain ⟨name, hname, h⟩ := bind_eq_ok.mp h
  obtain ⟨title, -, h⟩ := bind_eq_ok.mp h
  obtain ⟨description, -, h⟩ := bind_eq_ok.mp h
  obtain ⟨content, -, h⟩ := bind_eq_ok.mp h
  obtain ⟨priority, -, h⟩ := bind_eq_ok.mp h
  cases h
  have hclean : ∀ (raw : Json) (value : String), cleanValue raw = some value →
      StoredText value := by
    intro raw value hvalue
    unfold cleanValue at hvalue
    split at hvalue
    · cases hvalue
    · exact nonEmptyText_stored hvalue
  refine ⟨?_, hclean _, hclean _⟩
  unfold stripField at hname
  split at hname
  · cases hname
    exact strip_strip _
  · cases hname
  · cases hname

theorem normalizeStrapiSkill_stored {row : Dict} (h : normalizeStrapiSkill row = .ok fields) :
    fields.Stored := by
  have hfrom := normalizeStrapiSkill_eq_ok h
  have hcolumn : ∀ (raw : Json) (value : String),
      nonEmptyText (strippedText raw) = some value → StoredText value := by
    intro raw value hvalue
    unfold strippedText at hvalue
    exact nonEmptyText_stored hvalue
  constructor
  · have hname := hfrom.name
    unfold textField at hname
    split at hname
    · rw [← Except.ok.inj hname]
      exact strip_strip _
    · cases hname
  · intro value hvalue
    exact hcolumn _ value (hfrom.productId.symm.trans hvalue)
  · intro value hvalue
    exact hcolumn _ value (hfrom.domain.symm.trans hvalue)

/-- All writers store such columns. -/
theorem importSkillRows_stored {rows : List Dict} (ht : t.Stored)
    (h : importSkillRows env t rows = .ok t') : t'.Stored := by
  obtain ⟨normalized, hnormalized, h⟩ := bind_eq_ok.mp h
  cases h
  refine stored_upsertAll ht fun fields hfields => ?_
  obtain ⟨row, -, hrow⟩ := mem_of_mapM_eq_ok hnormalized hfields
  exact normalizedSkill_stored hrow

theorem syncSkillRows_stored {memories : ProceduralTable} {rows : List Dict} (ht : t.Stored)
    (h : syncSkillRows env memories t rows = .ok t') : t'.Stored := by
  obtain ⟨normalized, hnormalized, h⟩ := bind_eq_ok.mp h
  obtain ⟨errors, -, h⟩ := bind_eq_ok.mp h
  split at h
  · cases h
  · split at h
    · cases h
    · cases h
      refine stored_upsertAll ht fun fields hfields => ?_
      obtain ⟨row, -, hrow⟩ := mem_of_mapM_eq_ok hnormalized hfields
      exact normalizeStrapiSkill_stored hrow

theorem updateStatus_stored {id : Nat} {action : StatusAction} {reviewer : Option String}
    {now : Json} (ht : t.Stored) (h : updateStatus env t id action reviewer now = .ok t') :
    t'.Stored := by
  unfold updateStatus at h
  split at h
  · cases h
  · obtain ⟨errors, -, h⟩ := bind_eq_ok.mp h
    split at h
    · cases h
    · cases h
      intro row hrow
      obtain ⟨old, hold, rfl⟩ := List.mem_map.mp hrow
      have hstored := ht old hold
      unfold statusRow
      split
      · exact { hstored with }
      · exact hstored

end Stored

/-! ## Agreement -/

/-- The query hits no exclude term, and for a commercial Skill it names a commercial term. -/
structure PassesGates (lower : String → String) (query : String) (row : SkillRow) : Prop where
  notExcluded : rulesContain lower query row.fields.triggerRules.dictOrEmpty "exclude_terms"
    = .ok false
  commercial : row.fields.skillType = .str "commercial" → ∃ strongRelated,
    rulesContain lower query row.fields.triggerRules.dictOrEmpty "strong_related_terms"
      = .ok strongRelated
    ∧ (containsAny lower query commercialExplicitTerms || strongRelated) = true

/-- Under the scope, whatever the Skills: what is listed loads by its name, and what loads is
something the list admits. -/
structure SkillsAgree (lower : String → String) (scope : Dict) : Prop where
  listed : ∀ (enabled : Bool) (store : SkillStore) (row : SkillRow), store.skills.Stored →
    row ∈ skillIndexForScope enabled store scope →
    ∀ request : LoadSkillRequest, request.name = row.fields.name →
      row.fields.name ∈ request.allowedNames → PassesGates lower request.query row →
      ∃ load, loadSkill lower store request scope = .ok load ∧ load.skill? = some row
  loaded : ∀ (store : SkillStore) (request : LoadSkillRequest) (load : SkillLoad) (row : SkillRow),
    store.skills.Stored → loadSkill lower store request scope = .ok load →
      load.skill? = some row → indexAdmits store scope row = true

/-- The first value that the scope has under the key is the only one that a column can hold. -/
def FirstIsAll (scope : Dict) (key : String) : Prop :=
  ∃ first, firstScopeValue scope key = some first
    ∧ ∀ value ∈ skillScopeValues scope key, strip value = value → value = first

section Agree

variable {lower : String → String} {scope : Dict} {store : SkillStore} {row : SkillRow}

theorem loadFound_passes {query : String} (ids : List Nat) (h : PassesGates lower query row) :
    ∃ load, loadFound lower query ids row = .ok load ∧ load.skill? = some row := by
  have hlast : ∃ load, (.ok (if row.id ∈ ids then SkillLoad.alreadyLoaded row else .loaded row) :
      Except ContextError SkillLoad) = .ok load ∧ load.skill? = some row := by
    refine ⟨_, rfl, ?_⟩
    split <;> rfl
  unfold loadFound
  dsimp only
  rw [h.notExcluded]
  simp only [bind, Except.bind, pure, Except.pure, Bool.false_eq_true, if_false]
  by_cases hcommercial : row.fields.skillType = .str "commercial"
  · obtain ⟨strongRelated, hstrong, hgate⟩ := h.commercial hcommercial
    rw [if_pos hcommercial, hstrong]
    dsimp only
    rw [if_neg]
    · exact hlast
    · rw [Bool.and_eq_true, Bool.not_eq_true', Bool.not_eq_true']
      rintro ⟨hexplicit, hrelated⟩
      rw [hexplicit, hrelated] at hgate
      cases hgate
  · rw [if_neg hcommercial]
    exact hlast

theorem findSkill_of_unique {productId : String} {domainHint : Option String}
    (hrow : row ∈ store.skills.rows) (hretrievable : store.retrievable row = true)
    (hgates : hardGates productId domainHint row = true)
    (hscope : skillScopeWhere (normalizeSkillScope scope) row = true) :
    findSkill store row.fields.name productId domainHint scope = some row := by
  unfold findSkill
  dsimp only
  cases hfound : store.skills.rows.find? _ with
  | none =>
      have hmiss := List.find?_eq_none.mp hfound row hrow
      simp [hretrievable, hgates, hscope] at hmiss
  | some found =>
      have hname := List.find?_some hfound
      simp only [Bool.and_eq_true, decide_eq_true_eq] at hname
      exact congrArg some (List.inj_on_of_nodup_map store.skills.names
        (List.mem_of_find?_eq_some hfound) hrow hname.1.1.1)

/-- The first value of a key is one of its values. -/
theorem first_mem {key first : String} (h : firstScopeValue scope key = some first) :
    first ∈ skillScopeValues scope key := by
  unfold firstScopeValue at h
  unfold skillScopeValues
  split at h
  · rw [mem_sortedSet, List.mem_filterMap]
    obtain ⟨item, hitem, hfirst⟩ := List.exists_of_findSome?_eq_some h
    exact ⟨item, hitem, hfirst⟩
  · cases h

theorem first_none {key : String} (h : firstScopeValue scope key = none) :
    skillScopeValues scope key = [] := by
  unfold firstScopeValue at h
  unfold skillScopeValues
  split at h
  · rw [List.filterMap_eq_nil_iff.mpr (List.findSome?_eq_none_iff.mp h)]
    rfl
  · rfl

/-- A stored column in the values of a scope whose first value is all is the first value. -/
theorem column_first {key first : String} {column : Option String}
    (hfirst : firstScopeValue scope key = some first)
    (hall : ∀ value ∈ skillScopeValues scope key, strip value = value → value = first)
    (hstored : ∀ value, column = some value → StoredText value)
    (hin : columnIn (skillScopeValues scope key) column = true) :
    (column.all fun value => value = first) = true := by
  unfold columnIn at hin
  have hvalues : (skillScopeValues scope key).isEmpty = false := by
    rw [List.isEmpty_eq_false_iff]
    exact List.ne_nil_of_mem (first_mem hfirst)
  rw [hvalues, Bool.false_or] at hin
  cases column with
  | none => rfl
  | some value =>
      rw [Option.all_some, decide_eq_true_eq] at hin ⊢
      exact hall value hin (hstored value rfl).1

theorem listed_loads (hproduct : FirstIsAll scope "product_ids")
    (hdomain : FirstIsAll scope "domains") {enabled : Bool} (hstored : store.skills.Stored)
    (hlisted : row ∈ skillIndexForScope enabled store scope) {request : LoadSkillRequest}
    (hname : request.name = row.fields.name) (hallowed : row.fields.name ∈ request.allowedNames)
    (hgates : PassesGates lower request.query row) :
    ∃ load, loadSkill lower store request scope = .ok load ∧ load.skill? = some row := by
  cases enabled with
  | false => cases hlisted
  | true =>
      obtain ⟨hrow, hadmits⟩ := List.mem_filter.mp hlisted
      unfold indexAdmits at hadmits
      simp only [Bool.and_eq_true] at hadmits
      obtain ⟨⟨-, hretrievable⟩, hscope⟩ := hadmits
      have hfields := hstored row hrow
      obtain ⟨product, hproduct, hproducts⟩ := hproduct
      obtain ⟨domain, hdomain, hdomains⟩ := hdomain
      have hcolumns := hscope
      unfold skillScopeWhere at hcolumns
      simp only [Bool.and_eq_true] at hcolumns
      have hhard : hardGates product (some domain) row = true := by
        unfold hardGates
        rw [Bool.and_eq_true]
        exact ⟨column_first hproduct hproducts hfields.product hcolumns.1.1,
          column_first hdomain hdomains hfields.domain hcolumns.1.2⟩
      unfold loadSkill loadSkillByName
      rw [hname, hfields.name, if_neg (not_not.mpr hallowed), hproduct, hdomain,
        Option.getD_some, Option.some_or, findSkill_of_unique hrow hretrievable hhard hscope]
      exact loadFound_passes request.alreadyLoadedIds hgates

theorem loaded_admitted (hlibrary : (normalizeSkillScope scope).libraryIds ≠ [])
    {request : LoadSkillRequest} {load : SkillLoad}
    (hload : loadSkill lower store request scope = .ok load) (hrow : load.skill? = some row) :
    indexAdmits store scope row = true := by
  obtain ⟨hretrievable, hwhere⟩ := skill_of_loadSkill hload hrow
  unfold indexAdmits
  simp [hlibrary, hretrievable, hwhere hlibrary]

end Agree

/-! ## Skills on which they differ -/

section Differ

variable {lower : String → String} {scope : Dict}

theorem strip_s : strip "s" = "s" := by decide

theorem openSkill_stored {product domain library : Option String}
    (hproduct : ∀ value, product = some value → StoredText value)
    (hdomain : ∀ value, domain = some value → StoredText value) :
    (openStore (openSkill product domain library)).skills.Stored := by
  intro row hrow
  rw [List.mem_singleton.mp hrow]
  exact ⟨strip_s, hproduct, hdomain⟩

theorem openSkill_passes (product domain library : Option String) (query : String) :
    PassesGates lower query (openSkill product domain library) :=
  ⟨rfl, fun h => absurd (Json.str.inj h) (by decide)⟩

/-- A listed Skill that loads has passed the gates of the first values. -/
theorem gates_of_agree (h : SkillsAgree lower scope) (product domain library : Option String)
    (hstored : (openStore (openSkill product domain library)).skills.Stored)
    (hlisted : openSkill product domain library ∈ skillIndexForScope true
      (openStore (openSkill product domain library)) scope)
    (productId : String) (domainHint : Option String) :
    hardGates ((firstScopeValue scope "product_ids").getD productId)
      ((firstScopeValue scope "domains").or domainHint) (openSkill product domain library)
      = true := by
  obtain ⟨load, hload, hskill⟩ := h.listed true _ _ hstored hlisted
    ⟨"s", "", productId, domainHint, ["s"], []⟩ rfl (List.mem_singleton_self _)
    (openSkill_passes product domain library "")
  unfold loadSkill loadSkillByName at hload
  rw [strip_s, if_neg (not_not.mpr (List.mem_singleton_self _))] at hload
  split at hload
  · cases hload
    cases hskill
  · rename_i found hfound
    cases skill_of_loadFound hload hskill
    have hpassed := List.find?_some hfound
    simp only [Bool.and_eq_true] at hpassed
    exact hpassed.1.2

theorem nonblank_of_mem {key value : String} (h : value ∈ skillScopeValues scope key) :
    strip value ≠ "" := by
  unfold skillScopeValues at h
  split at h
  · rw [mem_sortedSet, List.mem_filterMap] at h
    obtain ⟨item, -, hvalue⟩ := h
    split at hvalue
    · rename_i text
      split at hvalue
      · rename_i hblank
        cases hvalue
        exact hblank
      · cases hvalue
    · cases hvalue
  · cases h

theorem storedText_of_mem {key value : String} (h : value ∈ skillScopeValues scope key)
    (hstripped : strip value = value) : ∀ other, some value = some other → StoredText other := by
  rintro other ⟨⟩
  exact ⟨hstripped, fun hempty => nonblank_of_mem h (hstripped.trans hempty)⟩

theorem library_of_agree (h : SkillsAgree lower scope) :
    (normalizeSkillScope scope).libraryIds ≠ [] := by
  intro hempty
  have hadmitted := h.loaded _ _ _ _ (openSkill_stored (fun _ => by rintro ⟨⟩)
    (fun _ => by rintro ⟨⟩)) (load_openSkill none hempty) rfl
  unfold indexAdmits skillScopeWhere at hadmitted
  simp [openSkill_library] at hadmitted

theorem columnIn_none (values : List String) : columnIn values none = true := by
  simp [columnIn]

theorem columnIn_of_mem {values : List String} {value : String} (h : value ∈ values) :
    columnIn values (some value) = true := by
  simp [columnIn, h]

/-- A Skill of another product than the first is listed and does not load. -/
theorem product_of_agree (h : SkillsAgree lower scope) : FirstIsAll scope "product_ids" := by
  obtain ⟨library, hlibrary⟩ := List.exists_mem_of_ne_nil _ (library_of_agree h)
  have hproduct : ∀ product, StoredText product →
      columnIn (skillScopeValues scope "product_ids") (some product) = true →
      ∀ productId, product = (firstScopeValue scope "product_ids").getD productId := by
    intro product hstored hin productId
    have hgates := gates_of_agree h (some product) none (some library) (openSkill_stored
      (fun value => by rintro ⟨⟩; exact hstored) (fun _ => by rintro ⟨⟩))
      (mem_skillIndex_openSkill.mpr ⟨hin, columnIn_none _, library, rfl, hlibrary⟩) productId none
    unfold hardGates at hgates
    rw [Bool.and_eq_true] at hgates
    exact of_decide_eq_true hgates.1
  cases hfirst : firstScopeValue scope "product_ids" with
  | none =>
      rw [hfirst, first_none hfirst] at hproduct
      exact absurd (hproduct "y" ⟨by decide, by decide⟩ rfl "x") (by decide)
  | some first =>
      refine ⟨first, hfirst, fun value hvalue hstripped => ?_⟩
      rw [hfirst] at hproduct
      exact hproduct value (storedText_of_mem hvalue hstripped value rfl)
        (columnIn_of_mem hvalue) ""

theorem domain_of_agree (h : SkillsAgree lower scope) : FirstIsAll scope "domains" := by
  obtain ⟨library, hlibrary⟩ := List.exists_mem_of_ne_nil _ (library_of_agree h)
  have hdomain : ∀ domain, StoredText domain →
      columnIn (skillScopeValues scope "domains") (some domain) = true →
      some domain = firstScopeValue scope "domains" := by
    intro domain hstored hin
    have hgates := gates_of_agree h none (some domain) (some library) (openSkill_stored
      (fun _ => by rintro ⟨⟩) (fun value => by rintro ⟨⟩; exact hstored))
      (mem_skillIndex_openSkill.mpr ⟨columnIn_none _, hin, library, rfl, hlibrary⟩) "" none
    unfold hardGates at hgates
    rw [Bool.and_eq_true, Option.or_none] at hgates
    cases hfirst : firstScopeValue scope "domains" with
    | none =>
        rw [hfirst] at hgates
        exact absurd hgates.2 Bool.false_ne_true
    | some first =>
        rw [hfirst] at hgates
        exact congrArg some (of_decide_eq_true hgates.2)
  cases hfirst : firstScopeValue scope "domains" with
  | none =>
      rw [hfirst, first_none hfirst] at hdomain
      cases hdomain "y" ⟨by decide, by decide⟩ rfl
  | some first =>
      refine ⟨first, hfirst, fun value hvalue hstripped => ?_⟩
      rw [hfirst] at hdomain
      exact Option.some.inj (hdomain value (storedText_of_mem hvalue hstripped value rfl)
        (columnIn_of_mem hvalue))

end Differ

/-- The list and the loader agree for all tables and requests exactly under the scopes that
name a library and have no other product and domain than the first. The two are compared as
predicates on a row of the table. -/
theorem skills_agree_iff (lower : String → String) (scope : Dict) :
    SkillsAgree lower scope
      ↔ (normalizeSkillScope scope).libraryIds ≠ [] ∧ FirstIsAll scope "product_ids"
        ∧ FirstIsAll scope "domains" := by
  constructor
  · intro h
    exact ⟨library_of_agree h, product_of_agree h, domain_of_agree h⟩
  · rintro ⟨hlibrary, hproduct, hdomain⟩
    constructor
    · intro enabled store row hstored hlisted request hname hallowed hgates
      exact listed_loads hproduct hdomain hstored hlisted hname hallowed hgates
    · intro store request load row _ hload hrow
      exact loaded_admitted hlibrary hload hrow

/-- The scope of two products. -/
def twoProducts : Dict :=
  [("product_ids", .arr [.str "aicoin", .str "other"]), ("domains", .arr [.str "customer_support"]),
    ("skill_library_ids", .arr [.str "aicoin_customer_support"])]

/-- A Skill of the second product is listed and does not load; without a library a Skill loads
that is not listed. -/
theorem second_product_unloadable :
    ¬ (∀ (lower : String → String) (scope : Dict), SkillsAgree lower scope)
      ∧ (∃ row, row ∈ skillIndexForScope true (openStore row) twoProducts
        ∧ loadSkill id (openStore row) ⟨"s", "", "aicoin", none, ["s"], []⟩ twoProducts
          = .ok (.refused "skill_unavailable_or_out_of_scope"))
      ∧ ∃ row, indexAdmits (openStore row) [] row = false
        ∧ loadSkill id (openStore row) ⟨"s", "", "aicoin", none, ["s"], []⟩ []
          = .ok (.loaded row) := by
  refine ⟨fun h => ?_, ⟨openSkill (some "other") none (some "aicoin_customer_support"), by decide,
    by decide⟩, ⟨openSkill none none none, by decide, by decide⟩⟩
  obtain ⟨first, hfirst, hall⟩ := product_of_agree (h id twoProducts)
  have haicoin : firstScopeValue twoProducts "product_ids" = some "aicoin" := by decide
  rw [haicoin] at hfirst
  obtain rfl := Option.some.inj hfirst
  exact absurd (hall "other" (by decide) (by decide)) (by decide)

end Aegora
