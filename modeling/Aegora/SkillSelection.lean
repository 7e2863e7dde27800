import Mathlib.Data.Prod.Lex
import Mathlib.Data.Rat.Floor
import Aegora.OrderedQuery
import Aegora.SkillScopes

/-!
# The two ways a Skill is delivered

`select_skills` judges the candidates of a vector search, one gate after the other,
and injects the best of those that pass; `load_skill_by_name` leaves some gates to
its query and checks the rest on the row it has found. Both hand out a Skill only
within the same hard gates (`Deliverable`).

Scores are exact numbers. A candidate comes from a query that reads the status or
from one that selects active Skills only.
-/

namespace Aegora

open Py

/-! ## `select_skills` -/

/-- The settings that `select_skills` reads. -/
structure SelectionSettings where
  maxInjected : Nat
  minScore : ℚ
  commercialMinScore : ℚ
  manualBoost : ℚ
  agentPenalty : ℚ
  productBoost : ℚ
  domainBoost : ℚ

/-- A row as a query has read it. `statusRead` tells whether the query returns the status. -/
structure SkillCandidate where
  row : SkillRow
  statusRead : Bool := false
  retrievalScore : Option ℚ
  stated : row.fields.status ≠ .null
  active : statusRead = false → row.fields.status = .str "active"

structure SelectionRequest where
  query : String
  productId : String
  domainHint : Option String
  repeatedCommercialIds : List Nat

/-- `round(x, 6)`, to even. -/
def roundSix (x : ℚ) : ℚ :=
  let scaled := x * 1000000
  let below := ⌊scaled⌋
  let rest := scaled - below
  (if rest < 1 / 2 ∨ (rest = 1 / 2 ∧ below % 2 = 0) then below else below + 1 : ℤ) / 1000000

namespace SkillCandidate

def rules (c : SkillCandidate) : Dict := c.row.fields.triggerRules.dictOrEmpty

def commercial (c : SkillCandidate) : Bool := c.row.fields.skillType = .str "commercial"

/-- `float(item.get("retrieval_score") or 0.0)`. -/
def rawScore (c : SkillCandidate) : ℚ := c.retrievalScore.getD 0

/-- `item.get("status") not in {None, "active"}`. -/
def inactive (c : SkillCandidate) : Bool :=
  c.statusRead && c.row.fields.status ≠ .null && c.row.fields.status ≠ .str "active"

def threshold (settings : SelectionSettings) (c : SkillCandidate) : ℚ :=
  if c.commercial then settings.commercialMinScore else settings.minScore

end SkillCandidate

/-- `bool(domain_hint)`. -/
def hintGiven (domainHint : Option String) : Bool := domainHint.any (· ≠ "")

/-- `adjusted_score`. -/
def adjustedScore (settings : SelectionSettings) (request : SelectionRequest)
    (c : SkillCandidate) : ℚ :=
  c.rawScore + (max (-100) (min 100 c.row.fields.priority) : ℤ) / 1000
    + (if c.row.fields.source = .str "manual" then settings.manualBoost else -settings.agentPenalty)
    + (if c.row.fields.productId = some request.productId then settings.productBoost else 0)
    + (if hintGiven request.domainHint && c.row.fields.domain = request.domainHint then
        settings.domainBoost else 0)

/-- `rules.get(key) and not contains_any(query, rules[key])`. -/
def ruleMissing (lower : String → String) (query : String) (rules : Dict) (key : String) :
    Except ContextError Bool :=
  if (Dict.get rules key).truthy then do
    let found ← rulesContain lower query rules key
    return !found
  else return false

def explicitCommercial (lower : String → String) (query : String) : Bool :=
  containsAny lower query commercialExplicitTerms

/-- The first reasons of `select_skills`, which do not look at the rules. -/
def scopeReason (settings : SelectionSettings) (request : SelectionRequest)
    (c : SkillCandidate) : Option String :=
  if c.inactive then some "inactive_status"
  else if !c.row.fields.productId.all (· = request.productId) then some "cross_product_scope"
  else if !hintGiven request.domainHint && c.row.fields.domain.isSome then
    some "domain_hint_missing"
  else if hintGiven request.domainHint
      && !c.row.fields.domain.all (some · = request.domainHint) then
    some "cross_domain_scope"
  else if c.rawScore < c.threshold settings then some "below_score_threshold"
  else none

/-- The reasons for a commercial Skill. -/
def commercialReason (lower : String → String) (request : SelectionRequest)
    (c : SkillCandidate) : Except ContextError String := do
  let strongRelated ← rulesContain lower request.query c.rules "strong_related_terms"
  if !explicitCommercial lower request.query && !strongRelated then
    .ok "commercial_gate_not_matched"
  else if c.row.id ∈ request.repeatedCommercialIds
      ∧ explicitCommercial lower request.query = false then
    .ok "commercial_frequency_limited"
  else .ok "eligible"

/-- The reasons that look at the rules. -/
def ruleReason (lower : String → String) (request : SelectionRequest) (c : SkillCandidate) :
    Except ContextError String := do
  let excluded ← rulesContain lower request.query c.rules "exclude_terms"
  if excluded then .ok "excluded_by_term"
  else do
    let missing ← ruleMissing lower request.query c.rules "include_terms"
    if missing then .ok "missing_include_term"
    else do
      let unintended ← ruleMissing lower request.query c.rules "explicit_intents"
      if unintended then .ok "missing_explicit_intent"
      else if c.commercial then commercialReason lower request c
      else .ok "eligible"

/-- The reason that the loop of `select_skills` gives for a candidate. -/
def gateReason (lower : String → String) (settings : SelectionSettings)
    (request : SelectionRequest) (c : SkillCandidate) : Except ContextError String :=
  match scopeReason settings request c with
  | some reason => .ok reason
  | none => ruleReason lower request c

structure SkillDecision where
  id : Nat
  name : String
  retrievalScore : ℚ
  adjustedScore : ℚ
  decision : String
deriving DecidableEq

def decisionOf (settings : SelectionSettings) (request : SelectionRequest) (c : SkillCandidate)
    (reason : String) : SkillDecision where
  id := c.row.id
  name := c.row.fields.name
  retrievalScore := roundSix c.rawScore
  adjustedScore := roundSix (adjustedScore settings request c)
  decision := reason

/-- What `public_skill` returns. -/
structure PublicSkill where
  id : Nat
  name : String
  title : String
  content : String
  source : Json
  skillType : Json
  productId : Option String
  domain : Option String
  scope : String
  retrievalScore : ℚ
  injectionReason : String
deriving DecidableEq

/-- `scope` in `public_skill`. -/
def publicScope (productId domain : Option String) : String :=
  if hintGiven productId then if hintGiven domain then "product_domain" else "product"
  else "global"

def publicSkill (c : SkillCandidate) (injectionReason : String) : PublicSkill where
  id := c.row.id
  name := c.row.fields.name
  title := c.row.fields.title
  content := c.row.fields.content
  source := c.row.fields.source
  skillType := c.row.fields.skillType
  productId := c.row.fields.productId
  domain := c.row.fields.domain
  scope := publicScope c.row.fields.productId c.row.fields.domain
  retrievalScore := roundSix c.rawScore
  injectionReason := injectionReason

def injectionReason (lower : String → String) (query : String) (c : SkillCandidate) : String :=
  if c.commercial && explicitCommercial lower query then "matched_explicit_commercial_intent"
  else if c.commercial then "matched_strong_related_trigger"
  else "matched_skill_gate"

/-- `(-adjusted_score, -priority, id)`. -/
def selectedBefore (settings : SelectionSettings) (request : SelectionRequest)
    (a b : SkillCandidate) : Bool :=
  if adjustedScore settings request a ≠ adjustedScore settings request b then
    adjustedScore settings request b < adjustedScore settings request a
  else if a.row.fields.priority ≠ b.row.fields.priority then
    b.row.fields.priority < a.row.fields.priority
  else a.row.id ≤ b.row.id

def judge (lower : String → String) (settings : SelectionSettings) (request : SelectionRequest)
    (c : SkillCandidate) : Except ContextError (SkillCandidate × String) := do
  let reason ← gateReason lower settings request c
  return (c, reason)

/-- `select_skills`. -/
def selectSkills (lower : String → String) (settings : SelectionSettings)
    (request : SelectionRequest) (candidates : List SkillCandidate) :
    Except ContextError (List PublicSkill × List SkillDecision) := do
  let judged ← candidates.mapM (judge lower settings request)
  let eligible := (judged.filter fun entry => entry.2 = "eligible").map Prod.fst
  let ranked := eligible.insertionSort (selectedBefore settings request · ·)
  return ((ranked.take settings.maxInjected).map fun c =>
      publicSkill c (injectionReason lower request.query c),
    judged.map fun entry => decisionOf settings request entry.1 entry.2)

/-! ## Gates -/

/-- The text has one of the terms in it, as `contains_any` compares them. -/
def MentionsAny (lower : String → String) (text : String) (terms : List String) : Prop :=
  ∃ term ∈ terms, strip term ≠ "" ∧ (lower (strip term)).toList <:+: (lower text).toList

/-- The terms of one of the trigger rules of a Skill. -/
def ruleTerms (row : SkillRow) (key : String) : List String :=
  match pyList ((Dict.get row.fields.triggerRules.dictOrEmpty key).orElse (.arr [])) with
  | .ok terms => terms.map Json.pyStr
  | .error _ => []

/-- What both ways of delivery ask for. -/
structure Deliverable (lower : String → String) (query productId : String)
    (domainHint : Option String) (row : SkillRow) : Prop where
  active : row.fields.status = .str "active"
  product : ∀ value ∈ row.fields.productId, value = productId
  domain : ∀ value ∈ row.fields.domain, domainHint = some value
  excluded : ¬ MentionsAny lower query (ruleTerms row "exclude_terms")
  commercial : row.fields.skillType = .str "commercial" →
    MentionsAny lower query commercialExplicitTerms
      ∨ MentionsAny lower query (ruleTerms row "strong_related_terms")

/-- What `select_skills` asks for. -/
structure PassesSelection (lower : String → String) (settings : SelectionSettings)
    (request : SelectionRequest) (c : SkillCandidate) : Prop where
  deliverable : Deliverable lower request.query request.productId request.domainHint c.row
  hinted : c.row.fields.domain.isSome → hintGiven request.domainHint
  score : c.threshold settings ≤ c.rawScore
  included : (Dict.get c.rules "include_terms").truthy →
    MentionsAny lower request.query (ruleTerms c.row "include_terms")
  intended : (Dict.get c.rules "explicit_intents").truthy →
    MentionsAny lower request.query (ruleTerms c.row "explicit_intents")
  frequency : c.commercial → c.row.id ∈ request.repeatedCommercialIds →
    MentionsAny lower request.query commercialExplicitTerms

/-- `a` comes before `b`: a better score, or a higher priority, or a smaller id. -/
def RanksBefore (settings : SelectionSettings) (request : SelectionRequest)
    (a b : SkillCandidate) : Prop :=
  adjustedScore settings request b < adjustedScore settings request a
    ∨ adjustedScore settings request a = adjustedScore settings request b
      ∧ (b.row.fields.priority < a.row.fields.priority
        ∨ a.row.fields.priority = b.row.fields.priority ∧ a.row.id ≤ b.row.id)

section Gates

variable {lower : String → String} {query key : String} {row : SkillRow} {c : SkillCandidate}
  {settings : SelectionSettings} {request : SelectionRequest} {found : Bool} {reason : String}

theorem containsAny_iff {terms : List String} :
    containsAny lower query terms = true ↔ MentionsAny lower query terms := by
  simp [containsAny, MentionsAny, occursIn]

theorem explicitCommercial_iff :
    explicitCommercial lower query = true ↔ MentionsAny lower query commercialExplicitTerms :=
  containsAny_iff

/-- Where the rules can be read, `rules_contain` says whether one of the terms is mentioned. -/
theorem rulesContain_iff
    (h : rulesContain lower query row.fields.triggerRules.dictOrEmpty key = .ok found) :
    found = true ↔ MentionsAny lower query (ruleTerms row key) := by
  obtain ⟨terms, hterms, hfound⟩ := bind_eq_ok.mp h
  cases hfound
  unfold ruleTerms
  rw [hterms]
  exact containsAny_iff

theorem ruleMissing_iff
    (h : ruleMissing lower query row.fields.triggerRules.dictOrEmpty key = .ok found) :
    found = false ↔ ((Dict.get row.fields.triggerRules.dictOrEmpty key).truthy →
      MentionsAny lower query (ruleTerms row key)) := by
  unfold ruleMissing at h
  split at h
  · rename_i hgiven
    obtain ⟨mentioned, hmentioned, hfound⟩ := bind_eq_ok.mp h
    cases hfound
    rw [← rulesContain_iff hmentioned]
    simp [hgiven]
  · rename_i hgiven
    cases h
    simp [hgiven]

theorem inactive_iff : c.inactive = false ↔ c.row.fields.status = .str "active" := by
  unfold SkillCandidate.inactive
  cases hread : c.statusRead with
  | false => simp [c.active hread]
  | true => simp [c.stated]

/-- The two gates of the domain, as the cascade spells them. -/
theorem domain_gates_iff {domain domainHint : Option String} :
    ((!hintGiven domainHint && domain.isSome) = false
        ∧ (hintGiven domainHint && !domain.all (some · = domainHint)) = false)
      ↔ (∀ value ∈ domain, domainHint = some value) ∧ (domain.isSome → hintGiven domainHint) := by
  cases domain with
  | none => simp
  | some value =>
      have hsome : (∀ other ∈ some value, domainHint = some other) ↔ some value = domainHint := by
        simp [eq_comm (a := domainHint)]
      rw [hsome]
      cases hintGiven domainHint <;> simp

/-- A candidate passes the first gates. -/
structure PassesScope (settings : SelectionSettings) (request : SelectionRequest)
    (c : SkillCandidate) : Prop where
  active : c.row.fields.status = .str "active"
  product : ∀ value ∈ c.row.fields.productId, value = request.productId
  domain : ∀ value ∈ c.row.fields.domain, request.domainHint = some value
  hinted : c.row.fields.domain.isSome → hintGiven request.domainHint
  score : c.threshold settings ≤ c.rawScore

theorem scopeReason_eq_none : scopeReason settings request c = none
    ↔ PassesScope settings request c := by
  have hproduct : (!c.row.fields.productId.all (· = request.productId)) = false
      ↔ ∀ value ∈ c.row.fields.productId, value = request.productId := by
    cases c.row.fields.productId <;> simp
  unfold scopeReason
  constructor
  · intro h
    split at h
    · cases h
    · rename_i hactive
      split at h
      · cases h
      · rename_i hproduct'
        split at h
        · cases h
        · rename_i hmissing
          split at h
          · cases h
          · rename_i hcross
            split at h
            · cases h
            · rename_i hscore
              rw [Bool.not_eq_true] at hactive hproduct' hmissing hcross
              obtain ⟨hdomain, hhinted⟩ := domain_gates_iff.mp ⟨hmissing, hcross⟩
              exact ⟨inactive_iff.mp hactive, hproduct.mp hproduct', hdomain, hhinted,
                not_lt.mp hscore⟩
  · rintro ⟨hactive, hproduct', hdomain, hhinted, hscore⟩
    obtain ⟨hmissing, hcross⟩ := domain_gates_iff.mpr ⟨hdomain, hhinted⟩
    rw [inactive_iff.mpr hactive, hproduct.mpr hproduct', hmissing, hcross,
      if_neg Bool.false_ne_true, if_neg Bool.false_ne_true, if_neg Bool.false_ne_true,
      if_neg Bool.false_ne_true, if_neg (not_lt.mpr hscore)]

theorem scopeReason_ne_eligible : scopeReason settings request c ≠ some "eligible" := by
  unfold scopeReason
  repeat' split
  all_goals simp

theorem commercialReason_iff (h : commercialReason lower request c = .ok reason) :
    reason = "eligible"
      ↔ (MentionsAny lower request.query commercialExplicitTerms
          ∨ MentionsAny lower request.query (ruleTerms c.row "strong_related_terms"))
        ∧ (c.row.id ∈ request.repeatedCommercialIds →
          MentionsAny lower request.query commercialExplicitTerms) := by
  obtain ⟨strongRelated, hstrong, h⟩ := bind_eq_ok.mp h
  rw [← rulesContain_iff hstrong, ← explicitCommercial_iff]
  generalize explicitCommercial lower request.query = explicit at h ⊢
  split at h
  · rename_i hgate
    cases h
    rw [Bool.and_eq_true, Bool.not_eq_true', Bool.not_eq_true'] at hgate
    simp [hgate]
  · rename_i hgate
    rw [Bool.and_eq_true, Bool.not_eq_true', Bool.not_eq_true', not_and, Bool.not_eq_false] at hgate
    split at h
    · rename_i hfrequency
      cases h
      simp [hfrequency]
    · rename_i hfrequency
      rw [not_and, Bool.not_eq_false] at hfrequency
      cases h
      refine iff_of_true rfl ⟨?_, hfrequency⟩
      cases explicit with
      | true => exact Or.inl rfl
      | false => exact Or.inr (hgate rfl)

/-- A candidate passes the gates that look at its rules. -/
structure PassesRules (lower : String → String) (request : SelectionRequest)
    (c : SkillCandidate) : Prop where
  excluded : ¬ MentionsAny lower request.query (ruleTerms c.row "exclude_terms")
  included : (Dict.get c.rules "include_terms").truthy →
    MentionsAny lower request.query (ruleTerms c.row "include_terms")
  intended : (Dict.get c.rules "explicit_intents").truthy →
    MentionsAny lower request.query (ruleTerms c.row "explicit_intents")
  commercial : c.commercial →
    (MentionsAny lower request.query commercialExplicitTerms
        ∨ MentionsAny lower request.query (ruleTerms c.row "strong_related_terms"))
      ∧ (c.row.id ∈ request.repeatedCommercialIds →
        MentionsAny lower request.query commercialExplicitTerms)

theorem ruleReason_iff (h : ruleReason lower request c = .ok reason) :
    reason = "eligible" ↔ PassesRules lower request c := by
  obtain ⟨excluded, hexcluded, h⟩ := bind_eq_ok.mp h
  have hexcludedIff := rulesContain_iff hexcluded
  cases excluded with
  | true =>
      cases h
      exact iff_of_false (by decide) fun hrules => hrules.excluded (hexcludedIff.mp rfl)
  | false =>
      have hnotExcluded : ¬ MentionsAny lower request.query (ruleTerms c.row "exclude_terms") :=
        fun hmentions => Bool.false_ne_true (hexcludedIff.mpr hmentions)
      obtain ⟨missing, hmissing, h⟩ := bind_eq_ok.mp h
      have hmissingIff := ruleMissing_iff hmissing
      cases missing with
      | true =>
          cases h
          exact iff_of_false (by decide) fun hrules =>
            Bool.false_ne_true (hmissingIff.mpr hrules.included).symm
      | false =>
          obtain ⟨unintended, hunintended, h⟩ := bind_eq_ok.mp h
          have hintendedIff := ruleMissing_iff hunintended
          cases unintended with
          | true =>
              cases h
              exact iff_of_false (by decide) fun hrules =>
                Bool.false_ne_true (hintendedIff.mpr hrules.intended).symm
          | false =>
              rw [if_neg Bool.false_ne_true] at h
              by_cases hcommercial : c.commercial = true
              · rw [if_pos hcommercial] at h
                rw [commercialReason_iff h]
                exact ⟨fun hgate => ⟨hnotExcluded, hmissingIff.mp rfl, hintendedIff.mp rfl,
                  fun _ => hgate⟩, fun hrules => hrules.commercial hcommercial⟩
              · rw [if_neg hcommercial] at h
                cases h
                exact iff_of_true rfl ⟨hnotExcluded, hmissingIff.mp rfl, hintendedIff.mp rfl,
                  fun hgiven => absurd hgiven hcommercial⟩

theorem passesSelection_iff : PassesSelection lower settings request c
    ↔ PassesScope settings request c ∧ PassesRules lower request c := by
  have hcommercial : c.commercial = true ↔ c.row.fields.skillType = .str "commercial" :=
    decide_eq_true_iff
  constructor
  · intro h
    exact ⟨⟨h.deliverable.active, h.deliverable.product, h.deliverable.domain, h.hinted, h.score⟩,
      h.deliverable.excluded, h.included, h.intended, fun hgiven =>
        ⟨h.deliverable.commercial (hcommercial.mp hgiven), h.frequency hgiven⟩⟩
  · rintro ⟨hscope, hrules⟩
    exact ⟨⟨hscope.active, hscope.product, hscope.domain, hrules.excluded,
      fun hgiven => (hrules.commercial (hcommercial.mpr hgiven)).1⟩, hscope.hinted, hscope.score,
      hrules.included, hrules.intended, fun hgiven => (hrules.commercial hgiven).2⟩

/-- A candidate is eligible exactly when it passes all gates. -/
theorem gateReason_iff (h : gateReason lower settings request c = .ok reason) :
    reason = "eligible" ↔ PassesSelection lower settings request c := by
  unfold gateReason at h
  rw [passesSelection_iff, ← scopeReason_eq_none]
  split at h
  · rename_i stopped hstopped
    cases h
    rw [hstopped]
    refine iff_of_false ?_ fun hgates => nomatch hgates.1
    rintro rfl
    exact scopeReason_ne_eligible hstopped
  · rename_i hnone
    rw [ruleReason_iff h]
    exact ⟨fun hrules => ⟨hnone, hrules⟩, And.right⟩

end Gates

/-! ## Loading -/

section Loading

variable {lower : String → String} {query productId : String} {domainHint : Option String}
  {row found : SkillRow} {loadedIds : List Nat} {store : SkillStore}

/-- What the checks on a loaded row have found. -/
theorem loadFound_gates (h : loadFound lower query loadedIds row = .ok (.loaded found)) :
    found = row ∧ ¬ MentionsAny lower query (ruleTerms row "exclude_terms")
      ∧ (row.fields.skillType = .str "commercial" →
        MentionsAny lower query commercialExplicitTerms
          ∨ MentionsAny lower query (ruleTerms row "strong_related_terms")) := by
  refine ⟨skill_of_loadFound h rfl, ?_⟩
  obtain ⟨excluded, hexcluded, h⟩ := bind_eq_ok.mp h
  have hexcludedIff := rulesContain_iff hexcluded
  cases excluded with
  | true => cases h
  | false =>
      refine ⟨fun hmentions => Bool.false_ne_true (hexcludedIff.mpr hmentions),
        fun hcommercial => ?_⟩
      simp only [Bool.false_eq_true, if_false] at h
      rw [if_pos hcommercial] at h
      obtain ⟨strongRelated, hstrong, h⟩ := bind_eq_ok.mp h
      rw [← rulesContain_iff hstrong, ← containsAny_iff]
      by_cases hgate : (!containsAny lower query commercialExplicitTerms && !strongRelated) = true
      · rw [if_pos hgate] at h
        cases h
      · rw [Bool.not_eq_true, Bool.and_eq_false_iff, Bool.not_eq_false',
          Bool.not_eq_false'] at hgate
        exact hgate

theorem hardGates_spec (h : hardGates productId domainHint row = true) :
    (∀ value ∈ row.fields.productId, value = productId)
      ∧ ∀ value ∈ row.fields.domain, domainHint = some value := by
  unfold hardGates at h
  obtain ⟨hproduct, hdomain⟩ := Bool.and_eq_true_iff.mp h
  refine ⟨by simpa [Option.all_eq_true] using hproduct, fun value hvalue => ?_⟩
  rw [Option.mem_def] at hvalue
  cases domainHint with
  | none => simp [hvalue] at hdomain
  | some hint =>
      rw [hvalue] at hdomain
      exact congrArg some (of_decide_eq_true hdomain).symm

/-- A Skill whose content `load_skill_by_name` hands out is deliverable. -/
theorem loaded_deliverable {name : String} {allowedNames : List String} {scope : Dict}
    (h : loadSkillByName lower store name query productId domainHint allowedNames loadedIds scope
      = .ok (.loaded found)) : Deliverable lower query productId domainHint found := by
  unfold loadSkillByName at h
  split at h
  · cases h
  · split at h
    · cases h
    · rename_i row hrow
      obtain ⟨rfl, hexcluded, hcommercial⟩ := loadFound_gates h
      have hgates := List.find?_some hrow
      simp only [Bool.and_eq_true] at hgates
      obtain ⟨⟨⟨-, hretrievable⟩, hhard⟩, -⟩ := hgates
      obtain ⟨hproduct, hdomain⟩ := hardGates_spec hhard
      have hactive : found.fields.status = .str "active" :=
        of_decide_eq_true (Bool.and_eq_true_iff.mp hretrievable).1
      exact ⟨hactive, hproduct, hdomain, hexcluded, hcommercial⟩

end Loading

/-! ## Rules that have passed their check -/

section Rules

variable {lower : String → String} {query key : String} {row : SkillRow}

/-- The rules of a checked Skill are lists. -/
theorem rule_list_of_checked (h : triggerRuleErrors row.toDict = []) (key : String) :
    ∃ items, (Dict.get row.fields.triggerRules.dictOrEmpty key).orElse (.arr []) = .arr items := by
  have hrules : Dict.get row.toDict "trigger_rules" = row.fields.triggerRules := rfl
  unfold triggerRuleErrors at h
  rw [hrules] at h
  cases hentry : Dict.get? row.fields.triggerRules.dictOrEmpty key with
  | none => exact ⟨[], by rw [Dict.get, hentry]; rfl⟩
  | some value =>
      have hmem := Dict.mem_of_get? hentry
      cases hobj : row.fields.triggerRules with
      | obj rules =>
          rw [hobj] at h hmem
          have htruthy : (Json.obj rules).truthy = true := by
            cases rules with
            | nil => cases hmem
            | cons entry rest => rfl
          rw [Json.orElse, if_pos htruthy] at h
          have herrors := List.flatMap_eq_nil_iff.mp h _ hmem
          rw [Dict.get, ← hobj, hentry, Option.getD_some]
          cases value with
          | arr items =>
              cases items with
              | nil => exact ⟨[], rfl⟩
              | cons item rest => exact ⟨item :: rest, rfl⟩
          | _ =>
              unfold ruleErrors at herrors
              split at herrors
              · cases herrors
              · cases herrors
      | _ =>
          rw [hobj] at hmem
          cases hmem

theorem exists_rulesContain (h : triggerRuleErrors row.toDict = []) (key : String) :
    ∃ found, rulesContain lower query row.fields.triggerRules.dictOrEmpty key = .ok found := by
  obtain ⟨items, hitems⟩ := rule_list_of_checked h key
  unfold rulesContain
  rw [hitems]
  exact ⟨_, rfl⟩

theorem exists_ruleMissing (h : triggerRuleErrors row.toDict = []) (key : String) :
    ∃ found, ruleMissing lower query row.fields.triggerRules.dictOrEmpty key = .ok found := by
  unfold ruleMissing
  split
  · obtain ⟨found, hfound⟩ := exists_rulesContain h key
    rw [hfound]
    exact ⟨_, rfl⟩
  · exact ⟨_, rfl⟩

end Rules

/-! ## Selection -/

section Selection

variable {lower : String → String} {settings : SelectionSettings} {request : SelectionRequest}
  {candidates : List SkillCandidate} {selected : List PublicSkill} {decisions : List SkillDecision}

theorem exists_gateReason {c : SkillCandidate} (h : triggerRuleErrors c.row.toDict = []) :
    ∃ reason, gateReason lower settings request c = .ok reason := by
  have hcommercial : ∃ reason, commercialReason lower request c = .ok reason := by
    obtain ⟨strongRelated, hstrong⟩ := exists_rulesContain
      h "strong_related_terms"
    unfold commercialReason SkillCandidate.rules
    rw [hstrong]
    simp only [bind, Except.bind]
    split_ifs <;> exact ⟨_, rfl⟩
  obtain ⟨excluded, hexcluded⟩ := exists_rulesContain
    h "exclude_terms"
  obtain ⟨missing, hmissing⟩ := exists_ruleMissing
    h "include_terms"
  obtain ⟨unintended, hunintended⟩ := exists_ruleMissing
    h "explicit_intents"
  unfold gateReason
  split
  · exact ⟨_, rfl⟩
  · unfold ruleReason SkillCandidate.rules
    rw [hexcluded, hmissing, hunintended]
    simp only [bind, Except.bind]
    split_ifs
    · exact ⟨_, rfl⟩
    · exact ⟨_, rfl⟩
    · exact ⟨_, rfl⟩
    · exact hcommercial
    · exact ⟨_, rfl⟩

/-- What the loop knows of each candidate. -/
def JudgedAs (lower : String → String) (settings : SelectionSettings) (request : SelectionRequest)
    (c : SkillCandidate) (entry : SkillCandidate × String) : Prop :=
  entry.1 = c ∧ (entry.2 = "eligible" ↔ PassesSelection lower settings request c)

theorem judged_of_mapM {judged : List (SkillCandidate × String)}
    (h : candidates.mapM (judge lower settings request) = .ok judged) :
    List.Forall₂ (JudgedAs lower settings request) candidates judged := by
  refine (mapM_eq_ok.mp h).imp fun c entry hjudge => ?_
  obtain ⟨reason, hreason, hentry⟩ := bind_eq_ok.mp hjudge
  cases hentry
  exact ⟨rfl, gateReason_iff hreason⟩

open Classical in
theorem eligible_eq {judged : List (SkillCandidate × String)}
    (h : List.Forall₂ (JudgedAs lower settings request) candidates judged) :
    (judged.filter fun entry => entry.2 = "eligible").map Prod.fst
      = candidates.filter (PassesSelection lower settings request) := by
  induction h with
  | nil => rfl
  | @cons c entry _ _ hentry _ ih =>
      obtain ⟨rfl, hiff⟩ := hentry
      rw [List.filter_cons, List.filter_cons]
      by_cases hpasses : PassesSelection lower settings request entry.1
      · simp [hiff.mpr hpasses, hpasses, ih]
      · have hreason : ¬ entry.2 = "eligible" := fun heligible => hpasses (hiff.mp heligible)
        simp [hreason, hpasses, ih]

/-- The sort key of a selected Skill. -/
def selectionKey (settings : SelectionSettings) (request : SelectionRequest)
    (c : SkillCandidate) : ℚ ×ₗ ℤ ×ₗ ℕ :=
  toLex (-adjustedScore settings request c, toLex (-c.row.fields.priority, c.row.id))

theorem ranksBefore_iff (a b : SkillCandidate) :
    RanksBefore settings request a b
      ↔ selectionKey settings request a ≤ selectionKey settings request b := by
  unfold RanksBefore selectionKey
  rw [Prod.Lex.toLex_le_toLex, Prod.Lex.toLex_le_toLex, neg_lt_neg_iff, neg_inj, neg_lt_neg_iff,
    neg_inj]

theorem selectedBefore_iff (a b : SkillCandidate) :
    selectedBefore settings request a b = true ↔ RanksBefore settings request a b := by
  unfold selectedBefore RanksBefore
  by_cases hscore : adjustedScore settings request a = adjustedScore settings request b
  · rw [if_neg (not_not.mpr hscore)]
    by_cases hpriority : a.row.fields.priority = b.row.fields.priority
    · simp [hscore, hpriority]
    · simp [hscore, hpriority]
  · simp [hscore]

theorem pairwise_ranked (eligible : List SkillCandidate) :
    (eligible.insertionSort (selectedBefore settings request · ·)).Pairwise
      (RanksBefore settings request) :=
  (OrderedQuery.pairwise_insertionSort
    (fun a b => (selectedBefore_iff a b).trans (ranksBefore_iff a b)) eligible).imp
    fun hbefore => (selectedBefore_iff _ _).mp hbefore

/-- One decision about a candidate. -/
structure DecidedAs (lower : String → String) (settings : SelectionSettings)
    (request : SelectionRequest) (c : SkillCandidate) (d : SkillDecision) : Prop where
  id : d.id = c.row.id
  name : d.name = c.row.fields.name
  retrievalScore : d.retrievalScore = roundSix c.rawScore
  adjustedScore : d.adjustedScore = roundSix (Aegora.adjustedScore settings request c)
  decision : d.decision = "eligible" ↔ PassesSelection lower settings request c

open Classical in
/-- The first Skills, by rank, of those that pass all gates. -/
structure SelectedFrom (lower : String → String) (settings : SelectionSettings)
    (request : SelectionRequest) (candidates : List SkillCandidate)
    (selected : List PublicSkill) : Prop where
  first : ∃ ranked : List SkillCandidate,
    ranked.Perm (candidates.filter (PassesSelection lower settings request))
      ∧ ranked.Pairwise (RanksBefore settings request)
      ∧ selected = (ranked.take settings.maxInjected).map fun c =>
        publicSkill c (injectionReason lower request.query c)

theorem SelectedFrom.deliverable (h : SelectedFrom lower settings request candidates selected)
    {skill : PublicSkill} (hskill : skill ∈ selected) :
    ∃ c ∈ candidates, skill.id = c.row.id ∧ skill.content = c.row.fields.content
      ∧ Deliverable lower request.query request.productId request.domainHint c.row := by
  obtain ⟨ranked, hperm, -, rfl⟩ := h.first
  obtain ⟨c, hc, rfl⟩ := List.mem_map.mp hskill
  obtain ⟨hmem, hpasses⟩ := List.mem_filter.mp (hperm.mem_iff.mp (List.mem_of_mem_take hc))
  have hgates : PassesSelection lower settings request c := by simpa using hpasses
  exact ⟨c, hmem, rfl, rfl, hgates.deliverable⟩

theorem selectSkills_spec
    (h : selectSkills lower settings request candidates = .ok (selected, decisions)) :
    SelectedFrom lower settings request candidates selected
      ∧ List.Forall₂ (DecidedAs lower settings request) candidates decisions := by
  obtain ⟨judged, hmapM, h⟩ := bind_eq_ok.mp h
  cases h
  have hjudged := judged_of_mapM hmapM
  constructor
  · refine ⟨⟨_, ?_, pairwise_ranked _, rfl⟩⟩
    rw [← eligible_eq hjudged]
    exact List.perm_insertionSort _ _
  · rw [List.forall₂_map_right_iff]
    refine hjudged.imp fun c entry hentry => ?_
    obtain ⟨rfl, hiff⟩ := hentry
    exact ⟨rfl, rfl, rfl, rfl, hiff⟩

theorem exists_selectSkills (h : ∀ c ∈ candidates, triggerRuleErrors c.row.toDict = []) :
    ∃ selected decisions,
      selectSkills lower settings request candidates = .ok (selected, decisions) := by
  have hjudge : ∀ c ∈ candidates, ∃ entry, judge lower settings request c = .ok entry := by
    intro c hc
    obtain ⟨reason, hreason⟩ := exists_gateReason (h c hc)
    exact ⟨(c, reason), bind_eq_ok.mpr ⟨reason, hreason, rfl⟩⟩
  obtain ⟨judged, hjudged⟩ := exists_mapM_eq_ok hjudge
  unfold selectSkills
  rw [hjudged]
  exact ⟨_, _, rfl⟩

end Selection

/-- Both ways of delivery keep to the hard gates, and the Skills of `select_skills` are the first
ones of those that pass its gates, with one decision for each candidate, in order. It raises on
no candidates whose rules have been checked. -/
theorem skills_delivered (lower : String → String) :
    (∀ store name query productId domainHint allowedNames loadedIds scope row,
      loadSkillByName lower store name query productId domainHint allowedNames loadedIds scope
          = .ok (.loaded row) →
        Deliverable lower query productId domainHint row)
      ∧ (∀ settings request candidates selected decisions,
        selectSkills lower settings request candidates = .ok (selected, decisions) →
          (∀ skill ∈ selected, ∃ c ∈ candidates, skill.id = c.row.id
            ∧ skill.content = c.row.fields.content
            ∧ Deliverable lower request.query request.productId request.domainHint c.row)
          ∧ SelectedFrom lower settings request candidates selected
          ∧ List.Forall₂ (DecidedAs lower settings request) candidates decisions)
      ∧ ∀ settings request candidates,
        (∀ c ∈ candidates, triggerRuleErrors c.row.toDict = []) →
          ∃ selected decisions,
            selectSkills lower settings request candidates = .ok (selected, decisions) := by
  refine ⟨fun _ _ _ _ _ _ _ _ _ h => loaded_deliverable h, fun _ _ _ _ _ h => ?_,
    fun _ _ _ h => exists_selectSkills h⟩
  obtain ⟨hselected, hdecided⟩ := selectSkills_spec h
  exact ⟨fun _ hskill => hselected.deliverable hskill, hselected, hdecided⟩

/-! ## A commercial Skill on a query that does not ask for it -/

def membershipRow : SkillRow where
  id := 1
  version := 1
  contentHash := ""
  fields := {
    name := "membership_info"
    title := "会员权益介绍"
    description := "购买会员时介绍权益"
    content := "根据用户需求介绍会员权益，但不要编造价格。"
    productId := some "aicoin"
    domain := some "membership"
    skillType := .str "commercial"
    source := .str "manual"
    status := .str "active"
    priority := 20
    triggerRules := .obj [("strong_related_terms", .arr [.str "功能受限"]),
      ("exclude_terms", .arr [.str "投诉"])]
    metadata := .obj [] }

def membershipCandidate : SkillCandidate where
  row := membershipRow
  retrievalScore := some (4 / 5)
  stated := by decide
  active := fun _ => rfl

def membershipSettings : SelectionSettings where
  maxInjected := 2
  minScore := 1 / 2
  commercialMinScore := 3 / 5
  manualBoost := 1 / 50
  agentPenalty := 1 / 50
  productBoost := 1 / 20
  domainBoost := 1 / 20

def membershipRequest (query : String) : SelectionRequest where
  query := query
  productId := "aicoin"
  domainHint := some "membership"
  repeatedCommercialIds := []

/-- A text without letters that have a case, so that `str.lower` keeps it. -/
theorem skills_delivered_membership :
    (∀ skill ∈ [publicSkill membershipCandidate "matched_strong_related_trigger"],
      ∃ c ∈ [membershipCandidate], skill.id = c.row.id ∧ skill.content = c.row.fields.content
        ∧ Deliverable id "功能受限了" "aicoin" (some "membership") c.row)
      ∧ ∃ decision, List.Forall₂ (DecidedAs id membershipSettings (membershipRequest "如何设置悬浮窗"))
        [membershipCandidate] [decision] ∧ decision.decision = "commercial_gate_not_matched" := by
  have hstrong : selectSkills id membershipSettings (membershipRequest "功能受限了")
      [membershipCandidate]
        = .ok ([publicSkill membershipCandidate "matched_strong_related_trigger"],
          [decisionOf membershipSettings (membershipRequest "功能受限了") membershipCandidate
            "eligible"]) := by decide +kernel
  have hgate : selectSkills id membershipSettings (membershipRequest "如何设置悬浮窗")
      [membershipCandidate] = .ok ([], [decisionOf membershipSettings
        (membershipRequest "如何设置悬浮窗") membershipCandidate "commercial_gate_not_matched"]) := by
    decide +kernel
  exact ⟨((skills_delivered id).2.1 _ _ _ _ _ hstrong).1, _,
    ((skills_delivered id).2.1 _ _ _ _ _ hgate).2.2, rfl⟩

end Aegora
