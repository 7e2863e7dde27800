import Aegora.Grouping
import Aegora.Interleaving
import Aegora.PlannerDecisions
import Aegora.SkillSelection
import Aegora.WecomFeedback

/-!
# The Skills of a session

A turn begins with the Skills that the session was given before (`load_context`), `load_skills`
puts those in front that the search selects for the question, `load_skill` adds more while the
turn runs, and `save_chat_turn` keeps their ids with the answer, where the next turn finds them.
The search reads the same ids to not offer a commercial Skill twice.

Turns of any sessions make their queries in any order, and the Skills change in between
(`session_skills`).
-/

namespace Aegora

open Py Interleaved

namespace SessionSkills

open RealAgent WecomFeedback

/-! ## What the session was given -/

/-- `load_assistant_metadata`. -/
def loadAssistantMetadata (messages : List Dict) (sessionId : String) : List Dict :=
  (ContextViews.loadSessionMessages messages sessionId 100).filterMap fun row =>
    if Dict.get row "role" = .str "assistant" then (Dict.get row "metadata").asDict? else none

/-- `int(skill_id)`, where it is an integer or a text of digits. -/
def skillIdOf : Json → Option Int
  | .int n => some n
  | .bool b => some (if b then 1 else 0)
  | .str text => (digitsValue text.toList).map Int.ofNat
  | _ => none

/-- The ids in `metadata.get("injected_skill_ids") or []`. -/
def injectedSkillIds (metadata : Dict) : Except ContextError (List Int) := do
  let items ← pyList ((Dict.get metadata "injected_skill_ids").orElse (.arr []))
  return items.filterMap skillIdOf

def skillIdsOf (metadata : List Dict) : Except ContextError (List Int) := do
  let ids ← metadata.mapM injectedSkillIds
  return ids.flatten

/-- `commercial_skill_ids_in_session`. -/
def commercialSkillIdsInSession (messages : List Dict) (sessionId : String) :
    Except ContextError (List Int) :=
  if sessionId = "" then .ok [] else skillIdsOf (loadAssistantMetadata messages sessionId)

/-- `session_loaded_skill_ids`: each id where it comes first. -/
def sessionLoadedSkillIds (messages : List Dict) (sessionId : String) :
    Except ContextError (List Int) :=
  if sessionId = "" then .ok []
  else (skillIdsOf (loadAssistantMetadata messages sessionId)).map List.eraseDups

/-! ## The queries -/

/-- A row that a query of active Skills has read, with its `retrieval_score`. -/
def candidateOf (score : SkillRow → ℚ) (row : SkillRow) : Option SkillCandidate :=
  if h : row.fields.status = .str "active" then
    some { row := row
           retrievalScore := some (score row)
           stated := by rw [h]; nofun
           active := fun _ => h }
  else none

/-- The `WHERE` of the queries. -/
def available (store : SkillStore) (productId : String) (domainHint : Option String)
    (row : SkillRow) : Bool :=
  store.retrievable row && hardGates productId domainHint row

/-- `has_retrievable_skills`. -/
def hasRetrievableSkills (enabled : Bool) (store : SkillStore) (productId : String)
    (domainHint : Option String) : Bool :=
  enabled && store.skills.rows.any (available store productId domainHint)

/-- `skill_vector_candidates`; the distance of a vector is one less its similarity. -/
def skillVectorCandidates (store : SkillStore) (similarity : SkillRow → ℚ) (productId : String)
    (domainHint : Option String) (candidateK : Nat) : List SkillCandidate :=
  let rows := store.skills.rows.filter (available store productId domainHint)
  ((rows.insertionSort fun a b => similarity b ≤ similarity a).take candidateK).filterMap
    (candidateOf similarity)

/-- `skills_by_ids`. -/
def skillsByIds (store : SkillStore) (ids : List Int) (productId : String)
    (domainHint : Option String) : List SkillCandidate :=
  let rows := store.skills.rows.filter fun row =>
    (row.id : Int) ∈ ids && available store productId domainHint row
  (rows.insertionSort fun a b => ids.idxOf (a.id : Int) ≤ ids.idxOf (b.id : Int)).filterMap
    (candidateOf fun _ => 0)

/-! ## The Skills of a turn -/

/-- The `availability` of a Skill. -/
inductive Availability where
  | currentAuto
  | sessionContext
  | toolLoaded
deriving DecidableEq

structure TurnSkill where
  skill : PublicSkill
  availability : Availability
deriving DecidableEq

def TurnSkill.id (item : TurnSkill) : Nat := item.skill.id

structure SkillIndexItem where
  id : Nat
  name : String
  title : String
  description : String
  skillType : Json
  scope : String
  retrievalScore : ℚ

/-- `skill_index_item`. -/
def skillIndexItem (row : SkillRow) (score : ℚ) : SkillIndexItem where
  id := row.id
  name := row.fields.name
  title := row.fields.title
  description := row.fields.description
  skillType := row.fields.skillType
  scope := if hintGiven row.fields.domain then "product_domain"
    else if hintGiven row.fields.productId then "product" else "global"
  retrievalScore := roundSix score

/-- What `load_skills` returns. -/
structure SkillRetrieval where
  query : String
  candidates : List SkillDecision := []
  skillIndex : List SkillIndexItem := []
  skills : List TurnSkill
  autoSkills : List TurnSkill := []
  sessionSkills : List TurnSkill := []
  skipped : Bool := true
  reason : String

structure SkillSettings extends SelectionSettings where
  enabled : Bool
  candidateK : Nat

/-- What the embedding of the question comes to. -/
inductive QueryVector where
  /-- the similarity of the Skills to it -/
  | vector (similarity : SkillRow → ℚ)
  | unavailable (errorType : String)
  /-- `load_skills` raises something else -/
  | failed

/-- The dependencies that a turn runs with. -/
inductive SkillSource where
  /-- `build_real_dependencies` -/
  | session (history : List Dict) (vector : QueryVector)
  /-- `build_configured_dependencies`: the scope of `load_skill`, and which Skills the limit of
  the index leaves -/
  | scoped (scope : Dict) (listed : SkillRow → Bool)

structure LoadCall where
  name : String
  scope : Dict

/-- Calls of `load_skill` in one batch, as they come to query the database, and the places of
their results in it. -/
structure LoadBatch where
  calls : List LoadCall
  order : List Nat

/-- A turn, and what it is given from outside: the vector, the calls of the model, and all that
`save_chat_turn` stores besides the Skills. -/
structure SkillTurn where
  saved : SavedTurn
  productId : String
  domainHint : Option String
  source : SkillSource
  batches : List LoadBatch

namespace SkillTurn

def session (turn : SkillTurn) : String := turn.saved.session

def query (turn : SkillTurn) : String := turn.saved.userMessage

/-- The arguments of `save_chat_turn`. -/
def savedWith (turn : SkillTurn) (skills : List TurnSkill) : SavedTurn :=
  { turn.saved with injectedSkillIds := skills.map fun item => .int item.id }

end SkillTurn

/-- What the turns share. No query reads the turns that have begun. -/
structure SkillHost where
  skills : SkillStore
  messages : List Dict := []
  begun : List SkillTurn := []

section Turn

variable (lower : String → String) (settings : SkillSettings) (turn : SkillTurn)

def sessionSkill (c : SkillCandidate) : TurnSkill :=
  ⟨publicSkill c "available_from_session_context", .sessionContext⟩

/-- The Skills that `load_context` finds. -/
def loadContext : Task SkillHost ContextError (List TurnSkill) :=
  if settings.enabled && turn.session ≠ "" then do
    let ids ← .ofExcept (← .read fun s => sessionLoadedSkillIds s.messages turn.session)
    let rows ← if ids = [] then pure []
      else .read fun s => skillsByIds s.skills ids turn.productId turn.domainHint
    return rows.map sessionSkill
  else return []

/-- The question that the search is made for. -/
def searchQuery (history : List Dict) : Except Exc String :=
  if isContextDependentQuery turn.query then
    fallbackStandaloneQuery turn.query
      (.ofDict [("history", .arr ((ContextViews.lastItems 8 history).map .obj))])
  else .ok turn.query

/-- What `retrieve_skills` asks `select_skills` for. -/
def selectionRequest (query : String) (repeated : List Int) : SelectionRequest where
  query := query
  productId := turn.productId
  domainHint := turn.domainHint
  repeatedCommercialIds := repeated.filterMap Int.toNat?

/-- `load_skills`, with `retrieve_skills`. -/
def loadSkills (history : List Dict) (vector : QueryVector) (sessionSkills : List TurnSkill) :
    Task SkillHost ContextError (Except String SkillRetrieval) :=
  match searchQuery turn history with
  | .error fault => return .error fault.typeName
  | .ok query => do
      let skipped (reason : String) : SkillRetrieval :=
        { query := query, skills := sessionSkills, sessionSkills := sessionSkills
          reason := reason }
      if !settings.enabled then
        return .ok { query := query, skills := [], reason := "skills_disabled" }
      let found ← .read fun s =>
        hasRetrievableSkills settings.enabled s.skills turn.productId turn.domainHint
      if !found then return .ok (skipped "no_retrievable_skills")
      match vector with
      | .unavailable errorType => return .ok (skipped ("embedding_unavailable:" ++ errorType))
      | .failed => return .error ""
      | .vector similarity => do
          let candidates ← .read fun s => skillVectorCandidates s.skills similarity
            turn.productId turn.domainHint settings.candidateK
          let repeated ← .read fun s => commercialSkillIdsInSession s.messages turn.session
          match repeated with
          | .error _ => return .error "TypeError"
          | .ok repeated =>
              match selectSkills lower settings.toSelectionSettings
                  (selectionRequest turn query repeated) candidates with
              | .error _ => return .error "TypeError"
              | .ok (selected, decisions) =>
                  let auto := selected.map fun skill => TurnSkill.mk skill .currentAuto
                  return .ok {
                    query := query
                    candidates := decisions
                    skillIndex := candidates.map fun c => skillIndexItem c.row c.rawScore
                    skills := auto ++ sessionSkills.filter fun item =>
                      item.id ∉ auto.map TurnSkill.id
                    autoSkills := auto
                    sessionSkills := sessionSkills
                    skipped := false
                    reason := "retrieved" }

/-- `LoadSkillsNode.exec`. -/
def loadSkillsNode (history : List Dict) (vector : QueryVector)
    (sessionSkills : List TurnSkill) : Task SkillHost ContextError SkillRetrieval := do
  match ← loadSkills lower settings turn history vector sessionSkills with
  | .ok retrieval => return retrieval
  | .error _ => return { query := turn.query, skills := [], reason := "skill_loader_error" }

/-- `load_configured_context` and `load_configured_skills`. -/
def loadConfiguredSkills (scope : Dict) (listed : SkillRow → Bool) :
    Task SkillHost ContextError SkillRetrieval := do
  let rows ← .read fun s => (skillIndexForScope settings.enabled s.skills scope).filter listed
  return { query := turn.query, skillIndex := rows.map fun row => skillIndexItem row 0
           skills := [], reason := if rows = [] then "none" else "runtime_tool_scope" }

/-- What the turn begins with. -/
def openingSkills : Task SkillHost ContextError SkillRetrieval :=
  match turn.source with
  | .session history vector => do
      let sessionSkills ← loadContext settings turn
      loadSkillsNode lower settings turn history vector sessionSkills
  | .scoped scope listed => loadConfiguredSkills settings turn scope listed

/-- `load_skill` for one call. -/
def loadCalled (store : SkillStore) (index : List SkillIndexItem) (skills : List TurnSkill)
    (call : LoadCall) : Except ContextError SkillLoad :=
  loadSkill lower store
    { name := call.name
      query := turn.query
      productId := turn.productId
      domainHint := turn.domainHint
      allowedNames := (index.map SkillIndexItem.name ++ skills.map (·.skill.name)).filter (· ≠ "")
      alreadyLoadedIds := skills.map TurnSkill.id }
    call.scope

/-- The Skill of the result, where one was loaded now. -/
def loadedNow : Except ContextError SkillLoad → Option TurnSkill
  | .ok (.loaded row) => (candidateOf (fun _ => 0) row).map fun c =>
      ⟨publicSkill c "loaded_by_agent_tool", .toolLoaded⟩
  | _ => none

/-- `merge_tool_loaded_skill`. -/
def mergeToolLoadedSkill (skills : List TurnSkill) (item : TurnSkill) : List TurnSkill :=
  skills.filter (fun existing => existing.id ≠ item.id) ++ [item]

def runCalls (index : List SkillIndexItem) (skills : List TurnSkill) :
    List LoadCall → Task SkillHost ContextError (List (Option TurnSkill))
  | [] => return []
  | call :: calls => do
      let load ← .read fun s => loadCalled lower turn s.skills index skills call
      let more ← runCalls index skills calls
      return loadedNow load :: more

def runBatches (index : List SkillIndexItem) (skills : List TurnSkill) :
    List LoadBatch → Task SkillHost ContextError (List TurnSkill)
  | [] => return skills
  | batch :: batches => do
      let results ← runCalls lower turn index skills batch.calls
      let items := batch.order.filterMap fun place => (results[place]?).join
      runBatches index (items.foldl mergeToolLoadedSkill skills) batches

/-- A turn that has ended. -/
structure EndedTurn where
  turn : SkillTurn
  reason : String
  skills : List TurnSkill

/-- A turn, with its queries about Skills and its entries in `chat_messages`. -/
def runTurn : Task SkillHost ContextError EndedTurn := do
  .write fun s => .ok { s with begun := s.begun ++ [turn] }
  let retrieval ← openingSkills lower settings turn
  let skills ← runBatches lower turn retrieval.skillIndex retrieval.skills turn.batches
  .write fun s => .ok { s with messages := upsertMessage s.messages turn.saved.userRow }
  .write fun s => .ok
    { s with messages := upsertMessage s.messages (turn.savedWith skills).assistantRow }
  return ⟨turn, retrieval.reason, skills⟩

end Turn

/-- Skills and their vectors change in whatever way. -/
def SkillHost.change (s : SkillHost) (skills : SkillStore) : Option SkillHost :=
  some { s with skills := skills }

/-! ## What the queries find -/

section Queries

variable {store : SkillStore} {score : SkillRow → ℚ} {row : SkillRow} {c : SkillCandidate}
  {productId : String} {domainHint : Option String} {ids : List Int}

theorem candidateOf_row (h : candidateOf score row = some c) : c.row = row := by
  unfold candidateOf at h
  split at h
  · cases h
    rfl
  · cases h

theorem exists_candidateOf (h : store.retrievable row = true) :
    ∃ c, candidateOf score row = some c ∧ c.row = row := by
  have hactive : row.fields.status = .str "active" :=
    of_decide_eq_true (Bool.and_eq_true_iff.mp h).1
  unfold candidateOf
  rw [dif_pos hactive]
  exact ⟨_, rfl, rfl⟩

theorem candidates_sublist (rows : List SkillRow) :
    ((rows.filterMap (candidateOf score)).map SkillCandidate.row).Sublist rows := by
  induction rows with
  | nil => exact List.Sublist.slnil
  | cons row rows ih =>
      rw [List.filterMap_cons]
      split
      · exact ih.cons row
      · rename_i c hc
        rw [List.map_cons, candidateOf_row hc]
        exact ih.cons_cons row

/-- The candidates that a query reads of some rows of the table have ids of their own. -/
theorem candidates_nodup {rows : List SkillRow} (h : rows.Subperm store.skills.rows) :
    ((rows.filterMap (candidateOf score)).map fun c => c.row.id).Nodup := by
  obtain ⟨l, hperm, hsub⟩ := h
  have hids : (rows.map SkillRow.id).Nodup :=
    (hperm.map SkillRow.id).nodup_iff.mp (store.skills.ids.sublist (hsub.map _))
  have hcandidates := hids.sublist ((@candidates_sublist score rows).map SkillRow.id)
  rwa [List.map_map] at hcandidates

theorem mem_skillVectorCandidates {candidateK : Nat}
    (h : c ∈ skillVectorCandidates store score productId domainHint candidateK) :
    c.row ∈ store.skills.rows ∧ available store productId domainHint c.row = true := by
  obtain ⟨row, hrow, hc⟩ := List.mem_filterMap.mp h
  rw [candidateOf_row hc]
  exact List.mem_filter.mp ((List.mem_insertionSort _).mp (List.mem_of_mem_take hrow))

theorem nodup_skillVectorCandidates (candidateK : Nat) :
    ((skillVectorCandidates store score productId domainHint candidateK).map
      fun c => c.row.id).Nodup :=
  @candidates_nodup store _ _
    (((List.take_sublist _ _).subperm.trans (List.perm_insertionSort _ _).subperm).trans
      List.filter_sublist.subperm)

theorem mem_skillsByIds (h : c ∈ skillsByIds store ids productId domainHint) :
    c.row ∈ store.skills.rows ∧ (c.row.id : Int) ∈ ids
      ∧ available store productId domainHint c.row = true := by
  obtain ⟨row, hrow, hc⟩ := List.mem_filterMap.mp h
  rw [candidateOf_row hc]
  obtain ⟨hmem, hwhere⟩ := List.mem_filter.mp ((List.mem_insertionSort _).mp hrow)
  rw [Bool.and_eq_true, decide_eq_true_eq] at hwhere
  exact ⟨hmem, hwhere⟩

theorem exists_mem_skillsByIds (hrow : row ∈ store.skills.rows) (hid : (row.id : Int) ∈ ids)
    (havailable : available store productId domainHint row = true) :
    ∃ c ∈ skillsByIds store ids productId domainHint, c.row = row := by
  obtain ⟨c, hc, hsame⟩ :=
    @exists_candidateOf store (fun _ => 0) _ (Bool.and_eq_true_iff.mp havailable).1
  refine ⟨c, List.mem_filterMap.mpr ⟨row, ?_, hc⟩, hsame⟩
  rw [List.mem_insertionSort, List.mem_filter, Bool.and_eq_true, decide_eq_true_eq]
  exact ⟨hrow, hid, havailable⟩

theorem nodup_skillsByIds :
    ((skillsByIds store ids productId domainHint).map fun c => c.row.id).Nodup :=
  @candidates_nodup store _ _
    ((List.perm_insertionSort _ _).subperm.trans List.filter_sublist.subperm)

/-- The rows come in the order of the ids. -/
theorem ordered_skillsByIds : ((skillsByIds store ids productId domainHint).map
    fun c => c.row.id).Pairwise fun a b : Nat =>
        ids.idxOf (a : Int) ≤ ids.idxOf (b : Int) := by
  have hsorted : ((store.skills.rows.filter fun row =>
      (row.id : Int) ∈ ids && available store productId domainHint row).insertionSort fun a b =>
        ids.idxOf (a.id : Int) ≤ ids.idxOf (b.id : Int)).Pairwise fun a b =>
          ids.idxOf (a.id : Int) ≤ ids.idxOf (b.id : Int) :=
    OrderedQuery.pairwise_insertionSort (fun _ _ => Iff.rfl) _
  have hrows := hsorted.sublist (@candidates_sublist (fun _ => 0) _)
  rw [List.pairwise_map] at hrows ⊢
  exact hrows

end Queries

/-! ## What a turn gives -/

section Given

variable (lower : String → String) (settings : SkillSettings) (seen : Set SkillHost)
  (turn : SkillTurn) (item : TurnSkill)

/-- The search for the question of the turn selected the Skill, knowing what the session had
been given. -/
def AutoGiven : Prop :=
  ∃ u ∈ seen, ∃ v ∈ seen, ∃ (c : SkillCandidate) (history : List Dict) (vector : QueryVector)
      (query : String) (repeated : List Int),
    turn.source = .session history vector ∧ searchQuery turn history = .ok query
      ∧ commercialSkillIdsInSession v.messages turn.session = .ok repeated
      ∧ c.row ∈ u.skills.skills.rows ∧ u.skills.retrievable c.row = true
      ∧ PassesSelection lower settings.toSelectionSettings (selectionRequest turn query repeated) c
      ∧ item = ⟨publicSkill c (injectionReason lower query c), .currentAuto⟩

/-- A call of the turn loaded the Skill, within the scope of its tool. -/
def ToolGiven : Prop :=
  ∃ u ∈ seen, ∃ c : SkillCandidate, ∃ batch ∈ turn.batches, ∃ call ∈ batch.calls,
    c.row ∈ u.skills.skills.rows ∧ u.skills.retrievable c.row = true
      ∧ Deliverable lower turn.query ((firstScopeValue call.scope "product_ids").getD
          turn.productId) ((firstScopeValue call.scope "domains").or turn.domainHint) c.row
      ∧ ((normalizeSkillScope call.scope).libraryIds ≠ [] →
        skillScopeWhere (normalizeSkillScope call.scope) c.row = true)
      ∧ item = ⟨publicSkill c "loaded_by_agent_tool", .toolLoaded⟩

/-- The session had been given the Skill, and it is still there for the turn. -/
def SessionGiven : Prop :=
  ∃ u ∈ seen, ∃ v ∈ seen, ∃ (c : SkillCandidate) (ids : List Int),
    sessionLoadedSkillIds v.messages turn.session = .ok ids ∧ (c.row.id : Int) ∈ ids
      ∧ c.row ∈ u.skills.skills.rows
      ∧ available u.skills turn.productId turn.domainHint c.row = true ∧ item = sessionSkill c

/-- Some turn of the session was given the Skill anew. -/
def GivenFirst (session : String) (id : Int) : Prop :=
  ∃ turn : SkillTurn, turn.session = session ∧ (∃ s ∈ seen, turn ∈ s.begun)
    ∧ ∃ item : TurnSkill, (item.id : Int) = id
      ∧ (AutoGiven lower settings seen turn item ∨ ToolGiven lower seen turn item)

/-- The Skills of the session that a turn found, and those of them that it still has, in the order
in which the session was given them. -/
def SessionKept (skills : List TurnSkill) : Prop :=
  ∃ v ∈ seen, ∃ u ∈ seen, ∃ ids : List Int,
    sessionLoadedSkillIds v.messages turn.session = .ok ids
      ∧ (∀ row ∈ u.skills.skills.rows, (row.id : Int) ∈ ids →
        available u.skills turn.productId turn.domainHint row = true →
        ∃ item ∈ skills, item.id = row.id)
      ∧ ((skills.filter fun item => item.availability = .sessionContext).map
        TurnSkill.id).Pairwise fun a b : Nat =>
        ids.idxOf (a : Int) ≤ ids.idxOf (b : Int)

/-- The opening of a turn finds nothing, or the Skills of the search and then those of the
session. -/
def OpensWith (reason : String) (skills : List TurnSkill) : Prop :=
  (skills = [] ∧ (settings.enabled = true → ∀ history vector,
      turn.source = .session history vector → reason = "skill_loader_error"))
    ∨ ∃ v ∈ seen, ∃ u ∈ seen, ∃ (ids : List Int) (auto : List TurnSkill),
      sessionLoadedSkillIds v.messages turn.session = .ok ids
        ∧ (auto.map TurnSkill.id).Nodup
        ∧ (∀ item ∈ auto, AutoGiven lower settings seen turn item)
        ∧ skills = auto ++ ((skillsByIds u.skills ids turn.productId turn.domainHint).map
          sessionSkill).filter fun item => item.id ∉ auto.map TurnSkill.id

end Given

/-- What a turn that has ended was given. -/
structure Delivered (lower : String → String) (settings : SkillSettings) (seen : Set SkillHost)
    (ended : EndedTurn) : Prop where
  begun : ∃ s ∈ seen, ended.turn ∈ s.begun
  distinct : (ended.skills.map TurnSkill.id).Nodup
  given : ∀ item ∈ ended.skills, AutoGiven lower settings seen ended.turn item
    ∨ SessionGiven seen ended.turn item ∨ ToolGiven lower seen ended.turn item
  kept : settings.enabled = true → ∀ history vector,
    ended.turn.source = .session history vector → ended.reason ≠ "skill_loader_error" →
      SessionKept seen ended.turn ended.skills

section Monotone

variable {lower : String → String} {settings : SkillSettings} {seen more : Set SkillHost}
  {turn : SkillTurn} {item : TurnSkill} {ended : EndedTurn}

theorem AutoGiven.mono (hsub : seen ⊆ more) (h : AutoGiven lower settings seen turn item) :
    AutoGiven lower settings more turn item := by
  obtain ⟨u, hu, v, hv, hgiven⟩ := h
  exact ⟨u, hsub hu, v, hsub hv, hgiven⟩

theorem ToolGiven.mono (hsub : seen ⊆ more) (h : ToolGiven lower seen turn item) :
    ToolGiven lower more turn item := by
  obtain ⟨u, hu, hgiven⟩ := h
  exact ⟨u, hsub hu, hgiven⟩

theorem SessionGiven.mono (hsub : seen ⊆ more) (h : SessionGiven seen turn item) :
    SessionGiven more turn item := by
  obtain ⟨u, hu, v, hv, hgiven⟩ := h
  exact ⟨u, hsub hu, v, hsub hv, hgiven⟩

theorem GivenFirst.mono {session : String} {id : Int} (hsub : seen ⊆ more)
    (h : GivenFirst lower settings seen session id) :
    GivenFirst lower settings more session id := by
  obtain ⟨turn, hsession, ⟨s, hs, hbegun⟩, item, hid, hgiven⟩ := h
  exact ⟨turn, hsession, ⟨s, hsub hs, hbegun⟩, item, hid,
    hgiven.imp (AutoGiven.mono hsub) (ToolGiven.mono hsub)⟩

theorem OpensWith.mono {reason : String} {skills : List TurnSkill} (hsub : seen ⊆ more)
    (h : OpensWith lower settings seen turn reason skills) :
    OpensWith lower settings more turn reason skills := by
  refine h.imp_right ?_
  rintro ⟨v, hv, u, hu, ids, auto, hids, hnodup, hauto, hskills⟩
  exact ⟨v, hsub hv, u, hsub hu, ids, auto, hids, hnodup,
    fun item hitem => (hauto item hitem).mono hsub, hskills⟩

theorem Delivered.mono (hsub : seen ⊆ more) (h : Delivered lower settings seen ended) :
    Delivered lower settings more ended where
  begun := by
    obtain ⟨s, hs, hbegun⟩ := h.begun
    exact ⟨s, hsub hs, hbegun⟩
  distinct := h.distinct
  given := fun item hitem => (h.given item hitem).imp (AutoGiven.mono hsub)
    (Or.imp (SessionGiven.mono hsub) (ToolGiven.mono hsub))
  kept := by
    intro henabled history vector hsource hreason
    obtain ⟨v, hv, u, hu, hkept⟩ := h.kept henabled history vector hsource hreason
    exact ⟨v, hsub hv, u, hsub hu, hkept⟩

end Monotone

/-! ### Merging -/

section Merge

variable {skills items : List TurnSkill} {item other : TurnSkill}

theorem mem_mergeToolLoadedSkill : other ∈ mergeToolLoadedSkill skills item
    ↔ other ∈ skills ∧ other.id ≠ item.id ∨ other = item := by
  unfold mergeToolLoadedSkill
  rw [List.mem_append, List.mem_filter, List.mem_singleton, decide_eq_true_eq]

theorem nodup_mergeToolLoadedSkill (h : (skills.map TurnSkill.id).Nodup) :
    ((mergeToolLoadedSkill skills item).map TurnSkill.id).Nodup := by
  unfold mergeToolLoadedSkill
  rw [List.map_append, List.nodup_append]
  refine ⟨h.sublist (List.filter_sublist.map _), List.nodup_singleton _, ?_⟩
  rintro id hid same hsame rfl
  obtain ⟨kept, hkept, rfl⟩ := List.mem_map.mp hid
  have hne := (List.mem_filter.mp hkept).2
  rw [decide_eq_true_eq] at hne
  exact hne (List.mem_singleton.mp hsame)

theorem nodup_merged (h : (skills.map TurnSkill.id).Nodup) :
    ((items.foldl mergeToolLoadedSkill skills).map TurnSkill.id).Nodup := by
  induction items generalizing skills with
  | nil => exact h
  | cons item items ih => exact ih (nodup_mergeToolLoadedSkill h)

theorem mem_merged (h : other ∈ items.foldl mergeToolLoadedSkill skills) :
    other ∈ skills ∨ other ∈ items := by
  induction items generalizing skills with
  | nil => exact .inl h
  | cons item items ih =>
      rcases ih h with hmerged | hlater
      · rcases mem_mergeToolLoadedSkill.mp hmerged with ⟨hold, -⟩ | rfl
        · exact .inl hold
        · exact .inr List.mem_cons_self
      · exact .inr (List.mem_cons_of_mem _ hlater)

/-- No id is lost. -/
theorem exists_merged (h : ∃ kept ∈ skills, kept.id = other.id) :
    ∃ kept ∈ items.foldl mergeToolLoadedSkill skills, kept.id = other.id := by
  induction items generalizing skills with
  | nil => exact h
  | cons item items ih =>
      obtain ⟨kept, hkept, hid⟩ := h
      refine ih ?_
      by_cases hsame : kept.id = item.id
      · exact ⟨item, mem_mergeToolLoadedSkill.mpr (.inr rfl), hsame.symm.trans hid⟩
      · exact ⟨kept, mem_mergeToolLoadedSkill.mpr (.inl ⟨hkept, hsame⟩), hid⟩

/-- Of the Skills of the session none is added. -/
theorem merged_sublist (h : ∀ item ∈ items, item.availability = .toolLoaded) :
    ((items.foldl mergeToolLoadedSkill skills).filter fun item =>
      item.availability = .sessionContext).Sublist
        (skills.filter fun item => item.availability = .sessionContext) := by
  induction items generalizing skills with
  | nil => exact List.Sublist.refl _
  | cons item items ih =>
      obtain ⟨hitem, hitems⟩ := List.forall_mem_cons.mp h
      refine (ih hitems).trans ?_
      unfold mergeToolLoadedSkill
      rw [List.filter_append, List.filter_singleton, hitem]
      simp only [reduceCtorEq, decide_false, cond_false, List.append_nil]
      exact List.filter_sublist.filter _

/-- In the state of the planner, where a Skill is a dictionary with its id. -/
theorem loadedSkills_rendered {render : TurnSkill → Dict}
    (hid : ∀ item, Dict.get (render item) "id" = .int item.id) {result output skill : Dict}
    (houtput : Dict.get result "output" = .obj output)
    (hskill : Dict.get output "skill" = .obj skill)
    (hloaded : (Dict.get output "loaded").truthy = true)
    (hnew : (Dict.get output "already_loaded").truthy = false)
    (hitem : Dict.set skill "availability" (.str "tool_loaded") = render item) :
    loadedSkills (skills.map fun s => .obj (render s)) result
      = .ok (some ((mergeToolLoadedSkill skills item).map fun s => .obj (render s))) := by
  have hkept : (skills.map fun s => Json.obj (render s)).filterM (fun existing => do
      let entries ← getter existing
      return decide (Dict.get entries "id" ≠ Dict.get (render item) "id"))
      = .ok ((skills.filter fun existing => existing.id ≠ item.id).map
        fun s => Json.obj (render s)) := by
    rw [filterM_eq_ok (q := fun existing =>
      decide (Dict.get (existing.asDict?.getD []) "id" ≠ Dict.get (render item) "id")),
      List.filter_map]
    · refine congrArg (fun kept => Except.ok (List.map _ kept)) (List.filter_congr ?_)
      intro existing _
      simp [Json.asDict?, hid]
    · intro existing hexisting
      obtain ⟨s, -, rfl⟩ := List.mem_map.mp hexisting
      rfl
  unfold loadedSkills mergeToolLoadedSkill
  rw [houtput]
  simp only [Json.asDict?, hskill, hloaded, hnew, Bool.not_true, Bool.or_false,
    Bool.false_eq_true, if_false, hitem]
  rw [hkept, List.map_append]
  rfl

end Merge

/-! ### From the opening to the end -/

section Ended

variable {lower : String → String} {settings : SkillSettings} {seen more : Set SkillHost}
  {turn : SkillTurn} {reason : String} {opening items : List TurnSkill}

/-- The Skills of the search come first, and those of the session that it did not select. -/
theorem opening_spec {u : SkillHost} {ids : List Int} {auto : List TurnSkill}
    (hnodup : (auto.map TurnSkill.id).Nodup)
    (hauto : ∀ item ∈ auto, item.availability = .currentAuto)
    (hopening : opening = auto ++ ((skillsByIds u.skills ids turn.productId
      turn.domainHint).map sessionSkill).filter fun item => item.id ∉ auto.map TurnSkill.id) :
    (opening.map TurnSkill.id).Nodup
      ∧ (∀ row ∈ u.skills.skills.rows, (row.id : Int) ∈ ids →
        available u.skills turn.productId turn.domainHint row = true →
        ∃ item ∈ opening, item.id = row.id)
      ∧ ((opening.filter fun item => item.availability = .sessionContext).map
        TurnSkill.id).Pairwise fun a b : Nat =>
        ids.idxOf (a : Int) ≤ ids.idxOf (b : Int) := by
  have hids : ∀ rows : List SkillCandidate,
      (rows.map sessionSkill).map TurnSkill.id = rows.map fun c => c.row.id := by
    intro rows
    rw [List.map_map]
    rfl
  subst hopening
  refine ⟨?_, fun row hrow hid havailable => ?_, ?_⟩
  · rw [List.map_append, List.nodup_append]
    refine ⟨hnodup, ?_, ?_⟩
    · have hrest := @nodup_skillsByIds u.skills turn.productId turn.domainHint ids
      rw [← hids] at hrest
      exact hrest.sublist (List.filter_sublist.map _)
    · rintro id hid same hsame rfl
      obtain ⟨item, hitem, rfl⟩ := List.mem_map.mp hsame
      have hnew := (List.mem_filter.mp hitem).2
      rw [decide_eq_true_eq] at hnew
      exact hnew hid
  · by_cases hselected : row.id ∈ auto.map TurnSkill.id
    · obtain ⟨item, hitem, hsame⟩ := List.mem_map.mp hselected
      exact ⟨item, List.mem_append_left _ hitem, hsame⟩
    · obtain ⟨c, hc, rfl⟩ := exists_mem_skillsByIds hrow hid havailable
      refine ⟨sessionSkill c, List.mem_append_right _ (List.mem_filter.mpr ?_), rfl⟩
      exact ⟨List.mem_map_of_mem hc, decide_eq_true hselected⟩
  · have hnone : auto.filter (fun item => item.availability = .sessionContext) = [] := by
      refine List.filter_eq_nil_iff.mpr fun item hitem => ?_
      rw [hauto item hitem]
      simp
    have hordered := @ordered_skillsByIds u.skills turn.productId turn.domainHint ids
    rw [← hids] at hordered
    rw [List.filter_append, hnone, List.nil_append]
    exact hordered.sublist ((List.filter_sublist.trans List.filter_sublist).map _)

/-- A turn that opens with Skills and loads others. -/
theorem delivered_of_opening (hbegun : ∃ s ∈ seen, turn ∈ s.begun)
    (hopening : OpensWith lower settings seen turn reason opening)
    (hitems : ∀ item ∈ items, ToolGiven lower seen turn item) :
    Delivered lower settings seen ⟨turn, reason, items.foldl mergeToolLoadedSkill opening⟩ := by
  have htools : ∀ item ∈ items, item.availability = .toolLoaded := by
    intro item hitem
    obtain ⟨_, _, _, _, _, _, _, _, _, _, _, rfl⟩ := hitems item hitem
    rfl
  rcases hopening with ⟨rfl, hreason⟩ | ⟨v, hv, u, hu, ids, auto, hids, hnodup, hauto, hopening⟩
  · refine ⟨hbegun, nodup_merged List.nodup_nil, fun item hitem => ?_, ?_⟩
    · rcases mem_merged hitem with hnil | hloaded
      · cases hnil
      · exact .inr (.inr (hitems item hloaded))
    · exact fun henabled history vector hsource hne =>
        absurd (hreason henabled history vector hsource) hne
  · have hautos : ∀ item ∈ auto, item.availability = .currentAuto := by
      intro item hitem
      obtain ⟨_, _, _, _, _, _, _, _, _, _, _, _, _, _, _, rfl⟩ := hauto item hitem
      rfl
    obtain ⟨hdistinct, hkept, hordered⟩ := opening_spec hnodup hautos hopening
    refine ⟨hbegun, nodup_merged hdistinct, fun item hitem => ?_, fun _ _ _ _ _ => ?_⟩
    · rcases mem_merged hitem with hopened | hloaded
      · rw [hopening] at hopened
        rcases List.mem_append.mp hopened with hselected | hsession
        · exact .inl (hauto item hselected)
        · obtain ⟨c, hc, rfl⟩ := List.mem_map.mp (List.mem_of_mem_filter hsession)
          obtain ⟨hrow, hid, havailable⟩ := mem_skillsByIds hc
          exact .inr (.inl ⟨u, hu, v, hv, c, ids, hids, hid, hrow, havailable, rfl⟩)
      · exact .inr (.inr (hitems item hloaded))
    · refine ⟨v, hv, u, hu, ids, hids, fun row hrow hid havailable => ?_, ?_⟩
      · obtain ⟨item, hitem, hsame⟩ := hkept row hrow hid havailable
        obtain ⟨kept, hkept, hid⟩ := exists_merged ⟨item, hitem, rfl⟩
        exact ⟨kept, hkept, hid.trans hsame⟩
      · exact hordered.sublist ((merged_sublist htools).map _)

/-- What the search selects is given by its gates. -/
theorem opensWith_search {u v w x : SkillHost} (hu : u ∈ seen) (hv : v ∈ seen) (hw : w ∈ seen)
    (hx : x ∈ seen) {history : List Dict} {similarity : SkillRow → ℚ} {query : String}
    {ids repeated : List Int} {selected : List PublicSkill} {decisions : List SkillDecision}
    (hsource : turn.source = .session history (.vector similarity))
    (hquery : searchQuery turn history = .ok query)
    (hids : sessionLoadedSkillIds v.messages turn.session = .ok ids)
    (hrepeated : commercialSkillIdsInSession x.messages turn.session = .ok repeated)
    (hselected : selectSkills lower settings.toSelectionSettings
      (selectionRequest turn query repeated) (skillVectorCandidates w.skills similarity
        turn.productId turn.domainHint settings.candidateK) = .ok (selected, decisions)) :
    OpensWith lower settings seen turn reason
      (selected.map (fun skill => TurnSkill.mk skill .currentAuto)
        ++ ((skillsByIds u.skills ids turn.productId turn.domainHint).map sessionSkill).filter
          fun item => item.id ∉ (selected.map fun skill =>
            TurnSkill.mk skill .currentAuto).map TurnSkill.id) := by
  obtain ⟨ranked, hperm, -, hfirst⟩ := (selectSkills_spec hselected).1.first
  refine .inr ⟨v, hv, u, hu, ids, _, hids, ?_, fun item hitem => ?_, rfl⟩
  · have hids : (selected.map fun skill => TurnSkill.mk skill .currentAuto).map TurnSkill.id
        = (ranked.take settings.maxInjected).map fun c => c.row.id := by
      rw [hfirst, List.map_map, List.map_map]
      rfl
    have hcandidates := @nodup_skillVectorCandidates w.skills similarity turn.productId
      turn.domainHint settings.candidateK
    have hranked := ((hperm.map fun c => c.row.id).nodup_iff).mpr
      (hcandidates.sublist (List.filter_sublist.map _))
    rw [hids]
    exact hranked.sublist ((List.take_sublist _ _).map _)
  · obtain ⟨skill, hskill, rfl⟩ := List.mem_map.mp hitem
    rw [hfirst] at hskill
    obtain ⟨c, hc, rfl⟩ := List.mem_map.mp hskill
    obtain ⟨hmem, hpasses⟩ := List.mem_filter.mp (hperm.mem_iff.mp (List.mem_of_mem_take hc))
    obtain ⟨hrow, havailable⟩ := mem_skillVectorCandidates hmem
    exact ⟨w, hw, x, hx, c, history, _, query, repeated, hsource, hquery, hrepeated, hrow,
      (Bool.and_eq_true_iff.mp havailable).1, by simpa using hpasses, rfl⟩

end Ended

/-! ## What the session keeps -/

/-- A row of an answer keeps ids of Skills that its session was given. -/
def RowGiven (lower : String → String) (settings : SkillSettings) (seen : Set SkillHost)
    (row : Dict) : Prop :=
  ∀ session metadata ids, Dict.get row "session_id" = .str session →
    Dict.get row "role" = .str "assistant" →
    (Dict.get row "metadata").asDict? = some metadata → injectedSkillIds metadata = .ok ids →
    ∀ id ∈ ids, GivenFirst lower settings seen session id

/-- The rows that were there at any time. -/
def AllGiven (lower : String → String) (settings : SkillSettings) (seen : Set SkillHost) : Prop :=
  ∀ s ∈ seen, ∀ row ∈ s.messages, RowGiven lower settings seen row

section Stored

variable {lower : String → String} {settings : SkillSettings} {seen more : Set SkillHost}
  {messages : List Dict} {turn : SkillTurn} {skills : List TurnSkill} {ended : EndedTurn}

theorem RowGiven.mono {row : Dict} (hsub : seen ⊆ more) (h : RowGiven lower settings seen row) :
    RowGiven lower settings more row :=
  fun session metadata ids hsession hrole hmetadata hids id hid =>
    (h session metadata ids hsession hrole hmetadata hids id hid).mono hsub

/-- What `load_context` reads was given in the session. -/
theorem given_of_loaded {session : String} {ids : List Int} {id : Int}
    (h : ∀ row ∈ messages, RowGiven lower settings seen row)
    (hsession : normalizeSessionId session = session)
    (hids : sessionLoadedSkillIds messages session = .ok ids) (hid : id ∈ ids) :
    GivenFirst lower settings seen session id := by
  unfold sessionLoadedSkillIds at hids
  split at hids
  · cases hids
    cases hid
  · obtain ⟨all, hall, rfl⟩ := map_eq_ok.mp hids
    obtain ⟨lists, hlists, hflat⟩ := bind_eq_ok.mp hall
    cases hflat
    obtain ⟨part, hpart, hid⟩ :=
      List.mem_flatten.mp ((Grouping.eraseDups_sublist _).subset hid)
    obtain ⟨metadata, hmetadata, hread⟩ := mem_of_mapM_eq_ok hlists hpart
    obtain ⟨row, hrow, hof⟩ := List.mem_filterMap.mp hmetadata
    obtain ⟨hmem, hstored, -⟩ := ContextViews.mem_loadSessionMessages hrow
    split at hof
    · rename_i hrole
      have hstored := of_decide_eq_true hstored
      rw [hsession] at hstored
      exact h row hmem session metadata part hstored hrole hof hread id hid
    · cases hof

theorem keys_learningLineage (metadata : Dict) :
    ∀ key ∈ (learningLineage metadata).map Prod.fst, key ∈ lineageFields.map Prod.snd := by
  unfold learningLineage
  refine List.foldlRecOn (motive := fun result : Dict => ∀ key ∈ result.map Prod.fst,
    key ∈ lineageFields.map Prod.snd) lineageFields _ (fun _ h => absurd h List.not_mem_nil) ?_
  intro result hresult names hnames
  dsimp only
  split
  · intro key hkey
    rw [Dict.keys_set] at hkey
    split at hkey
    · exact hresult key hkey
    · rcases List.mem_append.mp hkey with hold | hnew
      · exact hresult key hold
      · rw [List.mem_singleton.mp hnew]
        exact List.mem_map_of_mem hnames
  · exact hresult

/-- What the lineage and the request say of a run leaves the ids. -/
theorem injectedSkillIds_assistantRow (saved : SavedTurn) :
    Dict.get (Dict.set (Dict.merge saved.runMetadata (learningLineage saved.requestMetadata))
      "request_metadata" (.obj saved.requestMetadata)) "injected_skill_ids"
        = .arr saved.injectedSkillIds := by
  have hkeys : "injected_skill_ids" ∉ (learningLineage saved.requestMetadata).map Prod.fst := by
    intro hmem
    exact absurd (keys_learningLineage _ _ hmem) (by decide)
  rw [Dict.get_set, if_neg (by decide), Dict.get_merge_of_not_mem _ hkeys]
  rfl

/-- The next turn reads the ids that were stored. -/
theorem injectedSkillIds_stored {metadata : Dict} (h : Dict.get metadata "injected_skill_ids"
    = .arr (skills.map fun item => .int item.id)) :
    injectedSkillIds metadata = .ok (skills.map fun item => (item.id : Int)) := by
  have hitems : ∀ items : List Json, pyList ((Json.arr items).orElse (.arr [])) = .ok items := by
    intro items
    cases items <;> rfl
  have hids : (skills.map fun item => Json.int item.id).filterMap skillIdOf
      = skills.map fun item => (item.id : Int) := by
    rw [List.filterMap_map]
    exact congrFun List.filterMap_eq_map skills
  unfold injectedSkillIds
  rw [h, hitems, ← hids]
  rfl

theorem rowGiven_asked : RowGiven lower settings seen turn.saved.userRow := by
  intro session metadata ids _ hrole
  exact absurd (Json.str.inj hrole) (by decide)

theorem rowGiven_answer
    (h : ∀ item ∈ skills, GivenFirst lower settings seen turn.session item.id) :
    RowGiven lower settings seen (turn.savedWith skills).assistantRow := by
  intro session metadata ids hsession _ hmetadata hids id hid
  have hsame : turn.session = session := Json.str.inj hsession
  cases hmetadata
  rw [injectedSkillIds_stored (injectedSkillIds_assistantRow _)] at hids
  cases hids
  obtain ⟨item, hitem, rfl⟩ := List.mem_map.mp hid
  rw [← hsame]
  exact h item hitem

theorem mem_upsertMessage {row old : Dict} (h : old ∈ upsertMessage messages row) :
    old ∈ messages ∨ old = row := by
  unfold upsertMessage at h
  split at h
  · obtain ⟨same, hsame, rfl⟩ := List.mem_map.mp h
    split
    · exact .inr rfl
    · exact .inl hsame
  · exact (List.mem_append.mp h).imp_right List.mem_singleton.mp

theorem givenFirst_of_delivered (h : Delivered lower settings seen ended)
    (hstored : AllGiven lower settings seen) {item : TurnSkill} (hitem : item ∈ ended.skills) :
    GivenFirst lower settings seen ended.turn.session item.id := by
  rcases h.given item hitem with hauto | hsession | htool
  · exact ⟨ended.turn, rfl, h.begun, item, rfl, .inl hauto⟩
  · obtain ⟨u, -, v, hv, c, ids, hids, hid, -, -, rfl⟩ := hsession
    exact given_of_loaded (hstored v hv) (normalizeSessionId_again _) hids hid
  · exact ⟨ended.turn, rfl, h.begun, item, rfl, .inr htool⟩

end Stored

/-! ## The queries of a turn -/

/-- What a turn writes: that it has begun, its question, and its answer with the Skills that it
was given. -/
inductive SkillWrite (lower : String → String) (settings : SkillSettings) (seen : Set SkillHost)
    (s : SkillHost) : SkillHost → Prop where
  | begun (turn : SkillTurn) :
      SkillWrite lower settings seen s { s with begun := s.begun ++ [turn] }
  | asked (turn : SkillTurn) : SkillWrite lower settings seen s
      { s with messages := upsertMessage s.messages turn.saved.userRow }
  | answered (ended : EndedTurn) (h : Delivered lower settings seen ended) :
      SkillWrite lower settings seen s { s with
        messages := upsertMessage s.messages (ended.turn.savedWith ended.skills).assistantRow }

theorem SkillWrite.mono {lower : String → String} {settings : SkillSettings}
    {seen more : Set SkillHost} {s s' : SkillHost} (hsub : seen ⊆ more)
    (h : SkillWrite lower settings seen s s') : SkillWrite lower settings more s s' := by
  cases h with
  | begun turn => exact .begun turn
  | asked turn => exact .asked turn
  | answered ended h => exact .answered ended (h.mono hsub)

section Queried

open Task

variable {lower : String → String} {settings : SkillSettings} {seen : Set SkillHost}
  {turn : SkillTurn} {history : List Dict} {vector : QueryVector} {sessionSkills : List TurnSkill}

/-- The Skills are those of the session that are still there. -/
def SessionRead (settings : SkillSettings) (seen : Set SkillHost) (turn : SkillTurn)
    (skills : List TurnSkill) : Prop :=
  settings.enabled = true → ∃ v ∈ seen, ∃ u ∈ seen, ∃ ids : List Int,
    sessionLoadedSkillIds v.messages turn.session = .ok ids
      ∧ skills = (skillsByIds u.skills ids turn.productId turn.domainHint).map sessionSkill

theorem skillsByIds_nil (store : SkillStore) (productId : String) (domainHint : Option String) :
    skillsByIds store [] productId domainHint = [] := by
  unfold skillsByIds
  simp

theorem always_loadContext (hseen : seen.Nonempty) :
    (loadContext settings turn).Always (SkillWrite lower settings)
      (fun seen skills => SessionRead settings seen turn skills) seen := by
  unfold loadContext
  split
  · refine always_bind (always_read_seen _) ?_
    rintro seen₁ found hsub₁ ⟨v, hv, hfound⟩
    refine always_bind (Q := fun _ ids => found = .ok ids) (always_ofExcept fun _ h => h) ?_
    rintro seen₂ ids hsub₂ rfl
    dsimp only
    split
    · rename_i hnil
      refine always_pure fun _ => ⟨v, hsub₂ hv, v, hsub₂ hv, ids, hfound, ?_⟩
      rw [hnil, skillsByIds_nil]
    · refine always_bind (always_read_seen _) ?_
      rintro seen₃ rows hsub₃ ⟨u, hu, rfl⟩
      exact always_pure fun _ => ⟨v, hsub₃ (hsub₂ hv), u, hu, ids, hfound, rfl⟩
  · rename_i hskipped
    refine always_pure fun henabled => ?_
    have hsession : turn.session = "" := by simpa [henabled] using hskipped
    obtain ⟨s, hs⟩ := hseen
    refine ⟨s, hs, s, hs, [], ?_, ?_⟩
    · rw [hsession]
      rfl
    · rw [skillsByIds_nil]
      rfl

/-- Without a search, the turn opens with the Skills of the session. -/
theorem SessionRead.opens (h : SessionRead settings seen turn sessionSkills)
    (henabled : settings.enabled = true) (reason : String) :
    OpensWith lower settings seen turn reason sessionSkills := by
  obtain ⟨v, hv, u, hu, ids, hids, rfl⟩ := h henabled
  refine .inr ⟨v, hv, u, hu, ids, [], hids, List.nodup_nil, fun item hitem => (nomatch hitem), ?_⟩
  simp

theorem always_loadSkills (hread : SessionRead settings seen turn sessionSkills)
    (hsource : turn.source = .session history vector) :
    (loadSkills lower settings turn history vector sessionSkills).Always
      (SkillWrite lower settings)
      (fun seen result => ∀ retrieval, result = .ok retrieval →
        OpensWith lower settings seen turn retrieval.reason retrieval.skills) seen := by
  unfold loadSkills
  split
  · exact always_pure fun _ h => (nomatch h)
  · rename_i query hquery
    dsimp only
    split
    · rename_i hdisabled
      refine always_pure ?_
      rintro retrieval ⟨⟩
      exact .inl ⟨rfl, fun henabled => by simp [henabled] at hdisabled⟩
    · rename_i hdisabled
      have henabled : settings.enabled = true := by simpa using hdisabled
      refine always_bind (Q := fun _ _ => True) (always_read fun _ => trivial)
        fun seen₁ found hsub₁ _ => ?_
      have hskipped : ∀ reason, OpensWith lower settings seen₁ turn reason sessionSkills :=
        fun reason => (hread.opens henabled reason).mono hsub₁
      split
      · refine always_pure ?_
        rintro retrieval ⟨⟩
        exact hskipped _
      · cases vector with
        | unavailable errorType =>
            refine always_pure ?_
            rintro retrieval ⟨⟩
            exact hskipped _
        | failed => exact always_pure fun _ h => (nomatch h)
        | vector similarity =>
            refine always_bind (always_read_seen _) ?_
            rintro seen₂ candidates hsub₂ ⟨w, hw, rfl⟩
            refine always_bind (always_read_seen _) ?_
            rintro seen₃ repeated hsub₃ ⟨x, hx, hrepeated⟩
            split
            · exact always_pure fun _ h => (nomatch h)
            · split
              · exact always_pure fun _ h => (nomatch h)
              · rename_i selected decisions hselected
                refine always_pure ?_
                rintro retrieval ⟨⟩
                obtain ⟨v, hv, u, hu, ids, hids, rfl⟩ := hread henabled
                have hsub := hsub₁.trans (hsub₂.trans hsub₃)
                exact opensWith_search (hsub hu) (hsub hv) (hsub₃ hw) hx hsource hquery hids
                  hrepeated hselected

theorem always_loadSkillsNode (hread : SessionRead settings seen turn sessionSkills)
    (hsource : turn.source = .session history vector) :
    (loadSkillsNode lower settings turn history vector sessionSkills).Always
      (SkillWrite lower settings)
      (fun seen retrieval => OpensWith lower settings seen turn retrieval.reason retrieval.skills)
      seen := by
  unfold loadSkillsNode
  refine always_bind (always_loadSkills hread hsource) fun seen₁ result _ hresult => ?_
  split
  · exact always_pure (hresult _ rfl)
  · exact always_pure (.inl ⟨rfl, fun _ _ _ _ => rfl⟩)

theorem always_openingSkills (hseen : seen.Nonempty) :
    (openingSkills lower settings turn).Always (SkillWrite lower settings)
      (fun seen retrieval => OpensWith lower settings seen turn retrieval.reason retrieval.skills)
      seen := by
  unfold openingSkills
  split
  · rename_i hsource
    exact always_bind (always_loadContext hseen) fun _ _ _ hread =>
      always_loadSkillsNode hread hsource
  · rename_i hsource
    unfold loadConfiguredSkills
    refine always_bind (Q := fun _ _ => True) (always_read fun _ => trivial)
      fun _ _ _ _ => always_pure (.inl ⟨rfl, fun _ history vector hsession => ?_⟩)
    rw [hsource] at hsession
    cases hsession

/-! ### The calls of `load_skill` -/

variable {batch : LoadBatch} {calls : List LoadCall} {batches : List LoadBatch}
  {index : List SkillIndexItem} {skills : List TurnSkill}

theorem findSkill_of_loadSkill {store : SkillStore} {request : LoadSkillRequest} {scope : Dict}
    {load : SkillLoad} {row : SkillRow} (h : loadSkill lower store request scope = .ok load)
    (hrow : load.skill? = some row) :
    findSkill store (strip request.name) ((firstScopeValue scope "product_ids").getD
      request.productId) ((firstScopeValue scope "domains").or request.domainHint) scope
        = some row := by
  unfold loadSkill loadSkillByName at h
  split at h
  · cases h
    cases hrow
  · split at h
    · cases h
      cases hrow
    · rename_i found hfound
      cases skill_of_loadFound h hrow
      exact hfound

theorem toolGiven_of_loaded {u : SkillHost} {call : LoadCall} {item : TurnSkill} (hu : u ∈ seen)
    (hbatch : batch ∈ turn.batches) (hcall : call ∈ batch.calls)
    (h : loadedNow (loadCalled lower turn u.skills index skills call) = some item) :
    ToolGiven lower seen turn item := by
  unfold loadedNow at h
  split at h
  · rename_i row hload
    obtain ⟨c, hc, rfl⟩ := Option.map_eq_some_iff.mp h
    unfold loadCalled at hload
    obtain ⟨hretrievable, hscope⟩ := skill_of_loadSkill hload rfl
    have hfound := findSkill_of_loadSkill hload rfl
    unfold loadSkill at hload
    rw [← candidateOf_row hc] at hretrievable hscope hfound hload
    exact ⟨u, hu, c, batch, hbatch, call, hcall, List.mem_of_find?_eq_some hfound, hretrievable,
      loaded_deliverable hload, hscope, rfl⟩
  · cases h

theorem always_runCalls (hbatch : batch ∈ turn.batches) (hcalls : calls ⊆ batch.calls) :
    (runCalls lower turn index skills calls).Always (SkillWrite lower settings)
      (fun seen results => ∀ item, some item ∈ results → ToolGiven lower seen turn item)
      seen := by
  induction calls generalizing seen with
  | nil => exact always_pure fun item h => (nomatch h)
  | cons call calls ih =>
      refine always_bind (always_read_seen _) ?_
      rintro seen₁ load hsub₁ ⟨u, hu, rfl⟩
      refine always_bind (ih fun x hx => hcalls (List.mem_cons_of_mem _ hx)) ?_
      intro seen₂ results hsub₂ hresults
      refine always_pure fun item hitem => ?_
      rcases List.mem_cons.mp hitem with hfirst | hlater
      · exact toolGiven_of_loaded (hsub₂ hu) hbatch (hcalls List.mem_cons_self) hfirst.symm
      · exact hresults item hlater

theorem always_runBatches (hbatches : batches ⊆ turn.batches) :
    (runBatches lower turn index skills batches).Always (SkillWrite lower settings)
      (fun seen result => ∃ items : List TurnSkill, (∀ item ∈ items, ToolGiven lower seen turn item)
        ∧ result = items.foldl mergeToolLoadedSkill skills) seen := by
  induction batches generalizing seen skills with
  | nil => exact always_pure ⟨[], fun item h => (nomatch h), rfl⟩
  | cons batch batches ih =>
      refine always_bind (always_runCalls (hbatches List.mem_cons_self) fun _ h => h) ?_
      intro seen₁ results hsub₁ hresults
      refine Always.imp ?_ (ih fun x hx => hbatches (List.mem_cons_of_mem _ hx))
      rintro seen₂ result hsub₂ ⟨items, hitems, rfl⟩
      refine ⟨(batch.order.filterMap fun place => (results[place]?).join) ++ items, ?_,
        (List.foldl_append ..).symm⟩
      intro item hitem
      rcases List.mem_append.mp hitem with hfirst | hlater
      · obtain ⟨place, -, hplace⟩ := List.mem_filterMap.mp hfirst
        exact (hresults item (List.mem_of_getElem? (Option.join_eq_some_iff.mp hplace))).mono hsub₂
      · exact hitems item hlater

theorem always_runTurn : (runTurn lower settings turn).Always (SkillWrite lower settings)
    (fun seen ended => Delivered lower settings seen ended) seen := by
  unfold runTurn
  refine always_bind (Q := fun seen _ => ∃ s ∈ seen, turn ∈ s.begun)
    (always_write_seen fun s s' hs => ?_) ?_
  · obtain rfl := Except.ok.inj hs
    exact ⟨.begun turn, _, Set.mem_insert _ _,
      List.mem_append_right _ (List.mem_singleton.mpr rfl)⟩
  rintro seen₁ - hsub₁ ⟨s, hs, hbegun⟩
  refine always_bind (always_openingSkills ⟨s, hs⟩) fun seen₂ retrieval hsub₂ hopening => ?_
  refine always_bind (always_runBatches fun _ h => h) ?_
  rintro seen₃ skills hsub₃ ⟨items, hitems, rfl⟩
  have hdelivered := delivered_of_opening ⟨s, hsub₃ (hsub₂ hs), hbegun⟩ (hopening.mono hsub₃)
    hitems
  refine always_bind (always_write fun s s' hs => ?_) fun seen₄ _ hsub₄ _ => ?_
  · obtain rfl := Except.ok.inj hs
    exact .asked turn
  refine always_bind (always_write fun s s' hs => ?_) fun seen₅ _ hsub₅ _ => ?_
  · obtain rfl := Except.ok.inj hs
    exact .answered ⟨turn, retrieval.reason, items.foldl mergeToolLoadedSkill retrieval.skills⟩
      (hdelivered.mono (hsub₄.trans (Set.subset_insert _ _)))
  · exact always_pure (hdelivered.mono (hsub₄.trans hsub₅))

end Queried

/-! ## Every order of the turns -/

section Run

variable {lower : String → String} {settings : SkillSettings} {seen : Set SkillHost}
  {s s' : SkillHost}

theorem AllGiven.insert (h : AllGiven lower settings seen)
    (hrows : ∀ row ∈ s'.messages, RowGiven lower settings seen row) :
    AllGiven lower settings (insert s' seen) := by
  rintro v (rfl | hv) row hrow
  · exact (hrows row hrow).mono (Set.subset_insert _ _)
  · exact (h v hv row hrow).mono (Set.subset_insert _ _)

/-- Each write keeps what the rows say. -/
theorem allGiven_write (hs : s ∈ seen) (h : AllGiven lower settings seen)
    (hwrite : SkillWrite lower settings seen s s') :
    AllGiven lower settings (insert s' seen) := by
  refine h.insert fun row hrow => ?_
  cases hwrite with
  | begun turn => exact h s hs row hrow
  | asked turn =>
      rcases mem_upsertMessage hrow with hold | rfl
      · exact h s hs row hold
      · exact rowGiven_asked
  | answered ended hdelivered =>
      rcases mem_upsertMessage hrow with hold | rfl
      · exact h s hs row hold
      · exact rowGiven_answer fun item hitem => givenFirst_of_delivered hdelivered h hitem

theorem allGiven_change {skills : SkillStore} (hs : s ∈ seen) (h : AllGiven lower settings seen)
    (hchange : s.change skills = some s') : AllGiven lower settings (insert s' seen) := by
  cases hchange
  exact h.insert (h s hs)

end Run

/-- The turns that arrive, and the Skills that change. -/
def skillsStep (lower : String → String) (settings : SkillSettings) :=
  Pool.step (runTurn lower settings) SkillHost.change

/-- The states of a run from a host without messages. -/
def SkillsSeen (lower : String → String) (settings : SkillSettings) (skills : SkillStore)
    (turns : List (Interleaved.Turn SkillTurn SkillStore)) : Set SkillHost :=
  Seen (runTurn lower settings) SkillHost.change ⟨⟨skills, [], []⟩, []⟩ turns

/-- The states that the queries of one turn met. -/
def SkillsMet (lower : String → String) (settings : SkillSettings) (skills : SkillStore)
    (turns : List (Interleaved.Turn SkillTurn SkillStore)) (i : Nat) : Set SkillHost :=
  Met (runTurn lower settings) SkillHost.change ⟨⟨skills, [], []⟩, []⟩ turns i

/-- Turns of any sessions interleave, and the Skills change. A turn that has ended has each of its
Skills once: from a search with its gates, from a call within its scope, or because its session
was given it so before, and none of those is left out while it is there. What is stored of a
session was given in it. -/
theorem session_skills {lower : String → String} {settings : SkillSettings} {skills : SkillStore}
    {turns : List (Interleaved.Turn SkillTurn SkillStore)}
    {p : Pool SkillHost ContextError EndedTurn}
    (h : Runs.run (skillsStep lower settings) ⟨⟨skills, [], []⟩, []⟩ turns = some p) :
    (∀ i ended, p.tasks[i]? = some (.returned ended) →
      Delivered lower settings (SkillsMet lower settings skills turns i) ended
        ∧ ∀ item ∈ ended.skills, GivenFirst lower settings (SkillsSeen lower settings skills turns)
          ended.turn.session item.id)
      ∧ ∀ sessionId ids,
        sessionLoadedSkillIds p.state.messages (normalizeSessionId sessionId) = .ok ids →
        ∀ id ∈ ids, GivenFirst lower settings (SkillsSeen lower settings skills turns)
          (normalizeSessionId sessionId) id := by
  have hmono : ∀ (seen more : Set SkillHost) (s s' : SkillHost), seen ⊆ more →
      SkillWrite lower settings seen s s' → SkillWrite lower settings more s s' :=
    fun _ _ _ _ hsub hwrite => hwrite.mono hsub
  have hended : ∀ (seen more : Set SkillHost) (ended : EndedTurn), seen ⊆ more →
      Delivered lower settings seen ended → Delivered lower settings more ended :=
    fun _ _ _ hsub hdelivered => hdelivered.mono hsub
  have hrun := pool_always (I := fun seen s => s ∈ seen ∧ AllGiven lower settings seen) hmono hended
    (fun _ _ => always_runTurn)
    (fun hs hwrite => ⟨Set.mem_insert _ _, allGiven_write hs.1 hs.2 hwrite⟩)
    (fun hs hchange => ⟨Set.mem_insert _ _, allGiven_change hs.1 hs.2 hchange⟩)
    ⟨rfl, fun _ hs row hrow => by cases hs; cases hrow⟩ h
  obtain ⟨⟨hhere, hstored⟩, htasks⟩ := hrun
  refine ⟨fun i ended hreturned => ⟨?_, fun item hitem => ?_⟩, fun sessionId ids hids id hid => ?_⟩
  · exact pool_met hmono hended (fun _ _ => always_runTurn) h hreturned
  · exact givenFirst_of_delivered (htasks _ (List.mem_of_getElem? hreturned)) hstored hitem
  · exact given_of_loaded (hstored _ hhere) (normalizeSessionId_again _) hids hid

section Example

/-! A run of an Agent loads a Skill; the next question of the session finds it. -/

def keptScope : Dict := [("skill_library_ids", .arr [.str "lib"])]

def keptStore : SkillStore := openStore (openSkill none none (some "lib"))

def keptSettings : SkillSettings :=
  { membershipSettings with enabled := true, candidateK := 12 }

def loadingTurn : SkillTurn where
  saved := sampleTurn "s1" "t1"
  productId := "aicoin"
  domainHint := none
  source := .scoped keptScope fun _ => true
  batches := [⟨[⟨"s", keptScope⟩], [0]⟩]

def laterTurn : SkillTurn where
  saved := sampleTurn "s2" "t2"
  productId := "aicoin"
  domainHint := none
  source := .session [] (.unavailable "TimeoutError")
  batches := []

def keptTurns : List (Interleaved.Turn SkillTurn SkillStore) :=
  [.arrive loadingTurn, .turn 0, .turn 0, .turn 0, .turn 0, .arrive laterTurn, .turn 1, .turn 0,
    .turn 1, .turn 1, .turn 1, .turn 1, .turn 1]

theorem session_skills_kept :
    ∃ p ended, Runs.run (skillsStep id keptSettings) ⟨⟨keptStore, [], []⟩, []⟩ keptTurns = some p
      ∧ p.tasks[1]? = some (.returned ended)
      ∧ ended.skills.map TurnSkill.availability = [.sessionContext]
      ∧ Delivered id keptSettings (SkillsMet id keptSettings keptStore keptTurns 1) ended
      ∧ ∀ item ∈ ended.skills, GivenFirst id keptSettings
        (SkillsSeen id keptSettings keptStore keptTurns) ended.turn.session item.id := by
  have hkept : ((Runs.run (skillsStep id keptSettings) ⟨⟨keptStore, [], []⟩, []⟩ keptTurns).bind
      fun p => (p.tasks[1]?.bind Task.result?).map fun ended =>
        ended.skills.map TurnSkill.availability) = some [.sessionContext] := by decide +kernel
  obtain ⟨p, hp, hresult⟩ := Option.bind_eq_some_iff.mp hkept
  obtain ⟨ended, hended, hskills⟩ := Option.map_eq_some_iff.mp hresult
  obtain ⟨task, htask, hreturned⟩ := Option.bind_eq_some_iff.mp hended
  rw [Task.result?_eq_some hreturned] at htask
  obtain ⟨hdelivered, hgiven⟩ := (session_skills hp).1 1 ended htask
  exact ⟨p, ended, hp, htask, hskills, hdelivered, hgiven⟩

end Example

end SessionSkills

end Aegora
