import Mathlib.Data.Rat.Defs
import Mathlib.Algebra.Order.Ring.Rat
import Aegora.SkillDrafts

/-!
# Procedural memories

`procedural_learning.py`: the gate that decides whether a cluster of
successful conversations may become a Skill, and the table that keeps one
row for every Agent and fingerprint. A double is the rational it stands for;
`divide` is the division of two counts.

What a run does to a row is decided by the `CASE` of the upsert, which is
`upsertStatus` here; `statusOf_upsert` and `statusOf_markSkillDrafted` are
what the rest uses of the table.
-/

namespace Aegora

open Py

structure LearningEnv extends SkillEnv where
  divide : Nat → Nat → ℚ
  /-- The `repr` of `round(x, 6)`. -/
  reprRounded : ℚ → String

/-- Exact division. -/
def exactEnv : LearningEnv where
  toSkillEnv := plainEnv
  divide := fun a b => a / b
  reprRounded := fun _ => "0.0"

/-- A cluster of user messages of one Agent. -/
structure Cluster where
  agentId : String
  key : String
  title : String
  count : Nat
  positiveCount : Nat
  negativeCount : Nat
  examples : List String
  successfulResponseExamples : List String
  sourceTraceIds : List String
  positiveTraceIds : List String
  proposeSkills : Bool
  requiresHumanReview : Bool
deriving DecidableEq

/-- The thresholds of the gate; other values are refused when it is built. -/
structure ProceduralPromotionPolicy where
  minOccurrences : Int := 3
  minPositiveFeedback : Int := 2
  maxNegativeRatio : ℚ := 0
  occurrences_ok : 2 ≤ minOccurrences := by decide
  feedback_ok : 1 ≤ minPositiveFeedback := by decide
  ratio_ok : 0 ≤ maxNegativeRatio ∧ maxNegativeRatio ≤ 1 := by decide

def defaultPromotionPolicy : ProceduralPromotionPolicy := {}

/-! ## The gate -/

inductive PromotionStatus where
  | eligible
  | blocked
deriving DecidableEq, Repr

def proceduralSafetyTerms : List String :=
  ["password", "密码", "token", "api key", "apikey", "secret", "私钥", "身份证", "银行卡"]

/-- `_unique_strings`. -/
def uniqueStrings (values : List String) : List String :=
  ((values.map strip).filter (· ≠ "")).eraseDups

/-- `_clean_examples`. -/
def cleanExamples (values : List String) : List String :=
  uniqueStrings (((values.map strip).filter (· ≠ "")).map (takeText 1200))

/-- The examples mention something that must not be kept. -/
def sensitiveExamples (lower : String → String) (examples : List String) : Bool :=
  proceduralSafetyTerms.any (occursIn · (lower (" ".intercalate examples)))

/-- `procedural_promotion_decision`. -/
def proceduralPromotionDecision (lower : String → String) (policy : ProceduralPromotionPolicy)
    (agentId : String) (examples : List String)
    (evidenceCount positiveCount negativeCount : Nat) (negativeRatio : ℚ)
    (strategyExampleCount : Nat) (proposeSkills : Bool) : PromotionStatus × String :=
  if sensitiveExamples lower examples then (.blocked, "sensitive_evidence")
  else if agentId = "legacy" then (.blocked, "agent_identity_required")
  else if !proposeSkills then (.blocked, "learning_policy_disallows_skill_proposal")
  else if evidenceCount < policy.minOccurrences then (.blocked, "insufficient_repetition")
  else if positiveCount < policy.minPositiveFeedback then
    (.blocked, "insufficient_positive_feedback")
  else if strategyExampleCount < policy.minPositiveFeedback then
    (.blocked, "successful_response_evidence_missing")
  else if negativeCount ≠ 0 ∧ policy.maxNegativeRatio < negativeRatio then
    (.blocked, "negative_feedback_conflict")
  else (.eligible, "promotion_gate_passed")

/-- `procedural_fingerprint`. -/
def proceduralFingerprint (env : LearningEnv) (agentId clusterKey : String) : String :=
  env.sha256 (strip agentId ++ "\n" ++ env.lower (strip clusterKey))

/-! ## `build_procedural_item` -/

structure ProceduralItem where
  agentId : String
  fingerprint : String
  clusterKey : String
  clusterTitle : String
  promotionStatus : PromotionStatus
  promotionReason : String
  count : Nat
  evidenceCount : Nat
  positiveCount : Nat
  negativeCount : Nat
  negativeRatio : String
  examples : List String
  successfulResponseExamples : List String
  sourceTraceIds : List String
  positiveTraceIds : List String
  sourceMemoryCandidateIds : List Int := []
  proposeSkills : Bool
  proceduralMemoryId : Option Nat := none
deriving DecidableEq

namespace Cluster

variable (c : Cluster)

/-- `int(cluster.get("positive_count") or len(positive_trace_ids))`. -/
def positives : Nat :=
  if c.positiveCount ≠ 0 then c.positiveCount else (uniqueStrings c.positiveTraceIds).length

/-- The share of negative feedback, as the gate compares it. -/
def negativeRatio (env : LearningEnv) : ℚ :=
  if c.positives + c.negativeCount ≠ 0 then
    env.divide c.negativeCount (c.positives + c.negativeCount)
  else 0

/-- `str(cluster.get("agent_id") or "legacy")`. -/
def agent : String := if c.agentId = "" then "legacy" else c.agentId

/-- The fingerprint its memory has. -/
def fingerprint (env : LearningEnv) : String :=
  proceduralFingerprint env c.agent (if c.key = "" then c.title else c.key)

/-- The gate's decision on a cluster. -/
def decision (env : LearningEnv) (policy : ProceduralPromotionPolicy) : PromotionStatus × String :=
  proceduralPromotionDecision env.lower policy c.agent (cleanExamples c.examples)
    (uniqueStrings c.sourceTraceIds).length c.positives c.negativeCount (c.negativeRatio env)
    (cleanExamples c.successfulResponseExamples).length c.proposeSkills

end Cluster

/-- `build_procedural_item`. -/
def buildProceduralItem (env : LearningEnv) (policy : ProceduralPromotionPolicy) (c : Cluster) :
    ProceduralItem where
  agentId := c.agent
  fingerprint := c.fingerprint env
  clusterKey := c.key
  clusterTitle := takeText 160 (if c.title = "" then "procedural memory" else c.title)
  promotionStatus := (c.decision env policy).1
  promotionReason := (c.decision env policy).2
  count := if c.count ≠ 0 then c.count else (uniqueStrings c.sourceTraceIds).length
  evidenceCount := (uniqueStrings c.sourceTraceIds).length
  positiveCount := c.positives
  negativeCount := c.negativeCount
  negativeRatio := env.reprRounded (c.negativeRatio env)
  examples := (cleanExamples c.examples).take 5
  successfulResponseExamples := (cleanExamples c.successfulResponseExamples).take 5
  sourceTraceIds := (uniqueStrings c.sourceTraceIds).take 50
  positiveTraceIds := (uniqueStrings c.positiveTraceIds).take 50
  proposeSkills := c.proposeSkills

/-! ## `procedural_memories` -/

inductive ProceduralStatus where
  | candidate
  | blocked
  | conflicted
  | skillDrafted
  | rejected
deriving DecidableEq, Repr

/-- The Agent and the fingerprint. -/
abbrev MemoryKey := String × String

structure ProceduralRow where
  id : Nat
  agentId : String
  fingerprint : String
  clusterKey : String
  title : String
  status : ProceduralStatus
  promotionReason : String
  evidenceCount : Nat
  positiveCount : Nat
  negativeCount : Nat
  negativeRatio : String
  sourceTraceIds : List String
  positiveTraceIds : List String
  sourceMemoryCandidateIds : List Int
  examples : List String
  strategyExamples : List String
  promotedSkillName : Option String := none
  skillDraftId : Option String := none
deriving DecidableEq

def ProceduralRow.key (row : ProceduralRow) : MemoryKey := (row.agentId, row.fingerprint)

def ProceduralItem.key (item : ProceduralItem) : MemoryKey := (item.agentId, item.fingerprint)

/-- `can_create_skill_draft`. -/
def canCreateSkillDraft (row : ProceduralRow) : Bool :=
  row.status = .candidate && row.promotedSkillName.getD "" = "" && row.skillDraftId.getD "" = ""

/-- The status an item asks for. -/
def ProceduralItem.desiredStatus (item : ProceduralItem) : ProceduralStatus :=
  match item.promotionStatus with
  | .eligible => .candidate
  | .blocked => .blocked

/-- The `CASE` of the upsert. -/
def upsertStatus (old excluded : ProceduralStatus) : ProceduralStatus :=
  if excluded = .blocked ∧ old = .skillDrafted then .conflicted
  else if old = .skillDrafted ∨ old = .rejected then old
  else excluded

/-- The row an item inserts. -/
def ProceduralItem.insertedRow (item : ProceduralItem) (id : Nat) : ProceduralRow where
  id := id
  agentId := item.agentId
  fingerprint := item.fingerprint
  clusterKey := item.clusterKey
  title := item.clusterTitle
  status := item.desiredStatus
  promotionReason := item.promotionReason
  evidenceCount := item.evidenceCount
  positiveCount := item.positiveCount
  negativeCount := item.negativeCount
  negativeRatio := item.negativeRatio
  sourceTraceIds := item.sourceTraceIds
  positiveTraceIds := item.positiveTraceIds
  sourceMemoryCandidateIds := item.sourceMemoryCandidateIds
  examples := item.examples
  strategyExamples := item.successfulResponseExamples

/-- `DO UPDATE SET`: identity and lineage of the row stay. -/
def ProceduralItem.updatedRow (item : ProceduralItem) (row : ProceduralRow) : ProceduralRow :=
  { item.insertedRow row.id with
    status := upsertStatus row.status item.desiredStatus
    promotedSkillName := row.promotedSkillName
    skillDraftId := row.skillDraftId }

/-- One row for every Agent and fingerprint. -/
structure ProceduralTable where
  rows : List ProceduralRow
  nextId : Nat
  unique : (rows.map ProceduralRow.key).Nodup

namespace ProceduralTable

def empty : ProceduralTable := ⟨[], 1, List.nodup_nil⟩

def find (t : ProceduralTable) (key : MemoryKey) : Option ProceduralRow :=
  t.rows.find? fun row => decide (row.key = key)

def statusOf (t : ProceduralTable) (key : MemoryKey) : Option ProceduralStatus :=
  (t.find key).map ProceduralRow.status

/-- An update that leaves the keys as they are. -/
def mapRows (t : ProceduralTable) (f : ProceduralRow → ProceduralRow)
    (h : ∀ row, (f row).key = row.key) : ProceduralTable where
  rows := t.rows.map f
  nextId := t.nextId
  unique := by
    rw [List.map_map, show ProceduralRow.key ∘ f = ProceduralRow.key from funext h]
    exact t.unique

theorem find_mapRows (t : ProceduralTable) {f : ProceduralRow → ProceduralRow}
    (h : ∀ row, (f row).key = row.key) (key : MemoryKey) :
    (t.mapRows f h).find key = (t.find key).map f := by
  have hcomp : (fun row => decide (row.key = key)) ∘ f = fun row => decide (row.key = key) :=
    funext fun row => by rw [Function.comp_apply, h row]
  unfold mapRows find
  rw [List.find?_map, hcomp]

theorem key_of_find {t : ProceduralTable} {key : MemoryKey} {row : ProceduralRow}
    (h : t.find key = some row) : row.key = key := by
  simpa using List.find?_some h

/-- The row of the item's memory takes over what the item says. -/
def applyItem (item : ProceduralItem) (row : ProceduralRow) : ProceduralRow :=
  if row.key = item.key then item.updatedRow row else row

theorem applyItem_key (item : ProceduralItem) (row : ProceduralRow) :
    (applyItem item row).key = row.key := by
  unfold applyItem
  split
  · rename_i hkey
    rw [hkey]
    rfl
  · rfl

def insert (t : ProceduralTable) (item : ProceduralItem) (h : t.find item.key = none) :
    ProceduralTable where
  rows := t.rows ++ [item.insertedRow t.nextId]
  nextId := t.nextId + 1
  unique := by
    rw [List.map_append, List.nodup_append]
    refine ⟨t.unique, List.nodup_singleton _, ?_⟩
    rintro key hmem other hother rfl
    obtain ⟨row, hrow, hkey⟩ := List.mem_map.mp hmem
    have hitem : key = item.key := List.mem_singleton.mp hother
    have hmiss := List.find?_eq_none.mp h row hrow
    simp [hkey, hitem] at hmiss

/-- `ProceduralMemoryStore.upsert`, with the row it returns. -/
def upsert (t : ProceduralTable) (item : ProceduralItem) : ProceduralTable × ProceduralRow :=
  match h : t.find item.key with
  | some row => (t.mapRows (applyItem item) (applyItem_key item), item.updatedRow row)
  | none => (t.insert item h, item.insertedRow t.nextId)

/-- The row `mark_skill_drafted` leaves. -/
def markedRow (id : Nat) (skillName skillDraftId : String) (row : ProceduralRow) :
    ProceduralRow :=
  if row.id = id ∧ row.status = .candidate then
    { row with status := .skillDrafted, promotedSkillName := some skillName
               skillDraftId := some skillDraftId }
  else row

/-- `mark_skill_drafted`. -/
def markSkillDrafted (t : ProceduralTable) (id : Nat) (skillName skillDraftId : String) :
    ProceduralTable :=
  t.mapRows (markedRow id skillName skillDraftId) fun row => by
    unfold markedRow
    split <;> rfl

end ProceduralTable

/-! ## The status of a memory -/

namespace ProceduralTable

variable {t : ProceduralTable} {item : ProceduralItem} {key : MemoryKey}

/-- The status an item leaves a memory in. -/
def statusAfter (item : ProceduralItem) : Option ProceduralStatus → ProceduralStatus
  | some old => upsertStatus old item.desiredStatus
  | none => item.desiredStatus

theorem statusOf_upsert (t : ProceduralTable) (item : ProceduralItem) (key : MemoryKey) :
    (t.upsert item).1.statusOf key
      = if item.key = key then some (statusAfter item (t.statusOf key)) else t.statusOf key := by
  unfold upsert statusOf
  split
  · rename_i row hrow
    rw [find_mapRows]
    by_cases hkey : item.key = key
    · subst hkey
      simp only [if_pos, hrow, Option.map_some, applyItem, key_of_find hrow]
      rfl
    · rw [if_neg hkey]
      cases hother : t.find key with
      | none => rfl
      | some other =>
          have hne : other.key ≠ item.key := by
            rw [key_of_find hother]
            exact fun h => hkey h.symm
          simp [applyItem, hne]
  · rename_i hnone
    have hinserted : (item.insertedRow t.nextId).key = item.key := rfl
    have hfind : (t.insert item hnone).find key
        = (t.find key).or (if item.key = key then some (item.insertedRow t.nextId) else none) := by
      unfold insert find
      rw [List.find?_append]
      congr 1
      rw [List.find?_singleton, hinserted]
      by_cases hkey : item.key = key <;> simp [hkey]
    rw [hfind]
    by_cases hkey : item.key = key
    · subst hkey
      simp only [if_pos, hnone, Option.map_none, Option.none_or, Option.map_some]
      rfl
    · rw [if_neg hkey, if_neg hkey, Option.or_none]

/-- Only a candidate is marked. -/
theorem statusOf_markSkillDrafted {status : ProceduralStatus} (h : t.statusOf key = some status)
    (hstatus : status ≠ .candidate) (id : Nat) (skillName skillDraftId : String) :
    (t.markSkillDrafted id skillName skillDraftId).statusOf key = some status := by
  unfold markSkillDrafted statusOf
  rw [find_mapRows]
  obtain ⟨row, hrow, rfl⟩ := Option.map_eq_some_iff.mp h
  rw [hrow, Option.map_some, Option.map_some]
  unfold markedRow
  rw [if_neg fun hmark => hstatus hmark.2]

/-- What an item does to a memory that has its draft. -/
theorem statusAfter_skillDrafted (item : ProceduralItem) :
    statusAfter item (some .skillDrafted)
      = if item.promotionStatus = .blocked then .conflicted else .skillDrafted := by
  unfold statusAfter ProceduralItem.desiredStatus
  cases item.promotionStatus <;> rfl

end ProceduralTable

end Aegora
