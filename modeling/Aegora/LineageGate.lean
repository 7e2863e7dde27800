import Mathlib.Algebra.Order.Field.Basic
import Mathlib.Algebra.Order.Field.Rat
import Mathlib.Data.List.Dedup
import Aegora.ConflictedMemories
import Aegora.DraftFrames
import Aegora.Grouping

/-!
# The lineage gate and the clusters

A draft that was made from a procedural memory carries its lineage, and
`procedural_skill_lineage_errors` decides whether the lineage will do. Of an
eligible item it misses nothing but the traces: `build_clusters` cuts the
traces of a group and the praised ones among them at twenty, each list for
itself, and the gate wants the second to be contained in the first.

`lineageErrors_eq_nil` reads the gate back as conditions on the item, and
`documented_iff` is what is left of them for an item that is eligible.
-/

namespace Aegora

open Py

/-! ## Without duplicates -/

theorem mem_uniqueStrings {values : List String} {text : String} :
    text ∈ uniqueStrings values ↔ text ≠ "" ∧ ∃ value ∈ values, strip value = text := by
  unfold uniqueStrings
  rw [List.mem_eraseDups, List.mem_filter, List.mem_map]
  simp [and_comm]

theorem nodup_uniqueStrings (values : List String) : (uniqueStrings values).Nodup :=
  Grouping.nodup_eraseDups _

theorem length_uniqueStrings_le (values : List String) :
    (uniqueStrings values).length ≤ values.length := by
  refine (Grouping.eraseDups_sublist _).length_le.trans ((List.length_filter_le _ _).trans ?_)
  rw [List.length_map]

/-- Twenty texts are neither cut by the item nor by its lineage. -/
theorem take_uniqueStrings_take (values : List String) :
    ((uniqueStrings (values.take 20)).take 50).take 20 = uniqueStrings (values.take 20) := by
  have hlength : (uniqueStrings (values.take 20)).length ≤ 20 :=
    (length_uniqueStrings_le _).trans (List.length_take_le 20 values)
  rw [List.take_of_length_le (hlength.trans (by decide)), List.take_of_length_le hlength]

/-! ## What the gate asks of an item -/

/-- The lineage of the item will do. -/
structure ProceduralItem.Documented (item : ProceduralItem) : Prop where
  stored : ∃ id, item.proceduralMemoryId = some id ∧ 0 < id
  fingerprinted : strip item.fingerprint ≠ ""
  named : strip item.agentId ≠ "" ∧ item.agentId ≠ "legacy"
  repeated : 2 ≤ ((item.sourceTraceIds.take 20).filter (· ≠ "")).dedup.length
  praised : item.positiveTraceIds.take 20 ≠ []
  contained : ∀ trace ∈ item.positiveTraceIds.take 20, trace ∈ item.sourceTraceIds.take 20
  counted : 2 ≤ item.evidenceCount ∧ 1 ≤ item.positiveCount
  unitRatio : reprInUnit item.negativeRatio = true
  promoted : item.promotionReason = "promotion_gate_passed"

theorem textsOf_textArr (texts : List String) : textsOf (textArr texts) = texts := by
  unfold textsOf textArr
  simp [Json.asList?, Function.comp_def]

theorem traceErrors_eq_nil {metadata : Dict} {source positive : List String}
    (hsource : Dict.get metadata "source_trace_ids" = textArr source)
    (hpositive : Dict.get metadata "positive_trace_ids" = textArr positive) :
    traceErrors metadata = []
      ↔ 2 ≤ (source.filter (· ≠ "")).dedup.length ∧ positive ≠ []
        ∧ ∀ trace ∈ positive, trace ∈ source := by
  unfold traceErrors
  simp only [hsource, hpositive, textsOf_textArr, List.append_eq_nil_iff, expect_eq_nil,
    decide_eq_true_eq]
  refine and_congr Iff.rfl ?_
  cases positive with
  | nil => simp
  | cons trace traces => simp [textArr, Json.asList?]

theorem isText_str {text : String} : isText (.str text) = true ↔ strip text ≠ "" := by
  simp [isText, Json.asStr?]

/-- The counts an item hands on. -/
theorem evidenceErrors_eq_nil {item : ProceduralItem} :
    evidenceErrors [("evidence_count", .int item.evidenceCount),
        ("positive_count", .int item.positiveCount), ("negative_count", .int item.negativeCount),
        ("negative_ratio", .float item.negativeRatio),
        ("promotion_reason", .str item.promotionReason)] = .ok []
      ↔ (2 ≤ item.evidenceCount ∧ 1 ≤ item.positiveCount)
        ∧ reprInUnit item.negativeRatio = true
        ∧ item.promotionReason = "promotion_gate_passed" := by
  unfold evidenceErrors
  simp only [Dict.get, Dict.get?_cons, inUnit, intAtLeast, asInt?]
  have htwo : (2 : Int) ≤ item.evidenceCount ↔ 2 ≤ item.evidenceCount := by omega
  have hone : (1 : Int) ≤ item.positiveCount ↔ 1 ≤ item.positiveCount := by omega
  simp [pure, Except.pure, bind, Except.bind, and_assoc, htwo, hone]

/-- What the gate reads of a lineage. -/
theorem get_lineage (item : ProceduralItem) (hagent : item.agentId ≠ "") :
    let lineage := skillDraftLineage (.procedural item)
    Dict.get lineage "source_kind" = .str "procedural_memory"
      ∧ Dict.get lineage "procedural_memory_id"
        = (item.proceduralMemoryId.map fun id => Json.int id).getD .null
      ∧ Dict.get lineage "procedural_fingerprint" = .str item.fingerprint
      ∧ Dict.get lineage "source_agent_id" = .str item.agentId
      ∧ Dict.get lineage "source_trace_ids" = textArr (item.sourceTraceIds.take 20)
      ∧ Dict.get lineage "positive_trace_ids" = textArr (item.positiveTraceIds.take 20)
      ∧ Dict.get lineage "procedural_evidence" = .obj
        [("evidence_count", .int item.evidenceCount), ("positive_count", .int item.positiveCount),
          ("negative_count", .int item.negativeCount),
          ("negative_ratio", .float item.negativeRatio),
          ("promotion_reason", .str item.promotionReason)] := by
  simp [skillDraftLineage, proceduralLineage, Dict.get, Dict.get?_cons, ReflectionItem.agentId,
    ReflectionItem.sourceTraceIds, hagent]

theorem intAtLeast_memoryId {id : Option Nat} :
    intAtLeast 1 ((id.map fun id => Json.int id).getD .null) = true
      ↔ ∃ n, id = some n ∧ 0 < n := by
  cases id with
  | none => simp [intAtLeast, asInt?]
  | some n =>
      simp [intAtLeast, asInt?]
      omega

/-- `procedural_skill_lineage_errors` of the lineage of an item. -/
theorem lineageErrors_eq_nil (item : ProceduralItem) (hagent : item.agentId ≠ "") :
    proceduralSkillLineageErrors (skillDraftLineage (.procedural item)) = .ok []
      ↔ item.Documented := by
  obtain ⟨hkind, hid, hfingerprint, hname, hsource, hpositive, hevidence⟩ :=
    get_lineage item hagent
  have hfrom : fromProceduralMemory (skillDraftLineage (.procedural item)) = true := by
    rw [fromProceduralMemory, hkind]
    rfl
  unfold proceduralSkillLineageErrors
  rw [hfrom]
  simp only [hid, hfingerprint, hname, hevidence, Bool.not_true, Bool.false_eq_true, if_false,
    map_eq_ok, List.append_eq_nil_iff, expect_eq_nil, Bool.and_eq_true, decide_eq_true_eq,
    intAtLeast_memoryId, isText_str, traceErrors_eq_nil hsource hpositive, ne_eq, Json.str.injEq]
  constructor
  · rintro ⟨errors, hcounts, ⟨⟨⟨hstored, hprint⟩, hnamed⟩, hrepeated, hpraised, hcontained⟩, rfl⟩
    obtain ⟨hcounted, hratio, hpromoted⟩ := evidenceErrors_eq_nil.mp hcounts
    exact ⟨hstored, hprint, hnamed, hrepeated, hpraised, hcontained, hcounted, hratio, hpromoted⟩
  · intro h
    exact ⟨[], evidenceErrors_eq_nil.mpr ⟨h.counted, h.unitRatio, h.promoted⟩,
      ⟨⟨⟨h.stored, h.fingerprinted⟩, h.named⟩, h.repeated, h.praised, h.contained⟩, rfl⟩

/-! ## What an eligible cluster brings along -/

/-- What is known of doubles and of digests. -/
structure LearningEnv.Lawful (env : LearningEnv) : Prop where
  /-- A part of a whole is between zero and one. -/
  divide_unit : ∀ part whole, part ≤ whole → whole ≠ 0 →
    0 ≤ env.divide part whole ∧ env.divide part whole ≤ 1
  /-- And rounding keeps it there. -/
  rounded_unit : ∀ x, 0 ≤ x → x ≤ 1 → reprInUnit (env.reprRounded x) = true
  /-- A digest is not blank. -/
  digest_text : ∀ text, strip (env.sha256 text) ≠ ""

variable {env : LearningEnv} {policy : ProceduralPromotionPolicy}

theorem eligible_iff {c : Cluster} :
    (c.decision env policy).1 = .eligible
      ↔ c.PassesOtherGates env policy ∧ ¬ c.Disputed env policy := by
  have hblocked : (c.decision env policy).1 = .blocked
      ↔ c.PassesOtherGates env policy → c.Disputed env policy := decision_blocked_iff policy c
  cases h : (c.decision env policy).1 with
  | eligible =>
      rw [h] at hblocked
      simpa using hblocked
  | blocked =>
      rw [h] at hblocked
      simpa using hblocked

theorem reason_of_eligible {c : Cluster} (h : (c.decision env policy).1 = .eligible) :
    (c.decision env policy).2 = "promotion_gate_passed" := by
  unfold Cluster.decision proceduralPromotionDecision at h ⊢
  split_ifs at h ⊢
  rfl

theorem negativeRatio_unit (hlawful : env.Lawful) (c : Cluster) :
    reprInUnit (env.reprRounded (c.negativeRatio env)) = true := by
  unfold Cluster.negativeRatio
  split
  · rename_i htotal
    have hunit := hlawful.divide_unit _ _ (Nat.le_add_left c.negativeCount c.positives) htotal
    exact hlawful.rounded_unit _ hunit.1 hunit.2
  · exact hlawful.rounded_unit 0 le_rfl (by decide)

/-! ## The traces of a group -/

/-- The traces of a group of messages. -/
def groupTraces (rows : List Dict) : List String := (rows.filterMap traceId?).eraseDups

/-- Those with positive feedback. -/
def praisedTraces (feedback : Feedback) (rows : List Dict) : List String :=
  (groupTraces rows).filter (· ∈ feedback.positiveTraceIds)

/-- Some of the first twenty praised traces have a name, and all of these are among the first
twenty traces of the group. -/
def PraisedAmongFirst (feedback : Feedback) (rows : List Dict) : Prop :=
  (∃ trace ∈ (praisedTraces feedback rows).take 20, strip trace ≠ "")
    ∧ ∀ trace ∈ (praisedTraces feedback rows).take 20, strip trace ≠ "" →
      ∃ source ∈ (groupTraces rows).take 20, strip source = strip trace

theorem agent_ne_empty (c : Cluster) : c.agent ≠ "" := by
  unfold Cluster.agent
  split
  · decide
  · assumption

theorem strip_agent (lower : String → String) (feedback : Feedback) (rows : List Dict) :
    strip (buildCluster lower feedback rows).agent = (buildCluster lower feedback rows).agent := by
  have hlegacy : strip "legacy" = "legacy" := by decide
  have hmessage : ∀ row, strip (messageAgentId row) = messageAgentId row := by
    intro row
    unfold messageAgentId
    dsimp only
    split
    · exact hlegacy
    · exact strip_strip _
  unfold Cluster.agent
  split
  · exact hlegacy
  · cases rows with
    | nil => exact hlegacy
    | cons row rows => exact hmessage row

/-- The item, once its memory is stored. -/
def ProceduralItem.stored (item : ProceduralItem) (id : Nat) (memoryCandidateIds : List Int) :
    ProceduralItem :=
  { item with proceduralMemoryId := some id, sourceMemoryCandidateIds := memoryCandidateIds }

/-- The cut lists agree when the praised traces come early. -/
theorem praisedAmongFirst_iff {feedback : Feedback} {rows : List Dict} :
    PraisedAmongFirst feedback rows
      ↔ uniqueStrings ((praisedTraces feedback rows).take 20) ≠ []
        ∧ ∀ trace ∈ uniqueStrings ((praisedTraces feedback rows).take 20),
          trace ∈ uniqueStrings ((groupTraces rows).take 20) := by
  constructor
  · rintro ⟨⟨trace, htrace, hname⟩, hwithin⟩
    refine ⟨List.ne_nil_of_mem (mem_uniqueStrings.mpr ⟨hname, trace, htrace, rfl⟩), ?_⟩
    intro text htext
    obtain ⟨htext, praised, hpraised, rfl⟩ := mem_uniqueStrings.mp htext
    exact mem_uniqueStrings.mpr ⟨htext, hwithin praised hpraised htext⟩
  · rintro ⟨hsome, hwithin⟩
    obtain ⟨text, htext⟩ := List.exists_mem_of_ne_nil _ hsome
    obtain ⟨hname, trace, htrace, rfl⟩ := mem_uniqueStrings.mp htext
    refine ⟨⟨trace, htrace, hname⟩, fun praised hpraised hnamed => ?_⟩
    exact (mem_uniqueStrings.mp
      (hwithin _ (mem_uniqueStrings.mpr ⟨hnamed, praised, hpraised, rfl⟩))).2

theorem documented_iff (hlawful : env.Lawful) {feedback : Feedback} {rows : List Dict}
    (heligible : (buildProceduralItem env policy
      (buildCluster env.lower feedback rows)).promotionStatus = .eligible)
    {id : Nat} (hid : 0 < id) (memoryCandidateIds : List Int) :
    ((buildProceduralItem env policy (buildCluster env.lower feedback rows)).stored id
        memoryCandidateIds).Documented
      ↔ PraisedAmongFirst feedback rows := by
  obtain ⟨hgates, -⟩ := eligible_iff.mp heligible
  have hsource : ((buildProceduralItem env policy
        (buildCluster env.lower feedback rows)).sourceTraceIds).take 20
      = uniqueStrings ((groupTraces rows).take 20) := take_uniqueStrings_take _
  have hpositive : ((buildProceduralItem env policy
        (buildCluster env.lower feedback rows)).positiveTraceIds).take 20
      = uniqueStrings ((praisedTraces feedback rows).take 20) := take_uniqueStrings_take _
  rw [praisedAmongFirst_iff]
  constructor
  · intro h
    have hpraised := h.praised
    have hcontained := h.contained
    simp only [ProceduralItem.stored, hsource, hpositive] at hpraised hcontained
    exact ⟨hpraised, hcontained⟩
  · rintro ⟨hpraised, hcontained⟩
    have hrepeated : 2 ≤ (uniqueStrings ((groupTraces rows).take 20)).length := by
      have hleast : policy.minOccurrences ≤ (uniqueStrings ((groupTraces rows).take 20)).length :=
        hgates.repeated
      have hpolicy := policy.occurrences_ok
      omega
    have hfilter : (uniqueStrings ((groupTraces rows).take 20)).filter (· ≠ "")
        = uniqueStrings ((groupTraces rows).take 20) :=
      List.filter_eq_self.mpr fun text htext => decide_eq_true (mem_uniqueStrings.mp htext).1
    refine ⟨⟨id, rfl, hid⟩, hlawful.digest_text _, ⟨?_, hgates.named⟩, ?_, ?_, ?_, ⟨hrepeated, ?_⟩,
      negativeRatio_unit hlawful _, reason_of_eligible heligible⟩
    · exact (strip_agent env.lower feedback rows).trans_ne (agent_ne_empty _)
    · simp only [ProceduralItem.stored]
      rw [hsource, hfilter, List.dedup_eq_self.mpr (nodup_uniqueStrings _)]
      exact hrepeated
    · simp only [ProceduralItem.stored]
      rw [hpositive]
      exact hpraised
    · simp only [ProceduralItem.stored]
      rw [hsource, hpositive]
      exact hcontained
    · have hleast : policy.minPositiveFeedback ≤ (buildCluster env.lower feedback rows).positives :=
        hgates.praised
      have hpolicy := policy.feedback_ok
      change 1 ≤ (buildCluster env.lower feedback rows).positives
      omega

/-! ## The draft -/

/-- Whatever the model answers, a draft carries the lineage of its item. -/
theorem draft_metadata (env : SkillEnv) (item : ReflectionItem) (reply : Option Dict) :
    Dict.get (skillDraftFromItem env item reply) "metadata" = .obj (skillDraftLineage item) := by
  unfold skillDraftFromItem
  cases hdraft : reply.bind fun reply => normalizeLlmDraft env reply item with
  | none => simp [fallbackSkillDraftFromItem, Dict.get, Dict.get?_cons]
  | some draft =>
      obtain ⟨reply, -, hreply⟩ := Option.bind_eq_some_iff.mp hdraft
      unfold normalizeLlmDraft at hreply
      dsimp only at hreply
      obtain ⟨examples, -, hreply⟩ := Option.bind_eq_some_iff.mp hreply
      obtain ⟨skillType, -, hreply⟩ := Option.bind_eq_some_iff.mp hreply
      cases hreply
      simp [Dict.get, Dict.get?_cons]

/-- The errors of the draft of a cluster whose memory is stored. -/
def draftLineageErrors (env : LearningEnv) (policy : ProceduralPromotionPolicy) (c : Cluster)
    (id : Nat) (memoryCandidateIds : List Int) (reply : Option Dict) :
    Except String (List String) :=
  proceduralSkillLineageErrors (Dict.get (skillDraftFromItem env.toSkillEnv
    (.procedural ((buildProceduralItem env policy c).stored id memoryCandidateIds)) reply)
      "metadata").dictOrEmpty

/-- For every group of messages, all feedback and every policy: the draft of an eligible cluster
passes the lineage gate exactly when the praised traces come early in the group. The other
conditions of the gate are those that make the item eligible, so only the two cuts are left. -/
theorem lineage_accepted_iff (hlawful : env.Lawful) (feedback : Feedback) (rows : List Dict)
    (heligible : (buildProceduralItem env policy
      (buildCluster env.lower feedback rows)).promotionStatus = .eligible)
    {id : Nat} (hid : 0 < id) (memoryCandidateIds : List Int) (reply : Option Dict) :
    draftLineageErrors env policy (buildCluster env.lower feedback rows) id memoryCandidateIds reply
        = .ok []
      ↔ PraisedAmongFirst feedback rows := by
  unfold draftLineageErrors
  rw [draft_metadata]
  exact (lineageErrors_eq_nil _ (agent_ne_empty _)).trans (documented_iff hlawful heligible hid _)

/-! ## Twenty-two traces -/

/-- An environment with the digest of the one fingerprint below. -/
def refundEnv : LearningEnv :=
  { exactEnv with
    sha256 := fun _ => "36ce83e8acbe387dcab763cef33a51c2cd7a8e24cad7c62bea7b48691ad31674" }

theorem refundEnv_lawful : refundEnv.Lawful where
  divide_unit := by
    intro part whole hle hne
    have hwhole : (0 : ℚ) < whole := Nat.cast_pos.mpr (Nat.pos_of_ne_zero hne)
    have hpart : (part : ℚ) ≤ whole := Nat.cast_le.mpr hle
    exact ⟨div_nonneg (Nat.cast_nonneg part) hwhole.le, (div_le_one hwhole).mpr hpart⟩
  rounded_unit := fun _ _ _ => (by decide +kernel : reprInUnit "0.0" = true)
  digest_text := fun _ =>
    (by decide +kernel :
      strip "36ce83e8acbe387dcab763cef33a51c2cd7a8e24cad7c62bea7b48691ad31674" ≠ "")

/-- A question to an Agent that may propose Skills. -/
def refundQuestion (trace : String) : Dict :=
  [("role", .str "user"), ("content", .str "refund"), ("trace_id", .str trace),
    ("metadata", .obj [("agent_id", .str "agent-a"), ("request_metadata", .obj
      [("learning_policy", .obj [("propose_skills", .bool true)])])])]

/-- Two of the questions were answered well. -/
def refundFeedback (first second : String) : Feedback where
  negativeTraceIds := []
  positiveTraceIds := [first, second]
  assistantContent := fun trace =>
    if trace = first then some "ask for the order" else if trace = second then some "check it"
    else none

def refundTraces : List String :=
  ["t1", "t2", "t3", "t4", "t5", "t6", "t7", "t8", "t9", "t10", "t11", "t12", "t13", "t14", "t15",
    "t16", "t17", "t18", "t19", "t20", "t21", "t22"]

theorem lineage_accepted_three :
    draftLineageErrors refundEnv {} (buildCluster id (refundFeedback "t1" "t3")
        (["t1", "t2", "t3"].map refundQuestion)) 1 [] none = .ok []
      ↔ PraisedAmongFirst (refundFeedback "t1" "t3") (["t1", "t2", "t3"].map refundQuestion) :=
  lineage_accepted_iff refundEnv_lawful (refundFeedback "t1" "t3")
    (["t1", "t2", "t3"].map refundQuestion) (by decide +kernel) (by decide) [] none

/-- A week in which only the last two of twenty-two questions were praised. -/
def lateWeek : ReflectionRun where
  messages := refundTraces.map refundQuestion
    ++ ["t21", "t22"].map fun trace =>
      [("role", .str "assistant"), ("content", .str ("answer to " ++ trace)),
        ("trace_id", .str trace)]
  feedback := ["t21", "t22"].map fun trace =>
    [("trace_id", .str trace), ("rating", .str "positive")]
  dryRun := false
  writeDrafts := true
  minClusterSize := 3
  minNegativeFeedback := 1
  proceduralEnabled := true
  policy := defaultPromotionPolicy
  reply := fun _ => none
  memoryCandidateIds := fun _ => []

/-- Praise that comes after twenty traces makes the cluster eligible, and its draft is refused. -/
theorem late_praise_refused :
    ∃ c ∈ lateWeek.clusters refundEnv,
      (buildProceduralItem refundEnv lateWeek.policy c).promotionStatus = .eligible
        ∧ draftLineageErrors refundEnv lateWeek.policy c 1 [] none
          = .ok ["procedural Skill positive_trace_ids 必须属于 source_trace_ids"] := by
  decide +kernel

end Aegora
