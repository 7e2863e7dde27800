import Aegora.DraftFrames

/-!
# When a drafted memory becomes conflicted

The gate answers with one of eight reasons, the upsert only sees that an item
is blocked. A memory that has its Skill draft is therefore turned to
`conflicted` by any reason at all, also when a run merely found little
evidence; and a run whose conflicting feedback comes without a positive one
never reaches the upsert.

Every upsert is committed on its own. A run that a refused draft ends has
therefore dealt with the items before it, and with the refused one: what
counts are the clusters that the run comes to (`ComesTo`).

`learn_status` is what one item does to a drafted memory, `conflict_of_loop`
what the loop over the items does, and `recordsConflict_iff` when a run does
what it should.
-/

namespace Aegora

open Py

variable {env : LearningEnv} {run : ReflectionRun} {key : MemoryKey}

/-! ## The gate, reason by reason -/

/-- The memory a cluster belongs to. -/
def Cluster.memoryKey (env : LearningEnv) (c : Cluster) : MemoryKey := (c.agent, c.fingerprint env)

/-- There is negative feedback, and its ratio exceeds the policy's. -/
def Cluster.Disputed (env : LearningEnv) (policy : ProceduralPromotionPolicy) (c : Cluster) :
    Prop :=
  c.negativeCount ≠ 0 ∧ policy.maxNegativeRatio < c.negativeRatio env

instance (policy : ProceduralPromotionPolicy) (c : Cluster) : Decidable (c.Disputed env policy) :=
  inferInstanceAs (Decidable (_ ∧ _))

/-- The gates before the one for conflicting feedback. -/
structure Cluster.PassesOtherGates (env : LearningEnv) (policy : ProceduralPromotionPolicy)
    (c : Cluster) : Prop where
  harmless : sensitiveExamples env.lower (cleanExamples c.examples) = false
  named : c.agent ≠ "legacy"
  allowed : c.proposeSkills = true
  repeated : policy.minOccurrences ≤ (uniqueStrings c.sourceTraceIds).length
  praised : policy.minPositiveFeedback ≤ c.positives
  answered : policy.minPositiveFeedback ≤ (cleanExamples c.successfulResponseExamples).length

theorem decision_blocked_iff (policy : ProceduralPromotionPolicy) (c : Cluster) :
    (c.decision env policy).1 = .blocked
      ↔ c.PassesOtherGates env policy → c.Disputed env policy := by
  have hgates : c.PassesOtherGates env policy
      ↔ sensitiveExamples env.lower (cleanExamples c.examples) = false ∧ c.agent ≠ "legacy"
        ∧ c.proposeSkills = true
        ∧ policy.minOccurrences ≤ (uniqueStrings c.sourceTraceIds).length
        ∧ policy.minPositiveFeedback ≤ c.positives
        ∧ policy.minPositiveFeedback ≤ (cleanExamples c.successfulResponseExamples).length :=
    ⟨fun h => ⟨h.harmless, h.named, h.allowed, h.repeated, h.praised, h.answered⟩,
      fun ⟨h₁, h₂, h₃, h₄, h₅, h₆⟩ => ⟨h₁, h₂, h₃, h₄, h₅, h₆⟩⟩
  rw [hgates]
  unfold Cluster.decision proceduralPromotionDecision Cluster.Disputed
  split
  · rename_i h
    simp [h]
  split
  · rename_i h
    simp [h]
  split
  · rename_i h
    simp_all
  split
  · rename_i h
    simp [Int.not_le.mpr h]
  split
  · rename_i h
    simp [Int.not_le.mpr h]
  split
  · rename_i h
    simp [Int.not_le.mpr h]
  split
  · rename_i h
    simp [h]
  · rename_i hharmless hnamed hallowed hrepeated hpraised hanswered hdispute
    simp only [reduceCtorEq, false_iff]
    intro h
    refine hdispute (h ⟨by simpa using hharmless, hnamed, by simpa using hallowed, ?_, ?_, ?_⟩)
    · exact Int.not_lt.mp hrepeated
    · exact Int.not_lt.mp hpraised
    · exact Int.not_lt.mp hanswered

/-! ## Drafts that end a run -/

/-- The item's draft passes its validation. -/
def DraftAccepted (env : LearningEnv) (run : ReflectionRun) (item : ReflectionItem) : Prop :=
  validateSkill env.lower (Dict.merge (run.draftOf env item) [("status", .str "draft")])
    env.maxContentChars = .ok []

/-- If a draft is due for the procedural item, it passes its validation. -/
def ItemAccepted (env : LearningEnv) (run : ReflectionRun) (s : ReflectionState)
    (item : ProceduralItem) : Prop :=
  let row := (s.memories.upsert (run.located item)).2
  item.promotionStatus = .eligible ∧ run.writeDrafts = true ∧ canCreateSkillDraft row = true →
    DraftAccepted env run
      (.procedural { run.located item with proceduralMemoryId := some row.id })

/-- A draft is written or raises, as its validation says. -/
theorem written_or_raises (env : LearningEnv) (run : ReflectionRun) (c : SkillCollection)
    (item : ReflectionItem) :
    (DraftAccepted env run item
        ∧ ∃ written, writeSkillDraft env.toSkillEnv c (run.draftOf env item) = .ok written)
      ∨ (¬ DraftAccepted env run item
        ∧ ∃ message, writeSkillDraft env.toSkillEnv c (run.draftOf env item) = .error message) := by
  have hok : ∀ c' reference,
      writeSkillDraft env.toSkillEnv c (run.draftOf env item) = .ok (c', reference)
        ↔ DraftAccepted env run item ∧ _ :=
    fun _ _ => writeSkillDraft_draft (w := ⟨item, run.reply item⟩)
  by_cases haccepted : DraftAccepted env run item
  · exact Or.inl ⟨haccepted, _, (hok _ _).mpr ⟨haccepted, rfl⟩⟩
  · refine Or.inr ⟨haccepted, ?_⟩
    cases hwrite : writeSkillDraft env.toSkillEnv c (run.draftOf env item) with
    | error message => exact ⟨message, rfl⟩
    | ok written => exact absurd ((hok _ _).mp hwrite).1 haccepted

theorem draftReport_ends_iff (env : LearningEnv) (run : ReflectionRun) (s : ReflectionState)
    (item : ReportItem) :
    (run.draftReport env s item).2 = none ↔ DraftAccepted env run (.report item) := by
  unfold ReflectionRun.draftReport
  rcases written_or_raises env run s.skills (.report item) with
    ⟨haccepted, written, hwrite⟩ | ⟨hrefused, message, hwrite⟩
  · rw [hwrite]
    simp [haccepted]
  · rw [hwrite]
    simp [hrefused]

theorem learn_ends_iff (env : LearningEnv) (run : ReflectionRun) (s : ReflectionState)
    (item : ProceduralItem) :
    (run.learn env s item).2 = none ↔ ItemAccepted env run s item := by
  unfold ReflectionRun.learn ItemAccepted
  dsimp only
  have hstatus : (run.located item).promotionStatus = item.promotionStatus := rfl
  rw [hstatus]
  split
  · rename_i hdue
    unfold ReflectionRun.draftMemory
    dsimp only
    rcases written_or_raises env run s.skills
        (.procedural { run.located item with
          proceduralMemoryId := some (s.memories.upsert (run.located item)).2.id }) with
      ⟨haccepted, written, hwrite⟩ | ⟨hrefused, message, hwrite⟩
    · rw [hwrite]
      exact ⟨fun _ _ => haccepted, fun _ => rfl⟩
    · rw [hwrite]
      exact ⟨fun h => (nomatch h), fun h => absurd (h hdue) hrefused⟩
  · rename_i hdue
    simp [hdue]

/-- What one item leaves. -/
def learnStep (env : LearningEnv) (run : ReflectionRun) (s : ReflectionState)
    (item : ProceduralItem) : Option ReflectionState :=
  some (run.learn env s item).1

/-! ## One item, and the loop over them -/

/-- The item is blocked, and it is about this memory. -/
def ProceduralItem.Blocks (key : MemoryKey) (item : ProceduralItem) : Prop :=
  item.key = key ∧ item.promotionStatus = .blocked

instance (key : MemoryKey) (item : ProceduralItem) : Decidable (item.Blocks key) :=
  inferInstanceAs (Decidable (_ ∧ _))

/-- What one item does to a memory that has its draft. -/
theorem learn_status {s : ReflectionState} (h : s.memories.statusOf key = some .skillDrafted)
    (item : ProceduralItem) :
    (run.learn env s item).1.memories.statusOf key
      = some (if item.Blocks key then .conflicted else .skillDrafted) := by
  have hstored : (run.located item).key = item.key := rfl
  have hstatus : (run.located item).promotionStatus = item.promotionStatus := rfl
  have hupsert : (s.memories.upsert (run.located item)).1.statusOf key
      = some (if item.Blocks key then .conflicted else .skillDrafted) := by
    rw [ProceduralTable.statusOf_upsert, h, ProceduralTable.statusAfter_skillDrafted, hstored,
      hstatus]
    unfold ProceduralItem.Blocks
    by_cases hkey : item.key = key
    · simp [hkey]
    · simp [hkey]
  unfold ReflectionRun.learn
  dsimp only
  split
  · unfold ReflectionRun.draftMemory
    dsimp only
    split
    · exact hupsert
    · refine ProceduralTable.statusOf_markSkillDrafted hupsert ?_ _ _ _
      split <;> simp
  · exact hupsert

/-- At one of its items, the loop turns the memory from `skill_drafted` to `conflicted`. -/
def TurnsConflicted (env : LearningEnv) (run : ReflectionRun) (key : MemoryKey)
    (s : ReflectionState) (items : List ProceduralItem) : Prop :=
  ∃ before item after t, items = before ++ item :: after
    ∧ forEach (run.learn env) s before = (t, none)
    ∧ t.memories.statusOf key = some .skillDrafted
    ∧ (run.learn env t item).1.memories.statusOf key = some .conflicted

/-- The loop comes to the item: it is there, and no earlier one ended the run. -/
def Reached (env : LearningEnv) (run : ReflectionRun) (s : ReflectionState)
    (items : List ProceduralItem) (item : ProceduralItem) : Prop :=
  ∃ before after, items = before ++ item :: after
    ∧ Runs.Meets (learnStep env run) (ItemAccepted env run) s before

theorem reached_cons {s : ReflectionState} {first item : ProceduralItem}
    {rest : List ProceduralItem} :
    Reached env run s (first :: rest) item
      ↔ item = first ∨ (ItemAccepted env run s first
          ∧ Reached env run (run.learn env s first).1 rest item) := by
  constructor
  · rintro ⟨before, after, hitems, hmeets⟩
    cases before with
    | nil => exact Or.inl (List.cons_eq_cons.mp hitems).1.symm
    | cons other before =>
        obtain ⟨rfl, hrest⟩ := List.cons_eq_cons.mp hitems
        exact Or.inr ⟨hmeets.1, before, after, hrest, hmeets.2 _ rfl⟩
  · rintro (rfl | ⟨haccepted, before, after, rfl, hmeets⟩)
    · exact ⟨[], rest, rfl, trivial⟩
    · exact ⟨first :: before, after, rfl, haccepted, fun t ht => by cases ht; exact hmeets⟩

theorem turnsConflicted_cons {s : ReflectionState} {first : ProceduralItem}
    {rest : List ProceduralItem} (haccepted : ItemAccepted env run s first)
    (h : TurnsConflicted env run key (run.learn env s first).1 rest) :
    TurnsConflicted env run key s (first :: rest) := by
  obtain ⟨before, item, after, t, rfl, hbefore, hdrafted, hconflicted⟩ := h
  refine ⟨first :: before, item, after, t, rfl, ?_, hdrafted, hconflicted⟩
  have hvisit : run.learn env s first = ((run.learn env s first).1, none) :=
    Prod.ext rfl ((learn_ends_iff env run s first).mpr haccepted)
  unfold forEach
  rw [hvisit]
  exact hbefore

/-- What precedes an item that the loop visits was accepted. -/
theorem reached_of_forEach {s t : ReflectionState} {before : List ProceduralItem}
    (h : forEach (run.learn env) s before = (t, none)) (item : ProceduralItem)
    (after : List ProceduralItem) : Reached env run s (before ++ item :: after) item := by
  induction before generalizing s with
  | nil => exact reached_cons.mpr (Or.inl rfl)
  | cons first before ih =>
      unfold forEach at h
      rcases hvisit : run.learn env s first with ⟨u, message | message⟩
      · rw [hvisit] at h
        have haccepted : ItemAccepted env run s first :=
          (learn_ends_iff env run s first).mp (by rw [hvisit])
        refine reached_cons.mpr (Or.inr ⟨haccepted, ?_⟩)
        rw [hvisit]
        exact ih h
      · rw [hvisit] at h
        cases h

/-- The loop turns the memory when it comes to an item that blocks it. -/
theorem conflict_of_loop {s : ReflectionState} {items : List ProceduralItem}
    (h : s.memories.statusOf key = some .skillDrafted) :
    TurnsConflicted env run key s items
      ↔ ∃ item, Reached env run s items item ∧ item.Blocks key := by
  constructor
  · rintro ⟨before, item, after, u, rfl, hbefore, hu, hconflicted⟩
    refine ⟨item, reached_of_forEach hbefore item after, ?_⟩
    rw [learn_status hu] at hconflicted
    by_contra hblocks
    rw [if_neg hblocks] at hconflicted
    cases hconflicted
  · rintro ⟨item, hreached, hblocks⟩
    induction items generalizing s with
    | nil =>
        obtain ⟨before, after, hitems, -⟩ := hreached
        simp at hitems
    | cons first rest ih =>
        have hfirst : (run.learn env s first).1.memories.statusOf key
            = some (if first.Blocks key then .conflicted else .skillDrafted) := learn_status h first
        by_cases hfirstBlocks : first.Blocks key
        · rw [if_pos hfirstBlocks] at hfirst
          exact ⟨[], first, rest, s, rfl, rfl, h, hfirst⟩
        · rw [if_neg hfirstBlocks] at hfirst
          rcases reached_cons.mp hreached with rfl | ⟨haccepted, hrest⟩
          · exact absurd hblocks hfirstBlocks
          · exact turnsConflicted_cons haccepted (ih hfirst hrest)

/-- A memory that no item blocks to which the loop comes keeps its status, however the
loop ends. -/
theorem drafted_of_loop {s : ReflectionState} {items : List ProceduralItem}
    (h : s.memories.statusOf key = some .skillDrafted)
    (hquiet : ∀ item, Reached env run s items item → ¬ item.Blocks key) :
    (forEach (run.learn env) s items).1.memories.statusOf key = some .skillDrafted := by
  induction items generalizing s with
  | nil => exact h
  | cons first rest ih =>
      have hfirst : (run.learn env s first).1.memories.statusOf key
          = some (if first.Blocks key then .conflicted else .skillDrafted) := learn_status h first
      rw [if_neg (hquiet first (reached_cons.mpr (Or.inl rfl)))] at hfirst
      have haccepted := learn_ends_iff env run s first
      unfold forEach
      rcases hvisit : run.learn env s first with ⟨u, message | message⟩
      · rw [hvisit] at hfirst haccepted
        refine ih hfirst fun item hitem => hquiet item (reached_cons.mpr (Or.inr ?_))
        rw [hvisit]
        exact ⟨haccepted.mp rfl, hitem⟩
      · rw [hvisit] at hfirst
        exact hfirst

/-! ## A whole run -/

/-- In this run the memory goes from `skill_drafted` to `conflicted`. -/
def BecomesConflicted (env : LearningEnv) (s : ReflectionState) (run : ReflectionRun)
    (key : MemoryKey) : Prop :=
  run.dryRun = false ∧ ∃ t, run.draftReports env s = (t, none)
    ∧ TurnsConflicted env run key t (run.proceduralItems env)

/-- A cluster of the run for this memory has negative feedback above the policy's ratio. -/
def DisputedIn (env : LearningEnv) (run : ReflectionRun) (key : MemoryKey) : Prop :=
  ∃ c ∈ run.clusters env, c.memoryKey env = key ∧ c.Disputed env run.policy

/-- The run treats the drafted memory as its feedback asks. -/
structure RecordsConflict (env : LearningEnv) (s : ReflectionState) (run : ReflectionRun)
    (key : MemoryKey) : Prop where
  conflicted_iff : BecomesConflicted env s run key ↔ DisputedIn env run key
  otherwise_drafted : ¬ DisputedIn env run key →
    (runWeeklyReflection env s run).1.memories.statusOf key = some .skillDrafted

/-- The drafts of the report items, which come first, pass their validation. -/
def ReportsAccepted (env : LearningEnv) (run : ReflectionRun) : Prop :=
  run.writeDrafts = true → ∀ item ∈ run.skillCandidates env, DraftAccepted env run (.report item)

/-- The run learns from the cluster: it has positive feedback, and neither the draft of a
report item nor that of an earlier cluster ended the run. -/
def ComesTo (env : LearningEnv) (s : ReflectionState) (run : ReflectionRun) (c : Cluster) :
    Prop :=
  run.dryRun = false ∧ run.proceduralEnabled = true ∧ ReportsAccepted env run
    ∧ ∃ before after,
      (run.clusters env).filter (fun c => 0 < c.positiveCount) = before ++ c :: after
      ∧ Runs.Meets (learnStep env run) (ItemAccepted env run) (run.draftReports env s).1
          (before.map (buildProceduralItem env run.policy))

/-- What the run comes to shows the conflict to the upsert, and nothing else that blocks. -/
structure EvidenceSpeaks (env : LearningEnv) (s : ReflectionState) (run : ReflectionRun)
    (key : MemoryKey) : Prop where
  heard : DisputedIn env run key → ∃ c, ComesTo env s run c ∧ c.memoryKey env = key
    ∧ (c.PassesOtherGates env run.policy → c.Disputed env run.policy)
  quiet : ¬ DisputedIn env run key → ∀ c, ComesTo env s run c → c.memoryKey env = key →
    c.PassesOtherGates env run.policy

theorem comesTo_mem {s : ReflectionState} {c : Cluster} (h : ComesTo env s run c) :
    c ∈ run.clusters env := by
  obtain ⟨-, -, -, before, after, hclusters, -⟩ := h
  have hmem : c ∈ (run.clusters env).filter fun c => 0 < c.positiveCount := by
    rw [hclusters]
    exact List.mem_append_right _ List.mem_cons_self
  exact (List.mem_filter.mp hmem).1

/-- The items that the loop comes to are those of the clusters that the run comes to. -/
theorem reached_iff_comesTo (hdry : run.dryRun = false) (hreports : ReportsAccepted env run)
    (s : ReflectionState) :
    (∃ item, Reached env run (run.draftReports env s).1 (run.proceduralItems env) item
        ∧ item.Blocks key)
      ↔ ∃ c, ComesTo env s run c ∧ c.memoryKey env = key
          ∧ (c.PassesOtherGates env run.policy → c.Disputed env run.policy) := by
  unfold ReflectionRun.proceduralItems
  by_cases henabled : run.proceduralEnabled = true
  · rw [if_pos henabled]
    constructor
    · rintro ⟨item, ⟨before, after, hitems, hmeets⟩, hkey, hblocked⟩
      obtain ⟨front, others, hclusters, rfl, hothers⟩ := List.map_eq_append_iff.mp hitems
      obtain ⟨c, rest, rfl, rfl, -⟩ := List.map_eq_cons_iff.mp hothers
      exact ⟨c, ⟨hdry, henabled, hreports, front, rest, hclusters, hmeets⟩, hkey,
        (decision_blocked_iff run.policy c).mp hblocked⟩
    · rintro ⟨c, ⟨-, -, -, before, after, hclusters, hmeets⟩, hkey, hheld⟩
      refine ⟨buildProceduralItem env run.policy c, ?_, hkey,
        (decision_blocked_iff run.policy c).mpr hheld⟩
      rw [hclusters, List.map_append]
      exact ⟨_, _, rfl, hmeets⟩
  · rw [if_neg henabled]
    constructor
    · rintro ⟨item, ⟨before, after, hitems, -⟩, -⟩
      simp at hitems
    · rintro ⟨c, ⟨-, h, -⟩, -⟩
      exact absurd h henabled

theorem draftReports_ends_iff (env : LearningEnv) (run : ReflectionRun) (s : ReflectionState) :
    (run.draftReports env s).2 = none ↔ ReportsAccepted env run := by
  have hloop : ∀ (items : List ReportItem) (s : ReflectionState),
      (forEach (run.draftReport env) s items).2 = none
        ↔ ∀ item ∈ items, DraftAccepted env run (.report item) := by
    intro items
    induction items with
    | nil => exact fun s => ⟨fun _ item h => absurd h List.not_mem_nil, fun _ => rfl⟩
    | cons first rest ih =>
        intro s
        have hfirst := draftReport_ends_iff env run s first
        rw [List.forall_mem_cons, ← hfirst]
        unfold forEach
        rcases hvisit : run.draftReport env s first with ⟨u, message | message⟩
        · simpa using ih u
        · simp
  unfold ReflectionRun.draftReports ReportsAccepted
  by_cases hwrite : run.writeDrafts = true
  · rw [if_pos hwrite, hloop]
    exact ⟨fun h _ => h, fun h => h hwrite⟩
  · rw [if_neg hwrite]
    exact ⟨fun _ h => absurd h hwrite, fun _ => rfl⟩

theorem draftReports_memories (env : LearningEnv) (run : ReflectionRun) (s : ReflectionState) :
    (run.draftReports env s).1.memories = s.memories := by
  have hbody : ∀ s item, (run.draftReport env s item).1.memories = s.memories := by
    intro s item
    unfold ReflectionRun.draftReport
    split <;> rfl
  unfold ReflectionRun.draftReports
  split
  · refine forEach_induct (R := fun s t => t.memories = s.memories) (fun _ => rfl) ?_ hbody s _
    intro s t u hst htu
    rw [htu, hst]
  · rfl

/-- What a run makes of a drafted memory, however the run ends. -/
theorem becomesConflicted_iff {s : ReflectionState}
    (h : s.memories.statusOf key = some .skillDrafted) :
    BecomesConflicted env s run key
      ↔ ∃ c, ComesTo env s run c ∧ c.memoryKey env = key
          ∧ (c.PassesOtherGates env run.policy → c.Disputed env run.policy) := by
  have hdrafted : (run.draftReports env s).1.memories.statusOf key = some .skillDrafted := by
    rw [draftReports_memories, h]
  constructor
  · rintro ⟨hdry, t, hreports, hturns⟩
    have haccepted : ReportsAccepted env run :=
      (draftReports_ends_iff env run s).mp (by rw [hreports])
    have ht : t = (run.draftReports env s).1 := by rw [hreports]
    rw [ht] at hturns
    exact (reached_iff_comesTo hdry haccepted s).mp ((conflict_of_loop hdrafted).mp hturns)
  · rintro ⟨c, hcomes, hheld⟩
    obtain ⟨hdry, -, haccepted, -⟩ := id hcomes
    refine ⟨hdry, (run.draftReports env s).1, Prod.ext rfl
      ((draftReports_ends_iff env run s).mpr haccepted), ?_⟩
    exact (conflict_of_loop hdrafted).mpr
      ((reached_iff_comesTo hdry haccepted s).mpr ⟨c, hcomes, hheld⟩)

/-- A drafted memory stays as it is when no cluster that the run comes to is held back. -/
theorem drafted_of_quiet {s : ReflectionState}
    (h : s.memories.statusOf key = some .skillDrafted)
    (hquiet : ¬ ∃ c, ComesTo env s run c ∧ c.memoryKey env = key
      ∧ (c.PassesOtherGates env run.policy → c.Disputed env run.policy)) :
    (runWeeklyReflection env s run).1.memories.statusOf key = some .skillDrafted := by
  have hdrafted : (run.draftReports env s).1.memories.statusOf key = some .skillDrafted := by
    rw [draftReports_memories, h]
  have hends := draftReports_ends_iff env run s
  unfold runWeeklyReflection
  cases hdry : run.dryRun with
  | true => exact h
  | false =>
      rcases hreports : run.draftReports env s with ⟨t, message | message⟩
      · rw [hreports] at hdrafted hends
        refine drafted_of_loop hdrafted fun item hreached hblocks => hquiet ?_
        refine (reached_iff_comesTo hdry (hends.mp rfl) s).mp ⟨item, ?_, hblocks⟩
        rw [hreports]
        exact hreached
      · rw [hreports] at hdrafted
        exact hdrafted

theorem recordsConflict_iff {s : ReflectionState}
    (h : s.memories.statusOf key = some .skillDrafted) :
    RecordsConflict env s run key ↔ EvidenceSpeaks env s run key := by
  have hconflicted : BecomesConflicted env s run key ↔ _ := becomesConflicted_iff h
  constructor
  · intro hrecords
    refine ⟨fun hdisputed => ?_, fun hnot c hcomes hkey => ?_⟩
    · exact hconflicted.mp (hrecords.conflicted_iff.mpr hdisputed)
    · by_contra hgates
      exact hnot (hrecords.conflicted_iff.mp (hconflicted.mpr
        ⟨c, hcomes, hkey, fun hpass => absurd hpass hgates⟩))
  · intro hspeaks
    have hquiet : ¬ DisputedIn env run key → ¬ ∃ c, ComesTo env s run c ∧ c.memoryKey env = key
        ∧ (c.PassesOtherGates env run.policy → c.Disputed env run.policy) := by
      rintro hnot ⟨c, hcomes, hkey, hheld⟩
      exact hnot ⟨c, comesTo_mem hcomes, hkey, hheld (hspeaks.quiet hnot c hcomes hkey)⟩
    refine ⟨⟨fun hbecomes => ?_, fun hdisputed => ?_⟩, fun hnot => ?_⟩
    · by_contra hnot
      exact hquiet hnot (hconflicted.mp hbecomes)
    · exact hconflicted.mpr (hspeaks.heard hdisputed)
    · exact drafted_of_quiet h (hquiet hnot)

/-- In every run of the sequence that finds the memory drafted, whether it ends well or
raises, the memory becomes conflicted if and only if the run's cluster for it is disputed. -/
def ConflictsFollowEvidence (env : LearningEnv) (s : ReflectionState)
    (runs : List ReflectionRun) (key : MemoryKey) : Prop :=
  ∀ before run after t t', runs = before ++ run :: after →
    Runs.run (reflectionStep env) s before = some t → reflectionStep env t run = some t' →
    t.memories.statusOf key = some .skillDrafted → RecordsConflict env t run key

/-- For every sequence of weekly reflections: they record conflicts as they should exactly
when the evidence that each of them comes to speaks for itself. Only the items matter that
a run comes to before a refused draft ends it, because each upsert is committed by itself. -/
theorem conflicts_follow_evidence_iff (env : LearningEnv) (s : ReflectionState)
    (runs : List ReflectionRun) (key : MemoryKey) :
    ConflictsFollowEvidence env s runs key
      ↔ Runs.Meets (reflectionStep env)
          (fun t run => t.memories.statusOf key = some .skillDrafted →
            EvidenceSpeaks env t run key) s runs := by
  refine Runs.steps_iff_meets (fun t run => ⟨_, rfl⟩) fun t run t' _ => ?_
  exact imp_congr_right fun hdrafted => recordsConflict_iff hdrafted

/-! ## A week with one conversation -/

/-- One praised question of an Agent that may propose Skills. -/
def quietWeek : ReflectionRun where
  messages :=
    [[("role", .str "user"), ("content", .str "refund"), ("trace_id", .str "t9"),
      ("metadata", .obj [("agent_id", .str "agent-a"), ("request_metadata", .obj
        [("learning_policy", .obj [("propose_skills", .bool true)])])])]]
  feedback := [[("trace_id", .str "t9"), ("rating", .str "positive")]]
  dryRun := false
  writeDrafts := true
  minClusterSize := 3
  minNegativeFeedback := 1
  proceduralEnabled := true
  policy := defaultPromotionPolicy
  reply := fun _ => none
  memoryCandidateIds := fun _ => []

/-- The memory's draft was written in an earlier week. -/
def draftedMemories : ProceduralTable where
  rows :=
    [{ id := 1, agentId := "agent-a", fingerprint := "digest", clusterKey := "refund"
       title := "refund", status := .skillDrafted, promotionReason := "promotion_gate_passed"
       evidenceCount := 3, positiveCount := 2, negativeCount := 0, negativeRatio := "0.0"
       sourceTraceIds := ["t1", "t2", "t3"], positiveTraceIds := ["t1", "t2"]
       sourceMemoryCandidateIds := [], examples := ["refund"]
       strategyExamples := ["ask", "check"], promotedSkillName := some "refund_guide"
       skillDraftId := some "0" }]
  nextId := 2
  unique := List.nodup_singleton _

/-- Little evidence and no negative feedback turn the memory to `conflicted`. -/
theorem little_evidence_conflicts :
    ¬ ∀ env s runs key, ConflictsFollowEvidence env s runs key := by
  intro h
  have hrecords := h exactEnv ⟨.empty, draftedMemories⟩ [quietWeek] ("agent-a", "digest") []
    quietWeek [] _ _ rfl rfl rfl (by decide +kernel)
  have hquiet : ∀ c ∈ quietWeek.clusters exactEnv, ¬ c.Disputed exactEnv quietWeek.policy := by
    decide +kernel
  have hdrafted := hrecords.otherwise_drafted fun ⟨c, hc, _, hdisputed⟩ => hquiet c hc hdisputed
  revert hdrafted
  decide +kernel

end Aegora
