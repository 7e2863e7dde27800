import Aegora.Reflection

/-!
# Whose entries a weekly reflection overwrites

Drafts are upserted by a name that a language model chose, or by one of four
fallback names. A sequence of drafts therefore leaves the entries of others
alone exactly as long as every name it uses is free for its draft
(`drafts_keep_foreign_iff`). A weekly reflection writes such a sequence
(`runWeeklyReflection_skills`).
-/

namespace Aegora

open Py

/-- The draft of an item, with the model's answer if there was one. -/
structure DraftWrite where
  item : ReflectionItem
  reply : Option Dict

def DraftWrite.draft (env : SkillEnv) (w : DraftWrite) : Dict :=
  skillDraftFromItem env w.item w.reply

/-- A draft that fails its validation leaves the collection as it is. -/
def draftStep (env : SkillEnv) (c : SkillCollection) (w : DraftWrite) : Option SkillCollection :=
  match writeSkillDraft env c (w.draft env) with
  | .ok (c', _) => some c'
  | .error _ => some c

/-- A valid draft finds its name free. -/
def DraftFits (env : SkillEnv) (c : SkillCollection) (w : DraftWrite) : Prop :=
  validateSkill env.lower (Dict.merge (w.draft env) [("status", .str "draft")])
    env.maxContentChars = .ok [] → NameFree c (w.draft env)

variable {env : SkillEnv} {c c' : SkillCollection}

/-- The priority of a draft is the number the code itself puts there. -/
theorem draft_priority (env : SkillEnv) (w : DraftWrite) :
    Dict.getD (w.draft env) "priority" (.int 0) = .int 0 := by
  have hnormalized : ∀ reply draft, normalizeLlmDraft env reply w.item = some draft →
      Dict.getD draft "priority" (.int 0) = .int 0 := by
    intro reply draft h
    unfold normalizeLlmDraft at h
    dsimp only at h
    obtain ⟨examples, -, h⟩ := Option.bind_eq_some_iff.mp h
    obtain ⟨skillType, -, h⟩ := Option.bind_eq_some_iff.mp h
    cases h
    simp [Dict.getD, Dict.get?_cons]
  unfold DraftWrite.draft skillDraftFromItem
  cases hdraft : w.reply.bind fun reply => normalizeLlmDraft env reply w.item with
  | none => simp [fallbackSkillDraftFromItem, Dict.getD, Dict.get?_cons]
  | some draft =>
      obtain ⟨reply, -, hreply⟩ := Option.bind_eq_some_iff.mp hdraft
      exact hnormalized reply draft hreply

/-- A draft is written exactly when it is valid. -/
theorem writeSkillDraft_draft {w : DraftWrite} {reference : Nat} :
    writeSkillDraft env c (w.draft env) = .ok (c', reference)
      ↔ validateSkill env.lower (Dict.merge (w.draft env) [("status", .str "draft")])
            env.maxContentChars = .ok []
        ∧ c.upsert "name" (Dict.get (w.draft env) "name") (draftPayload env (w.draft env) 0)
          = (c', reference) := by
  have hpriority : (Dict.getD (w.draft env) "priority" (.int 0)).pyInt = .ok 0 := by
    rw [draft_priority]
    rfl
  rw [writeSkillDraft_eq_ok]
  constructor
  · rintro ⟨hvalid, priority, hp, h⟩
    rw [hpriority] at hp
    cases hp
    exact ⟨hvalid, h⟩
  · rintro ⟨hvalid, h⟩
    exact ⟨hvalid, 0, hpriority, h⟩

theorem draftStep_cases {w : DraftWrite} (h : draftStep env c w = some c') :
    (∃ reference, writeSkillDraft env c (w.draft env) = .ok (c', reference))
      ∨ (c' = c ∧ validateSkill env.lower (Dict.merge (w.draft env) [("status", .str "draft")])
          env.maxContentChars ≠ .ok []) := by
  unfold draftStep at h
  split at h
  · rename_i written reference hwrite
    cases h
    exact Or.inl ⟨reference, hwrite⟩
  · rename_i message hwrite
    cases h
    refine Or.inr ⟨rfl, fun hvalid => ?_⟩
    have hok : writeSkillDraft env c (w.draft env) = .ok (c.upsert "name"
        (Dict.get (w.draft env) "name") (draftPayload env (w.draft env) 0)) :=
      writeSkillDraft_eq_ok.mpr ⟨hvalid, 0, by rw [draft_priority]; rfl, rfl⟩
    rw [hok] at hwrite
    cases hwrite

/-- One write keeps what is foreign to it exactly when it fits. -/
theorem draftStep_keepsForeign_iff {w : DraftWrite} (h : draftStep env c w = some c') :
    KeepsForeign c c' (w.draft env) ↔ DraftFits env c w := by
  unfold DraftFits
  rcases draftStep_cases h with ⟨reference, hwrite⟩ | ⟨rfl, hinvalid⟩
  · rw [keepsForeign_iff_nameFree hwrite]
    exact ⟨fun hfree _ => hfree, fun hfits => hfits (writeSkillDraft_eq_ok.mp hwrite).1⟩
  · exact ⟨fun _ hvalid => absurd hvalid hinvalid, fun _ e he _ => he⟩

theorem draftStep_total (env : SkillEnv) (c : SkillCollection) (w : DraftWrite) :
    ∃ c', draftStep env c w = some c' := by
  unfold draftStep
  split
  · exact ⟨_, rfl⟩
  · exact ⟨_, rfl⟩

instance (env : SkillEnv) (c : SkillCollection) (w : DraftWrite) : Decidable (DraftFits env c w) :=
  inferInstanceAs (Decidable (_ → _))

/-- Every write of the sequence leaves alone what is foreign to it. -/
def WritesKeepForeign (env : SkillEnv) (c : SkillCollection) (writes : List DraftWrite) : Prop :=
  ∀ before w after c₁ c₂, writes = before ++ w :: after →
    Runs.run (draftStep env) c before = some c₁ → draftStep env c₁ w = some c₂ →
    KeepsForeign c₁ c₂ (w.draft env)

/-- For every collection and every sequence of drafts: entries that are active, manual or
the draft of another memory or item stay unchanged exactly when each valid draft finds
its name free or taken by an entry it may replace. -/
theorem drafts_keep_foreign_iff (env : SkillEnv) (c : SkillCollection)
    (writes : List DraftWrite) :
    WritesKeepForeign env c writes ↔ Runs.Meets (draftStep env) (DraftFits env) c writes :=
  Runs.steps_iff_meets (draftStep_total env) fun _ _ _ => draftStep_keepsForeign_iff

/-! ## A weekly reflection writes such a sequence -/

/-- The collection changes by a sequence of this run's drafts. -/
def DraftsWritten (env : LearningEnv) (run : ReflectionRun) (c c' : SkillCollection) : Prop :=
  ∃ writes, Runs.run (draftStep env.toSkillEnv) c writes = some c'
    ∧ ∀ w ∈ writes, w.reply = run.reply w.item

variable {run : ReflectionRun}

theorem draftsWritten_refl (env : LearningEnv) (run : ReflectionRun) (c : SkillCollection) :
    DraftsWritten env run c c :=
  ⟨[], rfl, fun _ h => absurd h List.not_mem_nil⟩

theorem draftsWritten_trans {env : LearningEnv} {c c' c'' : SkillCollection}
    (h : DraftsWritten env run c c') (h' : DraftsWritten env run c' c'') :
    DraftsWritten env run c c'' := by
  obtain ⟨writes, hrun, hreply⟩ := h
  obtain ⟨writes', hrun', hreply'⟩ := h'
  refine ⟨writes ++ writes', Runs.run_append.mpr ⟨c', hrun, hrun'⟩, fun w hw => ?_⟩
  rcases List.mem_append.mp hw with hw | hw
  · exact hreply w hw
  · exact hreply' w hw

theorem draftsWritten_write {env : LearningEnv} {item : ReflectionItem} {reference : Nat}
    (h : writeSkillDraft env.toSkillEnv c (run.draftOf env item) = .ok (c', reference)) :
    DraftsWritten env run c c' := by
  refine ⟨[⟨item, run.reply item⟩], ?_, fun w hw => by rw [List.mem_singleton.mp hw]⟩
  refine Runs.run_cons_eq.mpr ⟨c', ?_, rfl⟩
  unfold draftStep DraftWrite.draft
  rw [show skillDraftFromItem env.toSkillEnv item (run.reply item) = run.draftOf env item from rfl,
    h]

theorem draftReport_written (env : LearningEnv) (run : ReflectionRun) (s : ReflectionState)
    (item : ReportItem) : DraftsWritten env run s.skills (run.draftReport env s item).1.skills := by
  unfold ReflectionRun.draftReport
  split
  · rename_i skills reference hwrite
    exact draftsWritten_write hwrite
  · exact draftsWritten_refl env run _

theorem learn_written (env : LearningEnv) (run : ReflectionRun) (s : ReflectionState)
    (item : ProceduralItem) : DraftsWritten env run s.skills (run.learn env s item).1.skills := by
  unfold ReflectionRun.learn
  dsimp only
  split
  · unfold ReflectionRun.draftMemory
    dsimp only
    split
    · exact draftsWritten_refl env run _
    · rename_i skills reference hwrite
      exact draftsWritten_write hwrite
  · exact draftsWritten_refl env run _

theorem forEach_written {α : Type} {env : LearningEnv}
    {f : ReflectionState → α → ReflectionState × Option String}
    (h : ∀ s a, DraftsWritten env run s.skills (f s a).1.skills) (s : ReflectionState)
    (as : List α) : DraftsWritten env run s.skills (forEach f s as).1.skills :=
  forEach_induct (R := fun s t => DraftsWritten env run s.skills t.skills)
    (fun t => draftsWritten_refl env run t.skills) (fun _ _ _ => draftsWritten_trans) h s as

/-- Whatever a weekly reflection reads and however it ends, the Skill collection it leaves
is the one a sequence of its drafts leaves. -/
theorem runWeeklyReflection_skills (env : LearningEnv) (s : ReflectionState)
    (run : ReflectionRun) :
    DraftsWritten env run s.skills (runWeeklyReflection env s run).1.skills := by
  have hreports : DraftsWritten env run s.skills (run.draftReports env s).1.skills := by
    unfold ReflectionRun.draftReports
    split
    · exact forEach_written (draftReport_written env run) s _
    · exact draftsWritten_refl env run _
  unfold runWeeklyReflection
  split
  · exact draftsWritten_refl env run _
  · rcases hloop : run.draftReports env s with ⟨t, message | message⟩
    · rw [hloop] at hreports
      exact draftsWritten_trans hreports (forEach_written (learn_written env run) t _)
    · rw [hloop] at hreports
      exact hreports

/-! ## Two memories, one name -/

/-- The memory an Agent learned from questions about refunds. -/
def refundItem (agentId fingerprint : String) (id : Nat) : ReflectionItem :=
  .procedural
    { agentId := agentId
      fingerprint := fingerprint
      clusterKey := "refund"
      clusterTitle := "refund"
      promotionStatus := .eligible
      promotionReason := "promotion_gate_passed"
      count := 3
      evidenceCount := 3
      positiveCount := 2
      negativeCount := 0
      negativeRatio := "0.0"
      examples := ["refund"]
      successfulResponseExamples := ["ask", "check"]
      sourceTraceIds := ["t1", "t2", "t3"]
      positiveTraceIds := ["t1", "t2"]
      proposeSkills := true
      proceduralMemoryId := some id }

/-- What the model answers for both. -/
def refundReply : Dict :=
  [("name", .str "refund_guide"), ("title", .str "refund"), ("description", .str "refund"),
    ("content", .str "check")]

def refundWrites : List DraftWrite :=
  [⟨refundItem "agent-a" "f1" 1, some refundReply⟩,
    ⟨refundItem "agent-b" "f2" 2, some refundReply⟩]

/-- The draft of the second Agent's memory replaces the first one's. -/
theorem drafts_share_name : ¬ ∀ env c writes, WritesKeepForeign env c writes := by
  intro h
  have hmeets : Runs.Meets (draftStep plainEnv) (DraftFits plainEnv) .empty refundWrites :=
    (Runs.steps_iff_meets (draftStep_total plainEnv) fun _ _ _ => draftStep_keepsForeign_iff).mp
      (h plainEnv .empty refundWrites)
  revert hmeets
  decide +kernel

end Aegora
