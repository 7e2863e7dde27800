import Aegora.Reflection

/-!
# Weekly reflections that may crash

`run_weekly_reflection` again, in the steps in which it reaches the two
stores: the content service keeps the Skill drafts, the database the
procedural memories, and no transaction spans both. What a run has not done
yet is its `pending` list; a crash or an exception empties it, and what was
written until then stays. The clusters and the model's answers are whatever
the run is given.

`drafts` is a history: the entries that were written for a memory.
`weekly_reflection_steps` says that a run which is not interrupted is
`runWeeklyReflection`.
-/

namespace Aegora

open Py

/-- What a run still has to do. -/
inductive ReflectionTask where
  | report (item : ReportItem)
  | upsert (item : ProceduralItem)
  | draft (item : ProceduralItem) (row : ProceduralRow)
  | mark (id : Nat) (skillName : String) (reference : Nat)

/-- An entry of the content service that was written for a memory. -/
structure DraftedEntry where
  memory : MemoryKey
  reference : Nat
  name : String
deriving DecidableEq

structure ReflectionProgress where
  store : ReflectionState
  writeDrafts : Bool := false
  pending : List ReflectionTask := []
  drafts : List DraftedEntry := []

namespace ReflectionProgress

variable (env : LearningEnv) (p : ReflectionProgress)

/-- The item with the identity of its row, as the draft is made from it. -/
def draftItem (item : ProceduralItem) (row : ProceduralRow) : ReflectionItem :=
  .procedural { item with proceduralMemoryId := some row.id }

/-- `write_skill_draft` for a report item. -/
def report (item : ReportItem) (reply : Option Dict) (rest : List ReflectionTask) :
    ReflectionProgress :=
  match writeSkillDraft env.toSkillEnv p.store.skills
      (skillDraftFromItem env.toSkillEnv (.report item) reply) with
  | .ok (skills, _) => { p with store := { p.store with skills := skills }, pending := rest }
  | .error _ => { p with pending := [] }

/-- `store.upsert`, and whether the row it returns gets a draft. -/
def upsert (item : ProceduralItem) (memoryCandidateIds : List Int)
    (rest : List ReflectionTask) : ReflectionProgress :=
  let stored := { item with sourceMemoryCandidateIds := memoryCandidateIds }
  let upserted := p.store.memories.upsert stored
  { p with
    store := { p.store with memories := upserted.1 }
    pending :=
      if stored.promotionStatus = .eligible ∧ p.writeDrafts ∧ canCreateSkillDraft upserted.2 then
        .draft stored upserted.2 :: rest
      else rest }

/-- `write_skill_draft` for a memory. -/
def draft (item : ProceduralItem) (row : ProceduralRow) (reply : Option Dict)
    (rest : List ReflectionTask) : ReflectionProgress :=
  let draft := skillDraftFromItem env.toSkillEnv (draftItem item row) reply
  let name := (Dict.get draft "name").pyStr
  match writeSkillDraft env.toSkillEnv p.store.skills draft with
  | .error _ => { p with pending := [] }
  | .ok (skills, reference) =>
      { p with
        store := { p.store with skills := skills }
        pending := .mark row.id name reference :: rest
        drafts := p.drafts ++ [⟨row.key, reference, name⟩] }

/-- `mark_skill_drafted`. -/
def mark (id : Nat) (skillName : String) (reference : Nat) (rest : List ReflectionTask) :
    ReflectionProgress :=
  { p with
    store := { p.store with
      memories := p.store.memories.markSkillDrafted id skillName (toString reference) }
    pending := rest }

/-- The next task of the run. -/
def perform (reply : Option Dict) (memoryCandidateIds : List Int) (rest : List ReflectionTask) :
    ReflectionTask → ReflectionProgress
  | .report item => p.report env item reply rest
  | .upsert item => p.upsert item memoryCandidateIds rest
  | .draft item row => p.draft env item row reply rest
  | .mark id skillName reference => p.mark id skillName reference rest

section Draft

variable {env : LearningEnv} {p : ReflectionProgress} {item : ProceduralItem}
  {row : ProceduralRow} {reply : Option Dict} {rest : List ReflectionTask}

theorem draft_error {message : String}
    (h : writeSkillDraft env.toSkillEnv p.store.skills
      (skillDraftFromItem env.toSkillEnv (draftItem item row) reply) = .error message) :
    p.draft env item row reply rest = { p with pending := [] } := by
  unfold draft
  dsimp only
  rw [h]

theorem draft_ok {skills : SkillCollection} {reference : Nat}
    (h : writeSkillDraft env.toSkillEnv p.store.skills
      (skillDraftFromItem env.toSkillEnv (draftItem item row) reply) = .ok (skills, reference)) :
    p.draft env item row reply rest
      = let name := (Dict.get (skillDraftFromItem env.toSkillEnv (draftItem item row) reply)
          "name").pyStr
        { p with
          store := { p.store with skills := skills }
          pending := .mark row.id name reference :: rest
          drafts := p.drafts ++ [⟨row.key, reference, name⟩] } := by
  unfold draft
  dsimp only
  rw [h]

end Draft

end ReflectionProgress

/-- A run starts, does its next task, or crashes. -/
inductive ReflectionAction where
  | start (reports : List ReportItem) (items : List ProceduralItem) (writeDrafts : Bool)
  | next (reply : Option Dict) (memoryCandidateIds : List Int)
  | crash

/-- What a run that was told to write drafts, or not, has to do. -/
def reflectionTasks (reports : List ReportItem) (items : List ProceduralItem)
    (writeDrafts : Bool) : List ReflectionTask :=
  (if writeDrafts then reports.map .report else []) ++ items.map .upsert

def reflectionProgressStep (env : LearningEnv) (p : ReflectionProgress) :
    ReflectionAction → Option ReflectionProgress
  | .start reports items writeDrafts =>
      if p.pending.isEmpty then
        some { p with
          writeDrafts := writeDrafts, pending := reflectionTasks reports items writeDrafts }
      else none
  | .next reply memoryCandidateIds =>
      match p.pending with
      | [] => none
      | task :: rest => some (p.perform env reply memoryCandidateIds rest task)
  | .crash => some { p with pending := [] }

/-! ## A run that is not interrupted -/

/-- Some steps lead from `p` to this result, with `rest` still to do when it is no
exception. -/
def Carries (env : LearningEnv) (p : ReflectionProgress) (rest : List ReflectionTask)
    (result : ReflectionState × Option String) : Prop :=
  ∃ actions q, Runs.run (reflectionProgressStep env) p actions = some q
    ∧ q.writeDrafts = p.writeDrafts ∧ q.store = result.1
    ∧ q.pending = if result.2.isNone then rest else []

variable {env : LearningEnv} {run : ReflectionRun} {p : ReflectionProgress}
  {rest : List ReflectionTask} {result : ReflectionState × Option String}

theorem perform_writeDrafts (env : LearningEnv) (p : ReflectionProgress) (reply : Option Dict)
    (memoryCandidateIds : List Int) (rest : List ReflectionTask) (task : ReflectionTask) :
    (p.perform env reply memoryCandidateIds rest task).writeDrafts = p.writeDrafts := by
  cases task with
  | report item =>
      show (p.report env item reply rest).writeDrafts = p.writeDrafts
      unfold ReflectionProgress.report
      split <;> rfl
  | upsert item => rfl
  | draft item row =>
      show (p.draft env item row reply rest).writeDrafts = p.writeDrafts
      unfold ReflectionProgress.draft
      dsimp only
      split <;> rfl
  | mark id skillName reference => rfl

theorem carries_next (reply : Option Dict) (memoryCandidateIds : List Int) {task : ReflectionTask}
    {tasks : List ReflectionTask} (hpending : p.pending = task :: tasks)
    (h : Carries env (p.perform env reply memoryCandidateIds tasks task) rest result) :
    Carries env p rest result := by
  obtain ⟨actions, q, hq, hq', hstore, hdone⟩ := h
  refine ⟨.next reply memoryCandidateIds :: actions, q, Runs.run_cons_eq.mpr ⟨_, ?_, hq⟩,
    hq'.trans (perform_writeDrafts env p _ _ _ _), hstore, hdone⟩
  unfold reflectionProgressStep
  rw [hpending]

theorem carries_done (hstore : p.store = result.1)
    (hpending : p.pending = if result.2.isNone then rest else []) :
    Carries env p rest result :=
  ⟨[], p, rfl, rfl, hstore, hpending⟩

/-- When every visit of a loop's body is carried out, the loop is. -/
theorem carries_forEach {α : Type} {f : ReflectionState → α → ReflectionState × Option String}
    {task : α → ReflectionTask}
    (hbody : ∀ p a rest, p.writeDrafts = run.writeDrafts → p.pending = task a :: rest →
      Carries env p rest (f p.store a))
    (as : List α) (hdrafts : p.writeDrafts = run.writeDrafts)
    (hpending : p.pending = as.map task ++ rest) :
    Carries env p rest (forEach f p.store as) := by
  induction as generalizing p with
  | nil => exact carries_done rfl hpending
  | cons a as ih =>
      obtain ⟨actions, q, hq, hq', hstore, hdone⟩ := hbody p a _ hdrafts hpending
      unfold forEach
      rcases hvisit : f p.store a with ⟨t, message | message⟩
      · rw [hvisit] at hstore hdone
        obtain ⟨actions', q', hrun, hflag, hend⟩ := ih (hq'.trans hdrafts) hdone
        rw [hstore] at hend
        exact ⟨actions ++ actions', q', Runs.run_append.mpr ⟨q, hq, hrun⟩, hflag.trans hq', hend⟩
      · rw [hvisit] at hstore hdone
        exact ⟨actions, q, hq, hq', hstore, hdone⟩

theorem carries_report (p : ReflectionProgress) (item : ReportItem) (rest : List ReflectionTask)
    (hpending : p.pending = .report item :: rest) :
    Carries env p rest (run.draftReport env p.store item) := by
  refine carries_next (run.reply (.report item)) [] hpending ?_
  show Carries env (p.report env item (run.reply (.report item)) rest) rest _
  unfold ReflectionProgress.report ReflectionRun.draftReport ReflectionRun.draftOf
  cases writeSkillDraft env.toSkillEnv p.store.skills
      (skillDraftFromItem env.toSkillEnv (.report item) (run.reply (.report item))) with
  | ok written => exact carries_done rfl rfl
  | error message => exact carries_done rfl rfl

theorem carries_draft (p : ReflectionProgress) (item : ProceduralItem) (row : ProceduralRow)
    (rest : List ReflectionTask) (hpending : p.pending = .draft item row :: rest) :
    Carries env p rest (run.draftMemory env p.store item row) := by
  let draft := run.draftOf env (ReflectionProgress.draftItem item row)
  have hmemory : run.draftMemory env p.store item row
      = match writeSkillDraft env.toSkillEnv p.store.skills draft with
        | .error message => (p.store, some message)
        | .ok (skills, reference) =>
            ({ skills := skills
               memories := p.store.memories.markSkillDrafted row.id (Dict.get draft "name").pyStr
                 (toString reference) }, none) := rfl
  refine carries_next (run.reply (ReflectionProgress.draftItem item row)) [] hpending ?_
  show Carries env
    (p.draft env item row (run.reply (ReflectionProgress.draftItem item row)) rest) rest _
  rw [hmemory]
  rcases hwrite : writeSkillDraft env.toSkillEnv p.store.skills draft with
    message | ⟨skills, reference⟩
  · rw [ReflectionProgress.draft_error hwrite]
    exact carries_done rfl rfl
  · rw [ReflectionProgress.draft_ok hwrite]
    exact carries_next none [] rfl (carries_done rfl rfl)

theorem carries_learn (p : ReflectionProgress) (item : ProceduralItem)
    (rest : List ReflectionTask) (hdrafts : p.writeDrafts = run.writeDrafts)
    (hpending : p.pending = .upsert item :: rest) :
    Carries env p rest (run.learn env p.store item) := by
  refine carries_next none (run.memoryCandidateIds item.sourceTraceIds) hpending ?_
  show Carries env (p.upsert item (run.memoryCandidateIds item.sourceTraceIds) rest) rest _
  unfold ReflectionRun.learn
  dsimp only
  rw [← hdrafts]
  split
  · rename_i hgets
    refine carries_draft (p.upsert item (run.memoryCandidateIds item.sourceTraceIds) rest) _ _ rest
      ?_
    exact if_pos hgets
  · rename_i hnone
    exact carries_done rfl (if_neg hnone)

/-- A weekly reflection that nothing interrupts is a run of these steps. -/
theorem weekly_reflection_steps (env : LearningEnv) (run : ReflectionRun)
    (p : ReflectionProgress) (hidle : p.pending = []) :
    ∃ actions q, Runs.run (reflectionProgressStep env) p actions = some q
      ∧ q.store = (runWeeklyReflection env p.store run).1 ∧ q.pending = [] := by
  unfold runWeeklyReflection
  split
  · exact ⟨[], p, rfl, rfl, hidle⟩
  · let q : ReflectionProgress := { p with
      writeDrafts := run.writeDrafts
      pending := reflectionTasks (run.skillCandidates env) (run.proceduralItems env)
        run.writeDrafts }
    have hstart : reflectionProgressStep env p
        (.start (run.skillCandidates env) (run.proceduralItems env) run.writeDrafts) = some q :=
      if_pos (by rw [hidle]; rfl)
    have hreports : Carries env q ((run.proceduralItems env).map .upsert)
        (run.draftReports env p.store) := by
      unfold ReflectionRun.draftReports
      by_cases hwrite : run.writeDrafts = true
      · rw [if_pos hwrite]
        have hbody : ∀ q item rest, q.writeDrafts = run.writeDrafts →
            q.pending = ReflectionTask.report item :: rest →
            Carries env q rest (run.draftReport env q.store item) :=
          fun q item rest _ => carries_report q item rest
        refine carries_forEach hbody _ rfl ?_
        show reflectionTasks _ _ run.writeDrafts = _
        rw [hwrite]
        rfl
      · rw [if_neg hwrite]
        refine carries_done rfl ?_
        show reflectionTasks _ _ run.writeDrafts = _
        rw [eq_false_of_ne_true hwrite]
        rfl
    obtain ⟨actions, u, hu, hflag, hstore, hpending⟩ := hreports
    rcases hvisit : run.draftReports env p.store with ⟨t, message | message⟩
    · rw [hvisit] at hstore hpending
      have hloop : Carries env u [] (forEach (run.learn env) u.store (run.proceduralItems env)) :=
        carries_forEach carries_learn _ hflag (by rw [List.append_nil]; exact hpending)
      obtain ⟨actions', v, hv, -, hstore', hpending'⟩ := hloop
      refine ⟨_ :: (actions ++ actions'), v, Runs.run_cons_eq.mpr ⟨q, hstart,
        Runs.run_append.mpr ⟨u, hu, hv⟩⟩, ?_, ?_⟩
      · rw [hstore', hstore]
      · rw [hpending']
        split <;> rfl
    · rw [hvisit] at hstore hpending
      exact ⟨_ :: actions, u, Runs.run_cons_eq.mpr ⟨q, hstart, hu⟩, hstore, hpending⟩

end Aegora
