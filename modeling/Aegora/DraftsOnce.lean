import Aegora.DraftFrames
import Aegora.ReflectionCrashes

/-!
# One Skill draft for a memory

A memory is marked after its draft was written. When a run stops between the
two, the next one finds a candidate without a draft and writes again, under
the name that the model gives this time. The memory then leads to one entry
exactly when that name finds the entry it already has
(`memories_drafted_once_iff`); a run that does not stop there never comes to
it (`drafted_once_of_unbroken`).

The proof needs of a run only what its next task relies on (`Ready`): the row
of a draft is in the table, and a mark follows the entry that was written.
-/

namespace Aegora

open Py

variable {env : LearningEnv} {p q : ReflectionProgress}

/-! ## Drafts and the memories that name them -/

/-- The entry is in the collection, under its name. -/
def HasEntry (c : SkillCollection) (d : DraftedEntry) : Prop :=
  ∃ e ∈ c.entries, e.reference = d.reference ∧ e.attribute "name" = .str d.name

/-- The row names an entry that was written for its memory. -/
def NamesDraft (p : ReflectionProgress) (row : ProceduralRow) : Prop :=
  ∃ d ∈ p.drafts, d.memory = row.key ∧ row.promotedSkillName = some d.name
    ∧ row.skillDraftId = some (toString d.reference) ∧ HasEntry p.store.skills d

/-- Each memory led to at most one entry, and a drafted memory names it. -/
structure DraftedOnce (p : ReflectionProgress) : Prop where
  once : ∀ d ∈ p.drafts, ∀ d' ∈ p.drafts, d.memory = d'.memory → d.reference = d'.reference
  named : ∀ row ∈ p.store.memories.rows, row.status = .skillDrafted → NamesDraft p row

/-- The draft the model's reply leads to. -/
def memoryDraft (item : ProceduralItem) (row : ProceduralRow) (reply : Option Dict) :
    DraftWrite :=
  ⟨ReflectionProgress.draftItem item row, reply⟩

/-- A valid draft of a memory that already has an entry finds that entry under its name. -/
def FindsEntry (env : LearningEnv) (p : ReflectionProgress) : ReflectionAction → Prop
  | .next reply _ =>
      match p.pending with
      | .draft item row :: _ =>
          let draft := (memoryDraft item row reply).draft env.toSkillEnv
          validateSkill env.lower (Dict.merge draft [("status", .str "draft")])
              env.maxContentChars = .ok [] →
            ∀ d ∈ p.drafts, d.memory = row.key →
              (p.store.skills.findOne "name" (Dict.get draft "name")).map StrapiEntry.reference
                = some d.reference
      | _ => True
  | _ => True

/-! ## One write -/

section Write

variable {c c' : SkillCollection} {d : DraftedEntry} {draft : Dict} {priority : Int}
  {reference : Nat}

theorem draft_name (env : SkillEnv) (w : DraftWrite) :
    ∃ name, Dict.get (w.draft env) "name" = .str name := by
  have hnormalized : ∀ reply draft, normalizeLlmDraft env reply w.item = some draft →
      ∃ name, Dict.get draft "name" = .str name := by
    intro reply draft h
    unfold normalizeLlmDraft at h
    dsimp only at h
    obtain ⟨examples, -, h⟩ := Option.bind_eq_some_iff.mp h
    obtain ⟨skillType, -, h⟩ := Option.bind_eq_some_iff.mp h
    cases h
    exact ⟨_, rfl⟩
  unfold DraftWrite.draft skillDraftFromItem
  cases hdraft : w.reply.bind fun reply => normalizeLlmDraft env reply w.item with
  | none => exact ⟨_, rfl⟩
  | some draft =>
      obtain ⟨reply, -, hreply⟩ := Option.bind_eq_some_iff.mp hdraft
      exact hnormalized reply draft hreply

theorem name_of_findOne {value : Json} {e : StrapiEntry} (h : c.findOne "name" value = some e) :
    e.attribute "name" = value := by
  simpa using List.find?_some h

theorem get_name_put (env : SkillEnv) (draft : Dict) (priority : Int) (e : StrapiEntry) :
    (SkillCollection.put (draftPayload env draft priority) e.reference e).attribute "name"
      = Dict.get draft "name" := by
  unfold SkillCollection.put
  rw [if_pos rfl]
  simp [StrapiEntry.attribute, Dict.get, Dict.get?_merge, draftPayload, Dict.get?_cons]

/-- An upsert by name leaves every entry under its name. -/
theorem HasEntry.upsert {env : SkillEnv} (h : HasEntry c d)
    (hwrite : c.upsert "name" (Dict.get draft "name") (draftPayload env draft priority)
      = (c', reference)) : HasEntry c' d := by
  obtain ⟨e, he, hreference, hname⟩ := h
  unfold SkillCollection.upsert at hwrite
  cases hfind : c.findOne "name" (Dict.get draft "name") with
  | none =>
      rw [hfind] at hwrite
      cases hwrite
      exact ⟨e, List.mem_append_left _ he, hreference, hname⟩
  | some old =>
      rw [hfind] at hwrite
      cases hwrite
      by_cases hsame : e.reference = old.reference
      · have hold := SkillCollection.eq_of_reference he (SkillCollection.mem_of_findOne hfind)
          hsame
        subst hold
        refine ⟨_, List.mem_map_of_mem he, ?_, ?_⟩
        · rw [SkillCollection.put_reference, hreference]
        · rw [get_name_put, ← name_of_findOne hfind, hname]
      · exact ⟨e, SkillCollection.mem_update_of_ne he hsame, hreference, hname⟩

/-- The entry an upsert by name answers with is under that name. -/
theorem hasEntry_of_upsert {env : SkillEnv} {memory : MemoryKey} {name : String}
    (hname : Dict.get draft "name" = .str name)
    (hwrite : c.upsert "name" (Dict.get draft "name") (draftPayload env draft priority)
      = (c', reference)) : HasEntry c' ⟨memory, reference, name⟩ := by
  unfold SkillCollection.upsert at hwrite
  cases hfind : c.findOne "name" (Dict.get draft "name") with
  | none =>
      rw [hfind] at hwrite
      cases hwrite
      refine ⟨_, List.mem_append_right _ (List.mem_singleton.mpr rfl), rfl, ?_⟩
      show Dict.get (draftPayload env draft priority) "name" = .str name
      rw [← hname]
      simp [Dict.get, draftPayload, Dict.get?_cons]
  | some old =>
      rw [hfind] at hwrite
      cases hwrite
      refine ⟨_, List.mem_map_of_mem (SkillCollection.mem_of_findOne hfind), ?_, ?_⟩
      · exact SkillCollection.put_reference ..
      · rw [get_name_put, hname]

/-- An upsert goes to the entry of an earlier write exactly when it finds it. -/
theorem reference_eq_iff (h : HasEntry c d) {value : Json} {data : Dict}
    (hwrite : c.upsert "name" value data = (c', reference)) :
    d.reference = reference
      ↔ (c.findOne "name" value).map StrapiEntry.reference = some d.reference := by
  unfold SkillCollection.upsert at hwrite
  cases hfind : c.findOne "name" value with
  | none =>
      rw [hfind] at hwrite
      cases hwrite
      obtain ⟨e, he, hreference, -⟩ := h
      have hbelow := c.below e he
      simp only [Option.map_none, reduceCtorEq, iff_false]
      omega
  | some old =>
      rw [hfind] at hwrite
      cases hwrite
      simp [eq_comm]

end Write

/-! ## One row -/

namespace ProceduralTable

variable {t : ProceduralTable} {item : ProceduralItem} {row : ProceduralRow}

theorem mem_upsert (h : row ∈ (t.upsert item).1.rows) :
    row ∈ t.rows ∨ (∃ old ∈ t.rows, row = item.updatedRow old ∧ row.key = old.key)
      ∨ row = item.insertedRow t.nextId := by
  unfold upsert at h
  split at h
  · rename_i found hfound
    obtain ⟨old, hold, rfl⟩ := List.mem_map.mp h
    by_cases hkey : old.key = item.key
    · have happly : applyItem item old = item.updatedRow old := if_pos hkey
      exact Or.inr (Or.inl ⟨old, hold, happly, applyItem_key item old⟩)
    · have happly : applyItem item old = old := if_neg hkey
      rw [happly]
      exact Or.inl hold
  · rcases List.mem_append.mp h with hold | hnew
    · exact Or.inl hold
    · exact Or.inr (Or.inr (List.mem_singleton.mp hnew))

/-- An upsert leaves the lineage of every row. -/
theorem kept_upsert (item : ProceduralItem) (h : row ∈ t.rows) :
    ∃ row' ∈ (t.upsert item).1.rows, row'.key = row.key ∧ row'.skillDraftId = row.skillDraftId := by
  unfold upsert
  split
  · refine ⟨_, List.mem_map_of_mem h, applyItem_key item row, ?_⟩
    unfold applyItem
    split <;> rfl
  · exact ⟨row, List.mem_append_left _ h, rfl, rfl⟩

/-- The row an upsert returns is in the table. -/
theorem upsert_mem (t : ProceduralTable) (item : ProceduralItem) :
    (t.upsert item).2 ∈ (t.upsert item).1.rows := by
  unfold upsert
  split
  · rename_i found hfound
    refine List.mem_map.mpr ⟨found, List.mem_of_find?_eq_some hfound, ?_⟩
    exact if_pos (key_of_find hfound)
  · exact List.mem_append_right _ (List.mem_singleton.mpr rfl)

/-- The identities of the rows, all of them given out already. -/
structure Identified (t : ProceduralTable) : Prop where
  distinct : (t.rows.map ProceduralRow.id).Nodup
  below : ∀ row ∈ t.rows, row.id < t.nextId

theorem Identified.mapRows (h : t.Identified) {f : ProceduralRow → ProceduralRow}
    (hkey : ∀ row, (f row).key = row.key) (hid : ∀ row, (f row).id = row.id) :
    (t.mapRows f hkey).Identified := by
  refine ⟨?_, fun row hrow => ?_⟩
  · show ((t.rows.map f).map ProceduralRow.id).Nodup
    rw [List.map_map, show ProceduralRow.id ∘ f = ProceduralRow.id from funext hid]
    exact h.distinct
  · obtain ⟨old, hold, rfl⟩ := List.mem_map.mp hrow
    rw [hid]
    exact h.below old hold

theorem Identified.upsert (h : t.Identified) (item : ProceduralItem) :
    (t.upsert item).1.Identified := by
  unfold ProceduralTable.upsert
  split
  · refine h.mapRows (applyItem_key item) fun row => ?_
    unfold applyItem
    split <;> rfl
  · refine ⟨?_, fun row hrow => ?_⟩
    · show ((t.rows ++ [item.insertedRow t.nextId]).map ProceduralRow.id).Nodup
      rw [List.map_append, List.nodup_append]
      refine ⟨h.distinct, List.nodup_singleton _, ?_⟩
      rintro id hold other hnew rfl
      obtain ⟨old, hmem, hid⟩ := List.mem_map.mp hold
      have hlt := h.below old hmem
      rw [hid, List.mem_singleton.mp hnew] at hlt
      exact Nat.lt_irrefl _ hlt
    · rcases List.mem_append.mp hrow with hold | hnew
      · exact Nat.lt_succ_of_lt (h.below row hold)
      · rw [List.mem_singleton.mp hnew]
        exact Nat.lt_succ_self _

theorem Identified.mark (h : t.Identified) (id : Nat) (skillName skillDraftId : String) :
    (t.markSkillDrafted id skillName skillDraftId).Identified := by
  refine h.mapRows _ fun row => ?_
  unfold markedRow
  split <;> rfl

/-- Only `mark_skill_drafted` turns a row to `skill_drafted`. -/
theorem drafted_of_updatedRow (h : (item.updatedRow row).status = .skillDrafted) :
    row.status = .skillDrafted := by
  have hdesired : item.desiredStatus ≠ .skillDrafted := by
    unfold ProceduralItem.desiredStatus
    split <;> simp
  have hstatus : upsertStatus row.status item.desiredStatus = .skillDrafted := h
  unfold upsertStatus at hstatus
  split at hstatus
  · cases hstatus
  · split at hstatus
    · exact hstatus
    · exact absurd hstatus hdesired

theorem not_drafted_insertedRow (item : ProceduralItem) (id : Nat) :
    (item.insertedRow id).status ≠ .skillDrafted := by
  show item.desiredStatus ≠ .skillDrafted
  unfold ProceduralItem.desiredStatus
  split <;> simp

end ProceduralTable

/-! ## The invariant -/

/-- What a task relies on. -/
def ReflectionTask.Ready (p : ReflectionProgress) : ReflectionTask → Prop
  | .draft _ row => row ∈ p.store.memories.rows
  | .mark id skillName reference =>
      ∃ row ∈ p.store.memories.rows, row.id = id ∧ ⟨row.key, reference, skillName⟩ ∈ p.drafts
  | _ => True

/-- The task begins the work on an item. -/
def ReflectionTask.opens : ReflectionTask → Bool
  | .report _ | .upsert _ => true
  | _ => false

theorem ready_of_opens {task : ReflectionTask} (h : task.opens = true)
    (p : ReflectionProgress) : task.Ready p := by
  cases task with
  | report item => trivial
  | upsert item => trivial
  | draft item row => cases h
  | mark id skillName reference => cases h

theorem reflectionTasks_opens (reports : List ReportItem) (items : List ProceduralItem)
    (writeDrafts : Bool) :
    ∀ task ∈ reflectionTasks reports items writeDrafts, task.opens = true := by
  intro task htask
  rcases List.mem_append.mp htask with htask | htask
  · split at htask
    · obtain ⟨item, -, rfl⟩ := List.mem_map.mp htask
      rfl
    · cases htask
  · obtain ⟨item, -, rfl⟩ := List.mem_map.mp htask
    rfl

structure DraftInv (p : ReflectionProgress) : Prop where
  identified : p.store.memories.Identified
  written : ∀ d ∈ p.drafts, HasEntry p.store.skills d
  drafted : DraftedOnce p
  ready : ∀ task ∈ p.pending, task.Ready p
  opens : ∀ task ∈ p.pending.tail, task.opens = true

theorem NamesDraft.mono {row row' : ProceduralRow} (h : NamesDraft p row)
    (hdrafts : ∀ d ∈ p.drafts, d ∈ q.drafts)
    (hentries : ∀ d, HasEntry p.store.skills d → HasEntry q.store.skills d)
    (hkey : row'.key = row.key) (hname : row'.promotedSkillName = row.promotedSkillName)
    (hid : row'.skillDraftId = row.skillDraftId) : NamesDraft q row' := by
  obtain ⟨d, hd, hmemory, hskill, hdraft, hentry⟩ := h
  exact ⟨d, hdrafts d hd, hmemory.trans hkey.symm, hname.trans hskill, hid.trans hdraft,
    hentries d hentry⟩

/-- Between two items, only the entries may have changed. -/
theorem DraftInv.between (h : DraftInv p) (hmemories : q.store.memories = p.store.memories)
    (hdrafts : q.drafts = p.drafts)
    (hentries : ∀ d, HasEntry p.store.skills d → HasEntry q.store.skills d)
    (hopens : ∀ task ∈ q.pending, task.opens = true) : DraftInv q where
  identified := hmemories ▸ h.identified
  written d hd := hentries d (h.written d (hdrafts ▸ hd))
  drafted := by
    refine ⟨?_, fun row hrow hstatus => ?_⟩
    · rw [hdrafts]
      exact h.drafted.once
    · rw [hmemories] at hrow
      exact (h.drafted.named row hrow hstatus).mono (fun d hd => by rw [hdrafts]; exact hd) hentries
        rfl rfl rfl
  ready task htask := ready_of_opens (hopens task htask) q
  opens task htask := hopens task (List.mem_of_mem_tail htask)

/-! ## One step -/

section Step

variable {reply : Option Dict} {rest : List ReflectionTask} {item : ProceduralItem}
  {row : ProceduralRow}

theorem report_inv (h : DraftInv p) (report : ReportItem) (reply : Option Dict)
    (hopens : ∀ task ∈ rest, task.opens = true) : DraftInv (p.report env report reply rest) := by
  unfold ReflectionProgress.report
  split
  · rename_i skills reference hwrite
    obtain ⟨-, priority, -, hupsert⟩ := writeSkillDraft_eq_ok.mp hwrite
    exact h.between rfl rfl (fun d hd => hd.upsert hupsert) hopens
  · exact h.between rfl rfl (fun d hd => hd) fun task htask => absurd htask List.not_mem_nil

theorem upsert_inv (h : DraftInv p) (item : ProceduralItem) (memoryCandidateIds : List Int)
    (hopens : ∀ task ∈ rest, task.opens = true) :
    DraftInv (p.upsert item memoryCandidateIds rest) := by
  let stored := { item with sourceMemoryCandidateIds := memoryCandidateIds }
  have hrows : ∀ row ∈ (p.store.memories.upsert stored).1.rows, row.status = .skillDrafted →
      NamesDraft (p.upsert item memoryCandidateIds rest) row := by
    intro row hrow hstatus
    rcases ProceduralTable.mem_upsert hrow with hold | ⟨old, hold, rfl, hkey⟩ | rfl
    · exact h.drafted.named row hold hstatus
    · have hdrafted := ProceduralTable.drafted_of_updatedRow hstatus
      exact (h.drafted.named old hold hdrafted).mono (fun _ hd => hd) (fun _ hd => hd) hkey rfl rfl
    · exact absurd hstatus (ProceduralTable.not_drafted_insertedRow _ _)
  refine ⟨h.identified.upsert stored, h.written, ⟨h.drafted.once, hrows⟩, ?_, ?_⟩
  · intro task htask
    unfold ReflectionProgress.upsert at htask
    dsimp only at htask
    split at htask
    · rcases List.mem_cons.mp htask with rfl | htask
      · exact ProceduralTable.upsert_mem p.store.memories stored
      · exact ready_of_opens (hopens task htask) _
    · exact ready_of_opens (hopens task htask) _
  · intro task htask
    unfold ReflectionProgress.upsert at htask
    dsimp only at htask
    split at htask
    · exact hopens task htask
    · exact hopens task (List.mem_of_mem_tail htask)

theorem mark_inv (h : DraftInv p) {id reference : Nat} {skillName : String}
    (hready : (ReflectionTask.mark id skillName reference).Ready p)
    (hopens : ∀ task ∈ rest, task.opens = true) :
    DraftInv (p.mark id skillName reference rest) := by
  obtain ⟨row, hrow, hid, hdraft⟩ := hready
  refine ⟨h.identified.mark id skillName _, h.written, ⟨h.drafted.once, ?_⟩,
    fun task htask => ready_of_opens (hopens task htask) _,
    fun task htask => hopens task (List.mem_of_mem_tail htask)⟩
  intro marked hmarked hstatus
  obtain ⟨old, hold, rfl⟩ := List.mem_map.mp hmarked
  by_cases hmark : old.id = id ∧ old.status = .candidate
  · have hsame : old = row :=
      List.inj_on_of_nodup_map h.identified.distinct hold hrow (hmark.1.trans hid.symm)
    subst hsame
    unfold ProceduralTable.markedRow
    rw [if_pos hmark]
    exact ⟨_, hdraft, rfl, rfl, rfl, h.written _ hdraft⟩
  · have hkept : ProceduralTable.markedRow id skillName (toString reference) old = old :=
      if_neg hmark
    rw [hkept] at hstatus ⊢
    exact h.drafted.named old hold hstatus

/-- The entry that a written draft adds to the history. -/
theorem draft_written (rest : List ReflectionTask) {skills : SkillCollection} {reference : Nat}
    (hwrite : writeSkillDraft env.toSkillEnv p.store.skills
      ((memoryDraft item row reply).draft env.toSkillEnv) = .ok (skills, reference)) :
    ∃ name, Dict.get ((memoryDraft item row reply).draft env.toSkillEnv) "name" = .str name
      ∧ p.draft env item row reply rest
        = { p with
            store := { p.store with skills := skills }
            pending := .mark row.id name reference :: rest
            drafts := p.drafts ++ [⟨row.key, reference, name⟩] } := by
  obtain ⟨name, hname⟩ := draft_name env.toSkillEnv (memoryDraft item row reply)
  have hpy : (Dict.get ((memoryDraft item row reply).draft env.toSkillEnv) "name").pyStr
      = name := by
    rw [hname]
    rfl
  refine ⟨name, hname, ?_⟩
  rw [← hpy]
  exact ReflectionProgress.draft_ok hwrite

/-- A valid draft leaves the memory with one entry exactly when it finds the one it has. -/
theorem draft_once_iff (h : DraftInv p) {skills : SkillCollection} {reference : Nat}
    (name : String)
    (hwrite : p.store.skills.upsert "name"
      (Dict.get ((memoryDraft item row reply).draft env.toSkillEnv) "name")
      (draftPayload env.toSkillEnv ((memoryDraft item row reply).draft env.toSkillEnv) 0)
        = (skills, reference)) :
    (∀ d ∈ p.drafts ++ [⟨row.key, reference, name⟩],
      ∀ d' ∈ p.drafts ++ [⟨row.key, reference, name⟩], d.memory = d'.memory →
        d.reference = d'.reference)
      ↔ ∀ d ∈ p.drafts, d.memory = row.key →
        (p.store.skills.findOne "name"
            (Dict.get ((memoryDraft item row reply).draft env.toSkillEnv) "name")).map
          StrapiEntry.reference = some d.reference := by
  constructor
  · intro honce d hd hmemory
    refine (reference_eq_iff (h.written d hd) hwrite).mp ?_
    exact honce d (List.mem_append_left _ hd) _ (List.mem_append_right _
      (List.mem_singleton.mpr rfl)) hmemory
  · intro hfinds
    have hnew : ∀ d ∈ p.drafts, d.memory = row.key → d.reference = reference :=
      fun d hd hmemory => (reference_eq_iff (h.written d hd) hwrite).mpr (hfinds d hd hmemory)
    intro d hd d' hd' hmemory
    rcases List.mem_append.mp hd with hd | hd
    · rcases List.mem_append.mp hd' with hd' | hd'
      · exact h.drafted.once d hd d' hd' hmemory
      · rw [List.mem_singleton.mp hd'] at hmemory ⊢
        exact hnew d hd hmemory
    · rw [List.mem_singleton.mp hd] at hmemory ⊢
      rcases List.mem_append.mp hd' with hd' | hd'
      · exact (hnew d' hd' hmemory.symm).symm
      · rw [List.mem_singleton.mp hd']

/-- The draft of a memory, written or not, keeps the invariant when it finds the entry. -/
theorem draft_inv (h : DraftInv p) (hrow : row ∈ p.store.memories.rows)
    (hopens : ∀ task ∈ rest, task.opens = true)
    (hpending : p.pending = .draft item row :: rest)
    (hfinds : FindsEntry env p (.next reply [])) : DraftInv (p.draft env item row reply rest) := by
  rcases hwrite : writeSkillDraft env.toSkillEnv p.store.skills
      ((memoryDraft item row reply).draft env.toSkillEnv) with message | ⟨skills, reference⟩
  · have hdraft : p.draft env item row reply rest = { p with pending := [] } :=
      ReflectionProgress.draft_error hwrite
    rw [hdraft]
    exact h.between rfl rfl (fun d hd => hd) fun task htask => absurd htask List.not_mem_nil
  · obtain ⟨hvalid, hupsert⟩ := writeSkillDraft_draft.mp hwrite
    obtain ⟨name, hname, hdraft⟩ := draft_written rest hwrite
    unfold FindsEntry at hfinds
    rw [hpending] at hfinds
    have honce := (draft_once_iff h name hupsert).mpr (hfinds hvalid)
    have hentries : ∀ d, HasEntry p.store.skills d → HasEntry skills d :=
      fun d hd => hd.upsert hupsert
    rw [hdraft]
    refine ⟨h.identified, ?_, ⟨honce, fun other hother hstatus => ?_⟩, ?_, hopens⟩
    · intro d hd
      rcases List.mem_append.mp hd with hd | hd
      · exact hentries d (h.written d hd)
      · rw [List.mem_singleton.mp hd]
        exact hasEntry_of_upsert hname hupsert
    · exact (h.drafted.named other hother hstatus).mono
        (fun d hd => List.mem_append_left _ hd) hentries rfl rfl rfl
    · intro task htask
      rcases List.mem_cons.mp htask with rfl | htask
      · exact ⟨row, hrow, rfl, List.mem_append_right _ (List.mem_singleton.mpr rfl)⟩
      · exact ready_of_opens (hopens task htask) _

/-- A draft that does not find the entry makes a second one. -/
theorem finds_of_draft (h : DraftInv p) (hpending : p.pending = .draft item row :: rest)
    (honce : DraftedOnce (p.draft env item row reply rest)) :
    FindsEntry env p (.next reply []) := by
  unfold FindsEntry
  rw [hpending]
  intro hvalid
  let upserted := p.store.skills.upsert "name"
    (Dict.get ((memoryDraft item row reply).draft env.toSkillEnv) "name")
    (draftPayload env.toSkillEnv ((memoryDraft item row reply).draft env.toSkillEnv) 0)
  have hwrite : writeSkillDraft env.toSkillEnv p.store.skills
      ((memoryDraft item row reply).draft env.toSkillEnv) = .ok (upserted.1, upserted.2) :=
    writeSkillDraft_draft.mpr ⟨hvalid, rfl⟩
  obtain ⟨name, -, hdraft⟩ := draft_written rest hwrite
  rw [hdraft] at honce
  exact (draft_once_iff h name rfl).mp honce.once

end Step

/-! ## Runs -/

/-- A step that finds the entry keeps the invariant. -/
theorem step_inv {a : ReflectionAction} (h : DraftInv p) (hfinds : FindsEntry env p a)
    (hstep : reflectionProgressStep env p a = some q) : DraftInv q := by
  cases a with
  | start reports items writeDrafts =>
      obtain ⟨-, hq⟩ := Option.ite_none_right_eq_some.mp hstep
      cases hq
      exact h.between rfl rfl (fun d hd => hd) (reflectionTasks_opens reports items writeDrafts)
  | next reply memoryCandidateIds =>
      unfold reflectionProgressStep at hstep
      cases hpending : p.pending with
      | nil =>
          rw [hpending] at hstep
          cases hstep
      | cons task rest =>
          have hready := h.ready task (by rw [hpending]; exact List.mem_cons_self)
          have hopens : ∀ other ∈ rest, other.opens = true := by
            have htail := h.opens
            rw [hpending] at htail
            exact htail
          rw [hpending] at hstep
          cases hstep
          cases task with
          | report item => exact report_inv h item reply hopens
          | upsert item => exact upsert_inv h item memoryCandidateIds hopens
          | draft item row => exact draft_inv h hready hopens hpending hfinds
          | mark id skillName reference => exact mark_inv h hready hopens
  | crash =>
      cases hstep
      exact h.between rfl rfl (fun d hd => hd) fun task htask => absurd htask List.not_mem_nil

/-- Only the draft of a memory has something to find. -/
theorem findsEntry_of_draft {a : ReflectionAction}
    (h : ∀ reply memoryCandidateIds item row rest, a = .next reply memoryCandidateIds →
      p.pending = .draft item row :: rest → FindsEntry env p a) : FindsEntry env p a := by
  cases a with
  | start reports items writeDrafts => trivial
  | crash => trivial
  | next reply memoryCandidateIds =>
      cases hpending : p.pending with
      | nil =>
          unfold FindsEntry
          rw [hpending]
          trivial
      | cons task rest =>
          cases task with
          | draft item row => exact h reply memoryCandidateIds item row rest rfl hpending
          | _ =>
              unfold FindsEntry
              rw [hpending]
              trivial

/-- A step after which memories have one draft each has found the entry. -/
theorem finds_of_step {a : ReflectionAction} (h : DraftInv p)
    (honce : ∀ q, reflectionProgressStep env p a = some q → DraftedOnce q) :
    FindsEntry env p a := by
  refine findsEntry_of_draft ?_
  rintro reply memoryCandidateIds item row rest rfl hpending
  refine finds_of_draft h hpending (honce _ ?_)
  unfold reflectionProgressStep
  rw [hpending]
  rfl

/-- No memories yet, and any Skills. -/
def freshReflection (c : SkillCollection) : ReflectionProgress where
  store := ⟨c, .empty⟩

theorem freshReflection_inv (c : SkillCollection) : DraftInv (freshReflection c) where
  identified := ⟨List.nodup_nil, fun _ h => absurd h List.not_mem_nil⟩
  written _ h := absurd h List.not_mem_nil
  drafted := ⟨fun _ h => absurd h List.not_mem_nil, fun _ h => absurd h List.not_mem_nil⟩
  ready _ h := absurd h List.not_mem_nil
  opens _ h := absurd h List.not_mem_nil

/-- For every sequence of weekly reflections, whatever the model answers and wherever they
crash: each memory leads to one draft, which it names once it is drafted, exactly when no
valid draft of a memory that already has an entry misses that entry. -/
theorem memories_drafted_once_iff (env : LearningEnv) (c : SkillCollection)
    (actions : List ReflectionAction) :
    (∀ before after p, actions = before ++ after →
        Runs.run (reflectionProgressStep env) (freshReflection c) before = some p →
        DraftedOnce p)
      ↔ Runs.Meets (reflectionProgressStep env) (FindsEntry env) (freshReflection c) actions :=
  Runs.states_iff_meets (fun _ => DraftInv.drafted) (fun _ _ _ => step_inv)
    (fun _ _ => finds_of_step) (freshReflection_inv c)

/-! ## A crash before the mark -/

/-- A memory about refunds that passes the gate. -/
def refundMemory : ProceduralItem where
  agentId := "agent-a"
  fingerprint := "digest"
  clusterKey := "refund"
  clusterTitle := "refund"
  promotionStatus := .eligible
  promotionReason := "promotion_gate_passed"
  count := 3
  evidenceCount := 3
  positiveCount := 2
  negativeCount := 0
  negativeRatio := "0.0"
  examples := ["refund"]
  successfulResponseExamples := ["ask", "check"]
  sourceTraceIds := ["t1", "t2", "t3"]
  positiveTraceIds := ["t1", "t2"]
  proposeSkills := true

def namedReply (name : String) : Dict :=
  [("name", .str name), ("title", .str "refund"), ("description", .str "refund"),
    ("content", .str "check")]

/-- The first run stops after its draft, the second one is told another name. -/
def crashedWeeks : List ReflectionAction :=
  [.start [] [refundMemory] true, .next none [], .next (some (namedReply "refund_guide")) [],
    .crash,
    .start [] [refundMemory] true, .next none [], .next (some (namedReply "refund_steps")) []]

theorem memory_drafted_twice : ¬ ∀ env c actions p,
    Runs.run (reflectionProgressStep env) (freshReflection c) actions = some p →
      DraftedOnce p := by
  intro h
  have hdrafts : (Runs.run (reflectionProgressStep exactEnv) (freshReflection .empty)
      crashedWeeks).map ReflectionProgress.drafts
      = some [⟨("agent-a", "digest"), 0, "refund_guide"⟩,
        ⟨("agent-a", "digest"), 1, "refund_steps"⟩] := by decide +kernel
  obtain ⟨p, hp, hdrafts⟩ := Option.map_eq_some_iff.mp hdrafts
  have honce := (h exactEnv .empty crashedWeeks p hp).once
  rw [hdrafts] at honce
  have hsame : 0 = 1 := honce _ List.mem_cons_self _
    (List.mem_cons_of_mem _ List.mem_cons_self) rfl
  cases hsame

/-! ## Runs that do not stop before a mark -/

/-- No crash comes between a draft and its mark. -/
def Unbroken (p : ReflectionProgress) (a : ReflectionAction) : Prop :=
  a = .crash → ∀ id skillName reference rest, p.pending ≠ .mark id skillName reference :: rest

/-- The row refers to a draft, or the next step marks it. -/
def MarkedOrNext (p : ReflectionProgress) (row : ProceduralRow) : Prop :=
  row.skillDraftId.getD "" ≠ ""
    ∨ row.status = .candidate ∧ ∃ skillName reference rest,
      p.pending = .mark row.id skillName reference :: rest

structure MarkInv (p : ReflectionProgress) : Prop extends DraftInv p where
  draftable : ∀ item row rest, p.pending = .draft item row :: rest → canCreateSkillDraft row = true
  marked : ∀ d ∈ p.drafts, ∃ row ∈ p.store.memories.rows, row.key = d.memory ∧ MarkedOrNext p row

/-- A memory about to be drafted has no entry yet. -/
theorem findsEntry_of_markInv (h : MarkInv p) (a : ReflectionAction) : FindsEntry env p a := by
  refine findsEntry_of_draft ?_
  rintro reply memoryCandidateIds item row rest rfl hpending
  unfold FindsEntry
  rw [hpending]
  intro _ d hd hmemory
  have hrow : row ∈ p.store.memories.rows := h.ready (.draft item row) (by
    rw [hpending]
    exact List.mem_cons_self)
  obtain ⟨other, hother, hkey, hmarked⟩ := h.marked d hd
  have hsame : other = row := List.inj_on_of_nodup_map p.store.memories.unique hother hrow
    (hkey.trans hmemory)
  subst hsame
  have hcan := h.draftable item other rest hpending
  unfold canCreateSkillDraft at hcan
  rcases hmarked with hdrafted | ⟨-, skillName, reference, rest', hmark⟩
  · simp [hdrafted] at hcan
  · rw [hpending] at hmark
    cases hmark

/-- The rows of the entries stay referred to while no mark is due. -/
theorem MarkInv.keep (h : MarkInv p) (hq : DraftInv q)
    (hnomark : ∀ id skillName reference rest, p.pending ≠ .mark id skillName reference :: rest)
    (hdrafts : q.drafts = p.drafts)
    (hrows : ∀ row ∈ p.store.memories.rows, ∃ row' ∈ q.store.memories.rows,
      row'.key = row.key ∧ row'.skillDraftId = row.skillDraftId)
    (hdraftable : ∀ item row rest, q.pending = .draft item row :: rest →
      canCreateSkillDraft row = true) : MarkInv q where
  toDraftInv := hq
  draftable := hdraftable
  marked d hd := by
    rw [hdrafts] at hd
    obtain ⟨row, hrow, hkey, hmarked⟩ := h.marked d hd
    obtain ⟨row', hrow', hkey', hid⟩ := hrows row hrow
    refine ⟨row', hrow', hkey'.trans hkey, Or.inl ?_⟩
    rcases hmarked with hdrafted | ⟨-, skillName, reference, rest, hmark⟩
    · rw [hid]
      exact hdrafted
    · exact absurd hmark (hnomark _ _ _ _)

theorem not_draft_of_opens {tasks : List ReflectionTask}
    (h : ∀ task ∈ tasks, task.opens = true) {item : ProceduralItem} {row : ProceduralRow}
    {rest : List ReflectionTask} : tasks ≠ .draft item row :: rest := by
  rintro rfl
  cases h _ List.mem_cons_self

section Unbroken

variable {reply : Option Dict} {rest : List ReflectionTask} {item : ProceduralItem}
  {row : ProceduralRow}

theorem upsert_marks (h : MarkInv p) (memoryCandidateIds : List Int)
    (hpending : p.pending = .upsert item :: rest)
    (hopens : ∀ task ∈ rest, task.opens = true) :
    MarkInv (p.upsert item memoryCandidateIds rest) := by
  refine h.keep (upsert_inv h.toDraftInv item memoryCandidateIds hopens) ?_ rfl ?_ ?_
  · intro id skillName reference rest' hmark
    rw [hpending] at hmark
    cases hmark
  · intro row hrow
    exact ProceduralTable.kept_upsert _ hrow
  · intro other row' rest' hdraft
    unfold ReflectionProgress.upsert at hdraft
    dsimp only at hdraft
    split at hdraft
    · rename_i hgets
      cases hdraft
      exact hgets.2.2
    · exact absurd hdraft (not_draft_of_opens hopens)

theorem draft_marks (h : MarkInv p) (hrow : row ∈ p.store.memories.rows)
    (hopens : ∀ task ∈ rest, task.opens = true)
    (hpending : p.pending = .draft item row :: rest) :
    MarkInv (p.draft env item row reply rest) := by
  have hinv : DraftInv (p.draft env item row reply rest) :=
    draft_inv h.toDraftInv hrow hopens hpending (findsEntry_of_markInv h _)
  have hnomark : ∀ id skillName reference rest',
      p.pending ≠ .mark id skillName reference :: rest' := by
    intro id skillName reference rest' hmark
    rw [hpending] at hmark
    cases hmark
  rcases hwrite : writeSkillDraft env.toSkillEnv p.store.skills
      ((memoryDraft item row reply).draft env.toSkillEnv) with message | ⟨skills, reference⟩
  · have hdraft : p.draft env item row reply rest = { p with pending := [] } :=
      ReflectionProgress.draft_error hwrite
    rw [hdraft] at hinv ⊢
    exact h.keep hinv hnomark rfl (fun row hrow => ⟨row, hrow, rfl, rfl⟩)
      fun _ _ _ hnil => nomatch hnil
  · obtain ⟨name, -, hdraft⟩ := draft_written rest hwrite
    rw [hdraft] at hinv ⊢
    refine ⟨hinv, fun _ _ _ hmark => (nomatch hmark), fun d hd => ?_⟩
    rcases List.mem_append.mp hd with hd | hd
    · obtain ⟨other, hother, hkey, hdrafted | ⟨-, skillName, reference, rest', hmark⟩⟩ :=
        h.marked d hd
      · exact ⟨other, hother, hkey, Or.inl hdrafted⟩
      · exact absurd hmark (hnomark _ _ _ _)
    · rw [List.mem_singleton.mp hd]
      have hcan := h.draftable item row rest hpending
      unfold canCreateSkillDraft at hcan
      simp only [Bool.and_eq_true, decide_eq_true_eq] at hcan
      exact ⟨row, hrow, rfl, Or.inr ⟨hcan.1.1, name, reference, rest, rfl⟩⟩

theorem report_marks {report : ReportItem} (h : MarkInv p)
    (hinv : DraftInv (p.report env report reply rest))
    (hpending : p.pending = .report report :: rest)
    (hopens : ∀ task ∈ rest, task.opens = true) : MarkInv (p.report env report reply rest) := by
  have hkept : (p.report env report reply rest).store.memories = p.store.memories
      ∧ (p.report env report reply rest).drafts = p.drafts
      ∧ ∀ task ∈ (p.report env report reply rest).pending, task.opens = true := by
    unfold ReflectionProgress.report
    split
    · exact ⟨rfl, rfl, hopens⟩
    · exact ⟨rfl, rfl, fun task htask => absurd htask List.not_mem_nil⟩
  obtain ⟨hmemories, hdrafts, hq⟩ := hkept
  refine h.keep hinv ?_ hdrafts (fun row hrow => ⟨row, hmemories ▸ hrow, rfl, rfl⟩)
    fun item row rest' hdraft => absurd hdraft (not_draft_of_opens hq)
  intro id skillName reference rest' hmark
  rw [hpending] at hmark
  cases hmark

theorem mark_marks (h : MarkInv p) {id reference : Nat} {skillName : String}
    (hpending : p.pending = .mark id skillName reference :: rest)
    (hready : (ReflectionTask.mark id skillName reference).Ready p)
    (hopens : ∀ task ∈ rest, task.opens = true) :
    MarkInv (p.mark id skillName reference rest) := by
  refine ⟨mark_inv h.toDraftInv hready hopens, fun item row rest' hdraft =>
    absurd hdraft (not_draft_of_opens hopens), fun d hd => ?_⟩
  obtain ⟨row, hrow, hkey, hmarked⟩ := h.marked d hd
  refine ⟨_, List.mem_map_of_mem hrow, ?_, Or.inl ?_⟩
  · rw [← hkey]
    unfold ProceduralTable.markedRow
    split <;> rfl
  · by_cases hmark : row.id = id ∧ row.status = .candidate
    · unfold ProceduralTable.markedRow
      rw [if_pos hmark]
      exact Nat.repr_ne_empty
    · unfold ProceduralTable.markedRow
      rw [if_neg hmark]
      rcases hmarked with hdrafted | ⟨hcandidate, skillName', reference', rest', hnext⟩
      · exact hdrafted
      · rw [hpending] at hnext
        cases hnext
        exact absurd ⟨rfl, hcandidate⟩ hmark

end Unbroken

theorem step_marks {a : ReflectionAction} (h : MarkInv p) (hunbroken : Unbroken p a)
    (hstep : reflectionProgressStep env p a = some q) : MarkInv q := by
  have hinv : DraftInv q := step_inv h.toDraftInv (findsEntry_of_markInv h a) hstep
  cases a with
  | start reports items writeDrafts =>
      obtain ⟨hidle, hq⟩ := Option.ite_none_right_eq_some.mp hstep
      cases hq
      refine h.keep hinv ?_ rfl (fun row hrow => ⟨row, hrow, rfl, rfl⟩) fun item row rest hdraft =>
        absurd hdraft (not_draft_of_opens (reflectionTasks_opens reports items writeDrafts))
      intro id skillName reference rest hmark
      rw [hmark] at hidle
      cases hidle
  | crash =>
      cases hstep
      exact h.keep hinv (hunbroken rfl) rfl (fun row hrow => ⟨row, hrow, rfl, rfl⟩)
        fun _ _ _ hnil => nomatch hnil
  | next reply memoryCandidateIds =>
      unfold reflectionProgressStep at hstep
      cases hpending : p.pending with
      | nil =>
          rw [hpending] at hstep
          cases hstep
      | cons task rest =>
          have hready := h.ready task (by rw [hpending]; exact List.mem_cons_self)
          have hopens : ∀ other ∈ rest, other.opens = true := by
            have htail := h.opens
            rw [hpending] at htail
            exact htail
          rw [hpending] at hstep
          cases hstep
          cases task with
          | report item => exact report_marks h hinv hpending hopens
          | upsert item => exact upsert_marks h memoryCandidateIds hpending hopens
          | draft item row => exact draft_marks h hready hopens hpending
          | mark id skillName reference => exact mark_marks h hpending hready hopens

/-- When no run stops between a draft and its mark, memories have one draft each. -/
theorem drafted_once_of_unbroken (env : LearningEnv) (c : SkillCollection)
    (actions : List ReflectionAction) (p : ReflectionProgress)
    (hunbroken : Runs.Meets (reflectionProgressStep env) Unbroken (freshReflection c) actions)
    (hrun : Runs.run (reflectionProgressStep env) (freshReflection c) actions = some p) :
    DraftedOnce p := by
  have hinv : MarkInv p := Runs.run_invariant (fun _ _ _ h ha hstep => step_marks h ha hstep)
    ⟨freshReflection_inv c, fun _ _ _ hnil => (nomatch hnil),
      fun _ hd => absurd hd List.not_mem_nil⟩ hunbroken hrun
  exact hinv.drafted

end Aegora
