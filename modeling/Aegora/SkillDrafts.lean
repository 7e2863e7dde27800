import Aegora.Skills

/-!
# Writing a Skill draft

`skill_drafts.py` over the Skill collection of the content service. The
collection keeps entries under addresses of its own (`entity_reference`); a
draft is upserted by its name, so the entry that is overwritten is the first
one the service lists under that name, whoever made it.
-/

namespace Aegora

open Py

/-- `str.lower`, the hexadecimal digest and the two settings a draft depends on. -/
structure SkillEnv where
  lower : String → String
  sha256 : String → String
  maxContentChars : Nat
  productId : String

/-- Settings for texts that are ASCII in lower case already, with a constant digest. -/
def plainEnv : SkillEnv where
  lower := id
  sha256 := fun _ => "digest"
  maxContentChars := 4000
  productId := "aicoin"

/-! ## The collection -/

structure StrapiEntry where
  reference : Nat
  attributes : Dict
deriving DecidableEq

def StrapiEntry.attribute (e : StrapiEntry) (key : String) : Json := Dict.get e.attributes key

/-- The entries in the order the service lists them; addresses are not reused. -/
structure SkillCollection where
  entries : List StrapiEntry
  next : Nat
  distinct : (entries.map StrapiEntry.reference).Nodup
  below : ∀ e ∈ entries, e.reference < next

namespace SkillCollection

def empty : SkillCollection := ⟨[], 0, List.nodup_nil, fun _ h => absurd h List.not_mem_nil⟩

/-- `find_one`: the first row of the filtered list. -/
def findOne (c : SkillCollection) (field : String) (value : Json) : Option StrapiEntry :=
  c.entries.find? fun e => decide (e.attribute field = value)

/-- A `PUT` replaces the attributes it sends. -/
def put (data : Dict) (reference : Nat) (e : StrapiEntry) : StrapiEntry :=
  if e.reference = reference then { e with attributes := Dict.merge e.attributes data } else e

@[simp] theorem put_reference (data : Dict) (reference : Nat) (e : StrapiEntry) :
    (put data reference e).reference = e.reference := by
  unfold put
  split <;> rfl

def update (c : SkillCollection) (reference : Nat) (data : Dict) : SkillCollection where
  entries := c.entries.map (put data reference)
  next := c.next
  distinct := by
    have hcomp : StrapiEntry.reference ∘ put data reference = StrapiEntry.reference :=
      funext fun e => put_reference data reference e
    rw [List.map_map, hcomp]
    exact c.distinct
  below := by
    intro e he
    obtain ⟨old, hold, rfl⟩ := List.mem_map.mp he
    rw [put_reference]
    exact c.below old hold

def create (c : SkillCollection) (data : Dict) : SkillCollection where
  entries := c.entries ++ [{ reference := c.next, attributes := data }]
  next := c.next + 1
  distinct := by
    rw [List.map_append, List.nodup_append]
    refine ⟨c.distinct, List.nodup_singleton _, ?_⟩
    rintro reference hmem other hother rfl
    obtain ⟨e, he, hreference⟩ := List.mem_map.mp hmem
    have hlt := c.below e he
    have heq : reference = c.next := List.mem_singleton.mp hother
    omega
  below := by
    intro e he
    rcases List.mem_append.mp he with he | he
    · exact Nat.lt_succ_of_lt (c.below e he)
    · rw [List.mem_singleton.mp he]
      exact Nat.lt_succ_self _

/-- `upsert`, with the address of the entry it answers with. -/
def upsert (c : SkillCollection) (field : String) (value : Json) (data : Dict) :
    SkillCollection × Nat :=
  match c.findOne field value with
  | some e => (c.update e.reference data, e.reference)
  | none => (c.create data, c.next)

end SkillCollection

/-! ## `write_skill_draft` -/

/-- The payload of a draft that passed its validation. -/
def draftPayload (env : SkillEnv) (draft : Dict) (priority : Int) : Dict :=
  [("name", Dict.get draft "name"), ("title", Dict.get draft "title"),
    ("description", Dict.get draft "description"), ("content", Dict.get draft "content"),
    ("product_id", (Dict.get draft "product_id").orElse (.str env.productId)),
    ("domain", Dict.get draft "domain"),
    ("skill_type", Dict.getD draft "skill_type" (.str "guidance")),
    ("source", .str "agent"),
    ("lifecycle_status", .str "draft"),
    ("priority", .int priority),
    ("trigger_rules", (Dict.get draft "trigger_rules").orElse (.obj [])),
    ("metadata", (Dict.get draft "metadata").orElse (.obj [])),
    ("version", .int 1),
    ("content_hash", .str (skillContentHash env.sha256
      (Dict.merge draft [("source", .str "agent"), ("status", .str "draft")])))]

/-- `write_skill_draft`; the text of a `ValueError`, else the exception's name. -/
def writeSkillDraft (env : SkillEnv) (c : SkillCollection) (draft : Dict) :
    Except String (SkillCollection × Nat) := do
  let errors ← validateSkill env.lower (Dict.merge draft [("status", .str "draft")])
    env.maxContentChars
  if errors ≠ [] then .error ("; ".intercalate errors)
  else
    let priority ← (Dict.getD draft "priority" (.int 0)).pyInt
    .ok (c.upsert "name" (Dict.get draft "name") (draftPayload env draft priority))

/-! ## Whose entry it is -/

/-- What the metadata of a draft says it was made from. -/
inductive DraftOrigin where
  | proceduralMemory (id : Json)
  | reportItem (agentId traceIds : Json)
deriving DecidableEq

def draftOrigin (metadata : Json) : DraftOrigin :=
  if fromProceduralMemory metadata.dictOrEmpty then
    .proceduralMemory (Dict.get metadata.dictOrEmpty "procedural_memory_id")
  else
    .reportItem (Dict.get metadata.dictOrEmpty "source_agent_id")
      (Dict.get metadata.dictOrEmpty "source_trace_ids")

/-- The entry is live, made by hand, or the draft of something else than `origin`. -/
def StrapiEntry.Foreign (e : StrapiEntry) (origin : DraftOrigin) : Prop :=
  e.attribute "lifecycle_status" = .str "active" ∨ e.attribute "source" = .str "manual"
    ∨ (e.attribute "lifecycle_status" = .str "draft"
      ∧ draftOrigin (e.attribute "metadata") ≠ origin)

instance (e : StrapiEntry) (origin : DraftOrigin) : Decidable (e.Foreign origin) :=
  inferInstanceAs (Decidable (_ ∨ _ ∨ _))

/-- The entry a draft would overwrite is not a foreign one. -/
def NameFree (c : SkillCollection) (draft : Dict) : Prop :=
  ∀ e, c.findOne "name" (Dict.get draft "name") = some e →
    ¬ e.Foreign (draftOrigin (Dict.get draft "metadata"))

instance (c : SkillCollection) (draft : Dict) : Decidable (NameFree c draft) :=
  match h : c.findOne "name" (Dict.get draft "name") with
  | none => isTrue fun e he => by rw [h] at he; cases he
  | some e =>
      decidable_of_iff (¬ e.Foreign (draftOrigin (Dict.get draft "metadata"))) (by
        simp [NameFree, h])

/-- What was foreign to the draft is still there, as it was. -/
def KeepsForeign (c c' : SkillCollection) (draft : Dict) : Prop :=
  ∀ e ∈ c.entries, e.Foreign (draftOrigin (Dict.get draft "metadata")) → e ∈ c'.entries

/-! ## What one write does -/

variable {env : SkillEnv} {c c' : SkillCollection} {draft : Dict} {reference : Nat}

theorem writeSkillDraft_eq_ok :
    writeSkillDraft env c draft = .ok (c', reference)
      ↔ validateSkill env.lower (Dict.merge draft [("status", .str "draft")])
            env.maxContentChars = .ok []
        ∧ ∃ priority, (Dict.getD draft "priority" (.int 0)).pyInt = .ok priority
          ∧ c.upsert "name" (Dict.get draft "name") (draftPayload env draft priority)
            = (c', reference) := by
  unfold writeSkillDraft
  rw [bind_eq_ok]
  constructor
  · rintro ⟨errors, hvalid, hwrite⟩
    obtain ⟨herrors, hwrite⟩ := ite_error_eq_ok.mp hwrite
    rw [not_not] at herrors
    obtain ⟨priority, hpriority, h⟩ := bind_eq_ok.mp hwrite
    exact ⟨herrors ▸ hvalid, priority, hpriority, Except.ok.inj h⟩
  · rintro ⟨hvalid, priority, hpriority, h⟩
    refine ⟨[], hvalid, ite_error_eq_ok.mpr ⟨by simp, bind_eq_ok.mpr ⟨priority, hpriority, ?_⟩⟩⟩
    rw [h]

/-- The attributes that tell whose entry it is, once a draft was written over it. -/
theorem get_merge_payload (env : SkillEnv) (draft attributes : Dict) (priority : Int) :
    Dict.get (Dict.merge attributes (draftPayload env draft priority)) "lifecycle_status"
        = .str "draft"
      ∧ Dict.get (Dict.merge attributes (draftPayload env draft priority)) "source"
        = .str "agent"
      ∧ Dict.get (Dict.merge attributes (draftPayload env draft priority)) "metadata"
        = (Dict.get draft "metadata").orElse (.obj []) := by
  simp [Dict.get, Dict.get?_merge, draftPayload, Dict.get?_cons]

theorem draftOrigin_orElse (metadata : Json) :
    draftOrigin (metadata.orElse (.obj [])) = draftOrigin metadata := by
  unfold Json.orElse
  split
  · rfl
  · rename_i hfalsy
    have hempty : metadata.dictOrEmpty = [] := by
      cases metadata with
      | obj entries =>
          show entries = []
          simpa [Json.truthy] using hfalsy
      | _ => rfl
    simp only [draftOrigin, hempty]
    rfl

/-- Written over, an entry belongs to the draft. -/
theorem not_foreign_put (env : SkillEnv) (draft : Dict) (e : StrapiEntry) (priority : Int) :
    ¬ (SkillCollection.put (draftPayload env draft priority) e.reference e).Foreign
        (draftOrigin (Dict.get draft "metadata")) := by
  obtain ⟨hstatus, hsource, hmetadata⟩ :=
    get_merge_payload env draft e.attributes priority
  unfold SkillCollection.put StrapiEntry.Foreign StrapiEntry.attribute
  rw [if_pos rfl, hstatus, hsource, hmetadata, draftOrigin_orElse]
  simp

namespace SkillCollection

theorem mem_of_findOne {field : String} {value : Json} {e : StrapiEntry}
    (h : c.findOne field value = some e) : e ∈ c.entries :=
  List.mem_of_find?_eq_some h

/-- Two entries at one address are the same entry. -/
theorem eq_of_reference {e e' : StrapiEntry} (he : e ∈ c.entries) (he' : e' ∈ c.entries)
    (h : e.reference = e'.reference) : e = e' :=
  List.inj_on_of_nodup_map c.distinct he he' h

theorem mem_update_of_ne {data : Dict} {e : StrapiEntry} (he : e ∈ c.entries)
    (hne : e.reference ≠ reference) : e ∈ (c.update reference data).entries :=
  List.mem_map.mpr ⟨e, he, if_neg hne⟩

/-- An upserted entry has the attributes that were sent. -/
theorem attributes_of_upsert {field : String} {value : Json} {data : Dict}
    (hdata : (data.map Prod.fst).Nodup) (h : c.upsert field value data = (c', reference))
    {e : StrapiEntry} (he : e ∈ c'.entries) (hreference : e.reference = reference) :
    ∀ kv ∈ data, Dict.get? e.attributes kv.1 = some kv.2 := by
  unfold upsert at h
  split at h
  · cases h
    obtain ⟨before, -, rfl⟩ := List.mem_map.mp he
    rw [put_reference] at hreference
    intro kv hkv
    unfold put
    rw [if_pos hreference]
    exact Dict.get?_merge_of_mem _ hdata hkv
  · cases h
    rcases List.mem_append.mp he with hold | hnew
    · have hlt := c.below e hold
      omega
    · rw [List.mem_singleton.mp hnew]
      exact fun kv hkv => (lookup_eq_some_iff_mem hdata).mpr hkv

end SkillCollection

/-- A write keeps what is foreign to the draft exactly when the name is free. -/
theorem keepsForeign_iff_nameFree
    (h : writeSkillDraft env c draft = .ok (c', reference)) :
    KeepsForeign c c' draft ↔ NameFree c draft := by
  obtain ⟨-, priority, -, h⟩ := writeSkillDraft_eq_ok.mp h
  unfold SkillCollection.upsert at h
  cases hfind : c.findOne "name" (Dict.get draft "name") with
  | none =>
      rw [hfind] at h
      cases h
      constructor
      · intro _ e he
        rw [hfind] at he
        cases he
      · intro _ e he _
        exact List.mem_append_left _ he
  | some old =>
      rw [hfind] at h
      cases h
      have hold := SkillCollection.mem_of_findOne hfind
      constructor
      · intro hkeeps e he hforeign
        rw [hfind] at he
        cases he
        obtain ⟨before, hbefore, hput⟩ := List.mem_map.mp (hkeeps old hold hforeign)
        have hsame : before = old := by
          refine SkillCollection.eq_of_reference hbefore hold ?_
          rw [← hput, SkillCollection.put_reference]
        subst hsame
        have hmine := not_foreign_put env draft before priority
        rw [hput] at hmine
        exact hmine hforeign
      · intro hfree e he hforeign
        refine SkillCollection.mem_update_of_ne he fun hreference => ?_
        have hsame := SkillCollection.eq_of_reference he hold hreference
        subst hsame
        exact hfree e hfind hforeign

end Aegora
