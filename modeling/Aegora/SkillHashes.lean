import Aegora.SkillTable

/-!
# The content hashes the writers record

`import_rows` hashes the rules of a Skill as a JSON text, the other two
writers hash them as an object. The hashed texts differ in their last but one
character, so the hash of an imported Skill is never the one a sync records
for it (`hashes_never_agree`). A draft and its sync do agree when
nothing in the draft is changed by the normalisation
(`draft_and_sync_agree`).
-/

namespace Aegora

open Py

variable {env : SkillEnv} {c c' : SkillCollection} {skill : Dict} {reference : Nat}
  {e : StrapiEntry}

/-- An entry as `list` returns it. -/
def StrapiEntry.listed (e : StrapiEntry) : Dict :=
  e.attributes ++ [("id", .int e.reference)]

/-- The three writers store the Skill and record one hash: the file import, the draft in the
content service, and the sync of that entry. -/
def HashesAgree (env : SkillEnv) (c : SkillCollection) (skill : Dict) : Prop :=
  ∃ imported c' reference e synced, normalizedSkill skill = .ok imported
    ∧ writeSkillDraft env c skill = .ok (c', reference)
    ∧ e ∈ c'.entries ∧ e.reference = reference
    ∧ normalizeStrapiSkill e.listed = .ok synced
    ∧ e.attribute "content_hash" = .str (importHash env.sha256 imported)
    ∧ e.attribute "content_hash" = .str (syncHash env.sha256 synced)

/-! ## The hashed text -/

/-- `trigger_rules` is the greatest of the hashed keys, so its value comes last. -/
theorem skillHashText_eq (skill : Dict) :
    ∃ text, skillHashText skill
      = text ++ (Dict.get skill "trigger_rules").dumps "," ":" ++ "\x7d" := by
  refine dumps_obj_of_sorted
    (["content", "description", "domain", "name", "priority", "product_id", "skill_type",
      "source", "title"].map fun key => (key, (Dict.get skill key).dumps "," ":"))
    "trigger_rules" _ ?_
  simp [skillHashKeys, Json.dumpsEntries, List.insertionSort, List.orderedInsert]

theorem skillHashText_congr {a b : Dict}
    (h : ∀ key ∈ skillHashKeys, Dict.get a key = Dict.get b key) :
    skillHashText a = skillHashText b := by
  unfold skillHashText
  rw [List.map_congr_left fun key hkey => by rw [h key hkey]]

/-- Rules hashed as a text and rules hashed as an object. -/
theorem skillHashText_ne {a b : Dict} {text : String} {rules : Dict}
    (ha : Dict.get a "trigger_rules" = .str text) (hb : Dict.get b "trigger_rules" = .obj rules) :
    skillHashText a ≠ skillHashText b := by
  obtain ⟨before, hbefore⟩ := skillHashText_eq a
  obtain ⟨before', hbefore'⟩ := skillHashText_eq b
  rw [hbefore, hbefore', ha, hb]
  exact append_dumps_ne _ _ _ _ _ _ _

/-! ## The entry a draft leaves -/

theorem draftPayload_nodup (env : SkillEnv) (draft : Dict) (priority : Int) :
    ((draftPayload env draft priority).map Prod.fst).Nodup := by
  have hkeys : (draftPayload env draft priority).map Prod.fst
      = ["name", "title", "description", "content", "product_id", "domain", "skill_type",
        "source", "lifecycle_status", "priority", "trigger_rules", "metadata", "version",
        "content_hash"] := rfl
  rw [hkeys]
  decide

/-- What a draft leaves in its entry. -/
theorem attributes_of_written (h : writeSkillDraft env c skill = .ok (c', reference))
    (he : e ∈ c'.entries) (hreference : e.reference = reference) :
    ∃ priority, (Dict.getD skill "priority" (.int 0)).pyInt = .ok priority
      ∧ ∀ kv ∈ draftPayload env skill priority, Dict.get? e.attributes kv.1 = some kv.2 := by
  obtain ⟨-, priority, hpriority, hupsert⟩ := writeSkillDraft_eq_ok.mp h
  exact ⟨priority, hpriority, SkillCollection.attributes_of_upsert
    (draftPayload_nodup env skill priority) hupsert he hreference⟩

theorem get?_listed {key : String} {value : Json} (h : Dict.get? e.attributes key = some value) :
    Dict.get? e.listed key = some value := by
  unfold StrapiEntry.listed
  rw [Dict.get?_append, h]
  rfl

/-- The rules of a Skill that passed its validation are an object. -/
theorem rules_of_valid {lower : String → String} {limit : Nat}
    (h : validateSkill lower (Dict.merge skill [("status", .str "draft")]) limit = .ok []) :
    ∃ rules, (Dict.get skill "trigger_rules").orElse (.obj []) = .obj rules := by
  have hsame : Dict.get (Dict.merge skill [("status", .str "draft")]) "trigger_rules"
      = Dict.get skill "trigger_rules" :=
    Dict.get_merge_of_not_mem skill (by simp)
  unfold validateSkill at h
  obtain ⟨typeOk, -, h⟩ := bind_eq_ok.mp h
  obtain ⟨sourceOk, -, h⟩ := bind_eq_ok.mp h
  obtain ⟨statusOk, -, h⟩ := bind_eq_ok.mp h
  have herrors := Except.ok.inj h
  rw [List.append_eq_nil_iff, List.append_eq_nil_iff] at herrors
  have hrules := herrors.1.2
  unfold triggerRuleErrors at hrules
  rw [hsame] at hrules
  split at hrules
  · rename_i rules hobj
    exact ⟨rules, hobj⟩
  · cases hrules

/-! ## Imports and syncs never agree -/

/-- What a normalised entry was read from. -/
structure NormalizedFrom (row : Dict) (f : SkillFields) : Prop where
  name : textField row "name" = .ok f.name
  title : textField row "title" = .ok f.title
  description : textField row "description" = .ok f.description
  content : textField row "content" = .ok f.content
  productId : f.productId = nonEmptyText (strippedText (Dict.get row "product_id"))
  domain : f.domain = nonEmptyText (strippedText (Dict.get row "domain"))
  skillType : f.skillType = Dict.getD row "skill_type" (.str "guidance")
  source : f.source = Dict.getD row "source" (.str "manual")
  priority : (Dict.getD row "priority" (.int 0)).pyInt = .ok f.priority
  triggerRules : f.triggerRules = (Dict.get row "trigger_rules").orElse (.obj [])

theorem normalizeStrapiSkill_eq_ok {row : Dict} {fields : SkillFields}
    (h : normalizeStrapiSkill row = .ok fields) : NormalizedFrom row fields := by
  unfold normalizeStrapiSkill at h
  obtain ⟨name, hname, h⟩ := bind_eq_ok.mp h
  obtain ⟨title, htitle, h⟩ := bind_eq_ok.mp h
  obtain ⟨description, hdescription, h⟩ := bind_eq_ok.mp h
  obtain ⟨content, hcontent, h⟩ := bind_eq_ok.mp h
  obtain ⟨priority, hpriority, h⟩ := bind_eq_ok.mp h
  obtain ⟨metadata, -, h⟩ := bind_eq_ok.mp h
  cases h
  constructor <;> dsimp only
  · exact hname
  · exact htitle
  · exact hdescription
  · exact hcontent
  · exact hpriority

theorem orElse_obj (rules : Dict) : (Json.obj rules).orElse (.obj []) = .obj rules := by
  cases rules <;> rfl

/-- The texts that an import and a sync of one Skill digest. -/
theorem import_text_ne_sync_text (h : writeSkillDraft env c skill = .ok (c', reference))
    (he : e ∈ c'.entries) (hreference : e.reference = reference) {synced : SkillFields}
    (hsynced : normalizeStrapiSkill e.listed = .ok synced) (imported : SkillFields) :
    skillHashText (importValues imported) ≠ skillHashText synced.toDict := by
  obtain ⟨priority, -, hattributes⟩ := attributes_of_written h he hreference
  obtain ⟨rules, hrules⟩ := rules_of_valid (writeSkillDraft_eq_ok.mp h).1
  have hstored : Dict.get e.listed "trigger_rules" = .obj rules := by
    have hpayload := get?_listed (hattributes ("trigger_rules", .obj rules)
      (by rw [← hrules]; simp [draftPayload]))
    rw [Dict.get, hpayload]
    rfl
  have hobject : synced.triggerRules = .obj rules := by
    rw [(normalizeStrapiSkill_eq_ok hsynced).triggerRules, hstored, orElse_obj]
  have himported : Dict.get (importValues imported) "trigger_rules"
      = .str (jsonText imported.triggerRules) := by
    simp [importValues, SkillFields.toDict, Dict.get, Dict.get?_cons]
  have hread : Dict.get synced.toDict "trigger_rules" = .obj rules := by
    simp [SkillFields.toDict, Dict.get, Dict.get?_cons, hobject]
  exact skillHashText_ne himported hread

/-- For every Skill and every state of the collection, the writers do not record one hash,
unless the digest collides. The rules are hashed as a text by one and as an object by the
others, so the hashed texts differ in their last but one character. -/
theorem hashes_never_agree (env : SkillEnv) (hsha : Function.Injective env.sha256)
    (c : SkillCollection) (skill : Dict) : ¬ HashesAgree env c skill := by
  rintro ⟨imported, c', reference, e, synced, -, hwrite, he, hreference, hsynced, himport, hsync⟩
  have hhash : importHash env.sha256 imported = syncHash env.sha256 synced :=
    Json.str.inj (himport.symm.trans hsync)
  exact import_text_ne_sync_text hwrite he hreference hsynced imported (hsha hhash)

/-- A digest without collisions. -/
def textEnv : SkillEnv := { plainEnv with sha256 := id }

/-- A Skill that every writer accepts. -/
def refundSkill : Dict :=
  [("name", .str "refund_guide"), ("title", .str "refund"), ("description", .str "refund"),
    ("content", .str "check"), ("product_id", .str "aicoin"), ("domain", .null),
    ("skill_type", .str "guidance"), ("source", .str "agent"), ("priority", .int 0),
    ("trigger_rules", .obj [])]

theorem hashes_never_agree_refund :
    validateSkill textEnv.lower refundSkill textEnv.maxContentChars = .ok []
      ∧ ¬ HashesAgree textEnv .empty refundSkill :=
  ⟨by decide +kernel, hashes_never_agree textEnv (fun _ _ h => h) .empty refundSkill⟩

/-- A file import of this Skill records another hash than its draft's sync. -/
theorem import_hash_differs :
    ¬ ∀ env c skill, validateSkill env.lower skill env.maxContentChars = .ok [] →
      HashesAgree env c skill := by
  intro h
  obtain ⟨imported, c', reference, e, synced, -, hwrite, he, hreference, hsynced, himport, hsync⟩ :=
    h textEnv .empty refundSkill (by decide +kernel)
  have htexts : skillHashText (importValues imported) = skillHashText synced.toDict :=
    Json.str.inj (himport.symm.trans hsync)
  exact import_text_ne_sync_text hwrite he hreference hsynced imported htexts

/-! ## Drafts that a sync does not change -/

/-- The normalisation of a sync finds nothing to change in the Skill. -/
structure Canonical (skill : Dict) : Prop where
  texts : ∀ key ∈ ["name", "title", "description", "content"],
    ∃ s, Dict.get skill key = .str s ∧ strip s = s
  productId : ∃ s, Dict.get skill "product_id" = .str s ∧ strip s = s ∧ s ≠ ""
  domain : Dict.get skill "domain" = .null
    ∨ ∃ s, Dict.get skill "domain" = .str s ∧ strip s = s ∧ s ≠ ""
  skillType : ∃ v, Dict.get? skill "skill_type" = some v
  priority : ∃ n, Dict.get? skill "priority" = some (.int n)
  triggerRules : ∃ rules, Dict.get skill "trigger_rules" = .obj rules

theorem textField_of_canonical {row : Dict} {key s t : String}
    (hrow : Dict.get? row key = some (.str s)) (hstrip : strip s = s)
    (h : textField row key = .ok t) : t = s := by
  unfold textField at h
  rw [hrow] at h
  have hsame : strip s = t := Except.ok.inj h
  rw [← hsame, hstrip]

theorem nonEmptyText_of_canonical {value : Json}
    (h : value = .null ∨ ∃ s, value = .str s ∧ strip s = s ∧ s ≠ "") :
    orNull (nonEmptyText (strippedText value)) = value := by
  rcases h with rfl | ⟨s, rfl, hstrip, hne⟩
  · decide
  · have htext : strippedText (.str s) = s := by
      unfold strippedText Json.orElse
      rw [Json.truthy_str, if_pos (bne_iff_ne.mpr hne), Json.pyStr_str, hstrip]
    unfold nonEmptyText
    rw [htext, if_neg hne]
    rfl

/-- The row lists what a draft writes. -/
def ListsDraft (env : SkillEnv) (skill : Dict) (priority : Int) (row : Dict) : Prop :=
  ∀ kv ∈ draftPayload env skill priority, Dict.get? row kv.1 = some kv.2

namespace ListsDraft

variable {row : Dict} {priority : Int} (h : ListsDraft env skill priority row)
include h

theorem stored {key : String} {value : Json}
    (hkv : (key, value) ∈ draftPayload env skill priority) : Dict.get? row key = some value :=
  h (key, value) hkv

theorem get {key : String} {value : Json}
    (hkv : (key, value) ∈ draftPayload env skill priority) : Dict.get row key = value := by
  rw [Dict.get, h.stored hkv]
  rfl

theorem text (hcanonical : Canonical skill) {key t : String}
    (hkey : key ∈ ["name", "title", "description", "content"])
    (ht : textField row key = .ok t) : .str t = Dict.get skill key := by
  obtain ⟨s, hs, hstrip⟩ := hcanonical.texts key hkey
  have hlisted : (key, Dict.get skill key) ∈ draftPayload env skill priority := by
    simp only [List.mem_cons, List.not_mem_nil, or_false] at hkey
    rcases hkey with rfl | rfl | rfl | rfl <;> simp [draftPayload]
  have hrow : Dict.get? row key = some (.str s) := hs ▸ h.stored hlisted
  rw [hs, textField_of_canonical hrow hstrip ht]

theorem productId (hcanonical : Canonical skill) :
    orNull (nonEmptyText (strippedText (Dict.get row "product_id")))
      = Dict.get skill "product_id" := by
  obtain ⟨s, hs, hstrip, hne⟩ := hcanonical.productId
  have hproduct : Dict.get row "product_id" = .str s := by
    have hlisted : Dict.get row "product_id"
        = (Dict.get skill "product_id").orElse (.str env.productId) :=
      h.get (by simp [draftPayload])
    rw [hlisted, hs]
    simp [Json.orElse, hne]
  rw [hproduct, hs, nonEmptyText_of_canonical (Or.inr ⟨s, rfl, hstrip, hne⟩)]

theorem domain (hcanonical : Canonical skill) :
    orNull (nonEmptyText (strippedText (Dict.get row "domain"))) = Dict.get skill "domain" := by
  have hdomain : Dict.get row "domain" = Dict.get skill "domain" := h.get (by simp [draftPayload])
  rw [hdomain, nonEmptyText_of_canonical hcanonical.domain]

theorem skillType (hcanonical : Canonical skill) :
    Dict.getD row "skill_type" (.str "guidance") = Dict.get skill "skill_type" := by
  obtain ⟨v, hv⟩ := hcanonical.skillType
  have htype : Dict.get? row "skill_type" = some (Dict.getD skill "skill_type" (.str "guidance")) :=
    h.stored (by simp [draftPayload])
  rw [Dict.getD, htype, Dict.getD, hv, Dict.get, hv]
  rfl

theorem source : Dict.getD row "source" (.str "manual") = .str "agent" := by
  have hsource : Dict.get? row "source" = some (.str "agent") := h.stored (by simp [draftPayload])
  rw [Dict.getD, hsource]
  rfl

theorem priority_eq (hcanonical : Canonical skill) {n : Int}
    (hpriority : (Dict.getD skill "priority" (.int 0)).pyInt = .ok priority)
    (hn : (Dict.getD row "priority" (.int 0)).pyInt = .ok n) :
    .int n = Dict.get skill "priority" := by
  obtain ⟨m, hm⟩ := hcanonical.priority
  have hstored : Dict.get? row "priority" = some (.int priority) :=
    h.stored (by simp [draftPayload])
  rw [Dict.getD, hm] at hpriority
  rw [Dict.getD, hstored] at hn
  have hsame : m = priority := Except.ok.inj hpriority
  have hread : priority = n := Except.ok.inj hn
  rw [← hread, ← hsame, Dict.get, hm]
  rfl

theorem triggerRules (hcanonical : Canonical skill) :
    (Dict.get row "trigger_rules").orElse (.obj []) = Dict.get skill "trigger_rules" := by
  obtain ⟨rules, hrules⟩ := hcanonical.triggerRules
  have hstored : Dict.get row "trigger_rules"
      = (Dict.get skill "trigger_rules").orElse (.obj []) := h.get (by simp [draftPayload])
  rw [hstored, hrules, orElse_obj, orElse_obj]

end ListsDraft

/-- The draft as it is hashed differs from the Skill in its source and its status. -/
theorem get_hashed {key : String} (hsource : key ≠ "source") (hstatus : key ≠ "status") :
    Dict.get (Dict.merge skill [("source", .str "agent"), ("status", .str "draft")]) key
      = Dict.get skill key :=
  Dict.get_merge_of_not_mem skill (by simp [hsource, hstatus])

/-- What is hashed of a canonical draft is what its sync hashes. -/
theorem hashed_eq_synced {row : Dict} {priority : Int} (h : ListsDraft env skill priority row)
    (hcanonical : Canonical skill)
    (hpriority : (Dict.getD skill "priority" (.int 0)).pyInt = .ok priority)
    {synced : SkillFields} (hfrom : NormalizedFrom row synced) :
    ∀ key ∈ skillHashKeys,
      Dict.get (Dict.merge skill [("source", .str "agent"), ("status", .str "draft")]) key
        = Dict.get synced.toDict key := by
  intro key hkey
  simp only [skillHashKeys, List.mem_cons, List.not_mem_nil, or_false] at hkey
  rcases hkey with rfl | rfl | rfl | rfl | rfl | rfl | rfl | rfl | rfl | rfl
  · exact (get_hashed (by decide) (by decide)).trans (h.text hcanonical (by simp) hfrom.name).symm
  · exact (get_hashed (by decide) (by decide)).trans (h.text hcanonical (by simp) hfrom.title).symm
  · exact (get_hashed (by decide) (by decide)).trans
      (h.text hcanonical (by simp) hfrom.description).symm
  · exact (get_hashed (by decide) (by decide)).trans
      (h.text hcanonical (by simp) hfrom.content).symm
  · have hproduct : Dict.get synced.toDict "product_id" = orNull synced.productId := rfl
    rw [get_hashed (by decide) (by decide), hproduct, hfrom.productId, h.productId hcanonical]
  · have hdomain : Dict.get synced.toDict "domain" = orNull synced.domain := rfl
    rw [get_hashed (by decide) (by decide), hdomain, hfrom.domain, h.domain hcanonical]
  · have htype : Dict.get synced.toDict "skill_type" = synced.skillType := rfl
    rw [get_hashed (by decide) (by decide), htype, hfrom.skillType, h.skillType hcanonical]
  · have hsource : Dict.get synced.toDict "source" = synced.source := rfl
    rw [hsource, hfrom.source, h.source]
    simp [Dict.get, Dict.get?_merge, Dict.get?_cons]
  · exact (get_hashed (by decide) (by decide)).trans
      (h.priority_eq hcanonical hpriority hfrom.priority).symm
  · have hrules : Dict.get synced.toDict "trigger_rules" = synced.triggerRules := rfl
    rw [get_hashed (by decide) (by decide), hrules, hfrom.triggerRules, h.triggerRules hcanonical]

/-- The hash in the entry of a canonical draft is the one its sync records. -/
theorem draft_and_sync_agree (hcanonical : Canonical skill)
    (hwrite : writeSkillDraft env c skill = .ok (c', reference)) (he : e ∈ c'.entries)
    (hreference : e.reference = reference) {synced : SkillFields}
    (hsynced : normalizeStrapiSkill e.listed = .ok synced) :
    e.attribute "content_hash" = .str (syncHash env.sha256 synced) := by
  obtain ⟨priority, hpriority, hattributes⟩ := attributes_of_written hwrite he hreference
  have hlists : ListsDraft env skill priority e.listed :=
    fun kv hkv => get?_listed (hattributes kv hkv)
  have hstored : Dict.get? e.attributes "content_hash"
      = some (.str (skillContentHash env.sha256
          (Dict.merge skill [("source", .str "agent"), ("status", .str "draft")]))) :=
    hattributes (_, _) (by simp [draftPayload])
  have hsame := skillHashText_congr
    (hashed_eq_synced hlists hcanonical hpriority (normalizeStrapiSkill_eq_ok hsynced))
  unfold StrapiEntry.attribute
  rw [Dict.get, hstored]
  exact congrArg (fun text => Json.str (env.sha256 text)) hsame

end Aegora
