import Aegora.SkillTable

/-!
# The two ways to publish a Skill

A Skill becomes active by a sync from the content service or by
`update_status`. Both check the evidence the Skill carries; only the sync
also looks at the procedural memory it was made from as it is now. The
publication by id is therefore right exactly when that memory would have let
it through (`publication_gated_iff`).
-/

namespace Aegora

open Py

variable {env : SkillEnv} {memories : ProceduralTable} {t t' : SkillTable}

/-! ## The gates -/

/-- The live procedural memory the Skill names stands behind it. -/
def LiveMemoryOk (memories : ProceduralTable) (fields : SkillFields) : Prop :=
  fromProceduralMemory fields.metadata.dictOrEmpty = true →
    ∃ id memory, asInt? (Dict.get fields.metadata.dictOrEmpty "procedural_memory_id") = some id
      ∧ memories.byId id = some memory
      ∧ memory.status = .skillDrafted
      ∧ memory.fingerprint
        = textOrEmpty (Dict.get fields.metadata.dictOrEmpty "procedural_fingerprint")
      ∧ memory.agentId = textOrEmpty (Dict.get fields.metadata.dictOrEmpty "source_agent_id")
      ∧ (strip (memory.promotedSkillName.getD "") = ""
        ∨ strip (memory.promotedSkillName.getD "") = fields.name)

/-- The evidence the Skill carries is complete for its current content. -/
def EvidenceOk (env : SkillEnv) (row : SkillRow) : Prop :=
  agentSkillPromotionErrors env.sha256 row.toDict .null = .ok []

/-- An Agent's Skill that is active. -/
def SkillFields.ActiveAgentSkill (fields : SkillFields) : Prop :=
  fields.source = .str "agent" ∧ fields.status = .str "active"

theorem stateErrors_eq_nil {fields : SkillFields} (h : stateErrors memories fields = []) :
    LiveMemoryOk memories fields := by
  intro _
  unfold stateErrors at h
  dsimp only at h
  cases hid : asInt? (Dict.get fields.metadata.dictOrEmpty "procedural_memory_id") with
  | none =>
      rw [hid] at h
      cases h
  | some id =>
      rw [hid] at h
      cases hmemory : memories.byId id with
      | none =>
          simp only [hmemory] at h
          cases h
      | some memory =>
          simp only [hmemory, List.append_eq_nil_iff, expect_eq_nil, decide_eq_true_eq,
            Bool.or_eq_true] at h
          obtain ⟨⟨⟨hstatus, hfingerprint⟩, hagent⟩, hbound⟩ := h
          exact ⟨id, memory, rfl, hmemory, hstatus, hfingerprint, hagent, hbound⟩

/-- The sync's second gate lets a batch through only with live memories behind it. -/
theorem liveMemoryOk_of_stateErrors {rows : List SkillFields}
    (h : proceduralSkillStateErrors memories rows = []) {fields : SkillFields}
    (hmem : fields ∈ rows) (hactive : fields.ActiveAgentSkill) : LiveMemoryOk memories fields := by
  by_cases hprocedural : fromProceduralMemory fields.metadata.dictOrEmpty = true
  · have hcandidate : fields ∈ rows.filter SkillFields.needsLiveMemory := by
      refine List.mem_filter.mpr ⟨hmem, ?_⟩
      unfold SkillFields.needsLiveMemory
      rw [hactive.1, hactive.2, hprocedural]
      rfl
    unfold proceduralSkillStateErrors at h
    dsimp only at h
    split at h
    · rename_i hempty
      rw [List.isEmpty_iff.mp hempty] at hcandidate
      cases hcandidate
    · split at h
      · cases h
      · exact stateErrors_eq_nil (List.flatMap_eq_nil_iff.mp h fields hcandidate)
  · exact fun hmade => absurd hmade hprocedural

/-! ## What the evidence check reads -/

/-- The check depends on the source, the metadata, the expected hash and the reviewer. -/
theorem promotionErrors_congr {sha256 : String → String} {a b : Dict} {reviewer reviewer' : Json}
    (hsource : Dict.get? a "source" = Dict.get? b "source")
    (hmetadata : Dict.get a "metadata" = Dict.get b "metadata")
    (hhash : expectedHash sha256 a = expectedHash sha256 b)
    (hreviewer : (if reviewer = .null then Dict.get a "reviewed_by" else reviewer)
      = if reviewer' = .null then Dict.get b "reviewed_by" else reviewer') :
    agentSkillPromotionErrors sha256 a reviewer = agentSkillPromotionErrors sha256 b reviewer' := by
  have hevaluation : ∀ metadata evaluation,
      evaluationErrors sha256 a metadata evaluation reviewer
        = evaluationErrors sha256 b metadata evaluation reviewer' := by
    intro metadata evaluation
    unfold evaluationErrors boundHashErrors
    rw [hhash, hreviewer]
  unfold agentSkillPromotionErrors Dict.getD
  simp only [hsource, hmetadata, hevaluation]

/-- What a row carries apart from its fields is not hashed. -/
theorem skillHashText_row (row : SkillRow) :
    skillHashText row.toDict = skillHashText row.fields.toDict := by
  unfold skillHashText skillHashKeys SkillRow.toDict SkillFields.toDict
  simp [Dict.get, Dict.get?_cons]

theorem expectedHash_row (sha256 : String → String) (row : SkillRow)
    (h : row.contentHash = syncHash sha256 row.fields) :
    expectedHash sha256 row.toDict = expectedHash sha256 row.fields.toDict := by
  have hrow : Dict.get row.toDict "content_hash" = .str row.contentHash := by
    simp [SkillRow.toDict, SkillFields.toDict, Dict.get, Dict.get?_cons]
  have hfields : Dict.get row.fields.toDict "content_hash" = .null := by
    simp [SkillFields.toDict, Dict.get, Dict.get?_cons]
  have hown : skillContentHash sha256 row.toDict = syncHash sha256 row.fields := by
    unfold syncHash skillContentHash
    rw [skillHashText_row]
  unfold expectedHash
  rw [hrow, hfields, hown, h]
  unfold syncHash Json.orElse
  split <;> rfl

/-- A synced row carries the evidence its normalised form was checked for. -/
theorem evidenceOk_synced {row : SkillRow} (h : row.contentHash = syncHash env.sha256 row.fields)
    (hchecked : agentSkillPromotionErrors env.sha256 row.fields.toDict
      (orNull row.fields.reviewedBy) = .ok []) : EvidenceOk env row := by
  unfold EvidenceOk
  rw [← hchecked]
  refine promotionErrors_congr ?_ ?_ (expectedHash_row env.sha256 row h) ?_
  · simp [SkillRow.toDict, SkillFields.toDict, Dict.get?_cons]
  · simp [SkillRow.toDict, SkillFields.toDict, Dict.get, Dict.get?_cons]
  · cases hreviewer : row.fields.reviewedBy <;>
      simp [SkillRow.toDict, SkillFields.toDict, Dict.get, Dict.get?_cons, hreviewer, orNull]

/-- A published row carries the evidence it was checked for, with the reviewer that was
named. -/
theorem evidenceOk_published (env : SkillEnv) (row : SkillRow) (reviewer : String) (now : Json) :
    EvidenceOk env (statusRow row.id .publish (some reviewer) now row)
      ↔ agentSkillPromotionErrors env.sha256 row.toDict (orNull (some reviewer)) = .ok [] := by
  have hpublished : statusRow row.id .publish (some reviewer) now row
      = { row with fields := { row.fields with
          status := .str "active", reviewedBy := some reviewer, reviewedAt := now } } := by
    unfold statusRow
    rw [if_pos rfl]
    rfl
  have hsame : agentSkillPromotionErrors env.sha256
        (statusRow row.id .publish (some reviewer) now row).toDict .null
      = agentSkillPromotionErrors env.sha256 row.toDict (orNull (some reviewer)) := by
    rw [hpublished]
    refine promotionErrors_congr ?_ ?_ ?_ ?_
    · simp [SkillRow.toDict, SkillFields.toDict, Dict.get?_cons]
    · simp [SkillRow.toDict, SkillFields.toDict, Dict.get, Dict.get?_cons]
    · unfold expectedHash skillContentHash
      rw [skillHashText_row, skillHashText_row]
      simp [SkillRow.toDict, SkillFields.toDict, Dict.get, Dict.get?_cons, skillHashText,
        skillHashKeys]
    · simp [SkillRow.toDict, SkillFields.toDict, Dict.get, Dict.get?_cons, orNull]
  unfold EvidenceOk
  rw [hsame]

/-- An Agent's Skill that names no reviewer is never accepted. -/
theorem not_evidenceOk_of_unreviewed {row : SkillRow} (hagent : row.fields.source = .str "agent")
    (hreviewer : row.fields.reviewedBy = none) : ¬ EvidenceOk env row := by
  have hsource : Dict.getD row.toDict "source" (.str "manual") = .str "agent" := by
    simp [SkillRow.toDict, SkillFields.toDict, Dict.getD, Dict.get?_cons, hagent]
  have hname : Dict.get row.toDict "reviewed_by" = .null := by
    simp [SkillRow.toDict, SkillFields.toDict, Dict.get, Dict.get?_cons, hreviewer, orNull]
  intro h
  unfold EvidenceOk agentSkillPromotionErrors at h
  rw [hsource, if_neg (by simp)] at h
  split at h
  · split at h
    · unfold evaluationErrors at h
      obtain ⟨lineage, -, h⟩ := bind_eq_ok.mp h
      obtain ⟨canary, -, h⟩ := bind_eq_ok.mp h
      rw [hname] at h
      have herrors := Except.ok.inj h
      rw [List.append_eq_nil_iff] at herrors
      exact absurd herrors.2 (by decide)
    · cases h
  · cases h

/-! ## What a sync leaves -/

namespace SkillTable

theorem mem_upsert {fields : SkillFields} {hash : String} {row : SkillRow}
    (h : row ∈ (t.upsert fields hash).rows) :
    (row.fields = fields ∧ row.contentHash = hash)
      ∨ (row ∈ t.rows ∧ row.fields.name ≠ fields.name) := by
  unfold upsert at h
  split at h
  · obtain ⟨old, hold, rfl⟩ := List.mem_map.mp h
    unfold updated
    split
    · exact Or.inl ⟨rfl, rfl⟩
    · rename_i hname
      exact Or.inr ⟨hold, hname⟩
  · rename_i hnone
    rcases List.mem_append.mp h with hrow | hrow
    · refine Or.inr ⟨hrow, fun hname => ?_⟩
      have hmiss := List.find?_eq_none.mp hnone row hrow
      exact hmiss (decide_eq_true hname)
    · rw [List.mem_singleton.mp hrow]
      exact Or.inl ⟨rfl, rfl⟩

/-- After a batch, a row is one of the batch's or has none of its names. -/
theorem mem_foldl_upsert {hashOf : SkillFields → String} {batch : List SkillFields}
    {row : SkillRow} (h : row ∈ (batch.foldl (fun t f => t.upsert f (hashOf f)) t).rows) :
    (row.fields ∈ batch ∧ row.contentHash = hashOf row.fields)
      ∨ (row ∈ t.rows ∧ ∀ f ∈ batch, f.name ≠ row.fields.name) := by
  induction batch generalizing t with
  | nil => exact Or.inr ⟨h, fun f hf => absurd hf List.not_mem_nil⟩
  | cons first rest ih =>
      rcases ih h with ⟨hmem, hhash⟩ | ⟨hrow, hother⟩
      · exact Or.inl ⟨List.mem_cons_of_mem _ hmem, hhash⟩
      · rcases mem_upsert hrow with ⟨hfields, hhash⟩ | ⟨hrow, hname⟩
        · refine Or.inl ⟨?_, ?_⟩
          · rw [hfields]
            exact List.mem_cons_self
          · rw [hhash, hfields]
        · refine Or.inr ⟨hrow, fun f hf => ?_⟩
          rcases List.mem_cons.mp hf with rfl | hf
          · exact fun hname' => hname hname'.symm
          · exact hother f hf

end SkillTable

theorem syncSkillRows_eq_ok {rows : List Dict} (h : syncSkillRows env memories t rows = .ok t') :
    ∃ normalized, rows.mapM normalizeStrapiSkill = .ok normalized
      ∧ (∀ fields ∈ normalized, fields.ActiveAgentSkill →
          agentSkillPromotionErrors env.sha256 fields.toDict (orNull fields.reviewedBy) = .ok []
            ∧ LiveMemoryOk memories fields)
      ∧ t' = normalized.foldl (fun t f => t.upsert f (syncHash env.sha256 f)) t := by
  unfold syncSkillRows at h
  obtain ⟨normalized, hnormalized, h⟩ := bind_eq_ok.mp h
  obtain ⟨errors, herrors, h⟩ := bind_eq_ok.mp h
  obtain ⟨hnone, h⟩ := ite_error_eq_ok.mp h
  obtain ⟨hlive, h⟩ := ite_error_eq_ok.mp h
  rw [not_not] at hnone hlive
  refine ⟨normalized, hnormalized, fun fields hmem hactive => ⟨?_, ?_⟩, (Except.ok.inj h).symm⟩
  · obtain ⟨own, hown, hrow⟩ := mapM_eq_ok_mem herrors hmem
    rw [List.flatten_eq_nil_iff] at hnone
    unfold syncRowErrors at hrow
    obtain ⟨invalid, -, hrow⟩ := bind_eq_ok.mp hrow
    obtain ⟨promotion, hpromotion, hrow⟩ := bind_eq_ok.mp hrow
    unfold activeErrors at hpromotion
    rw [if_pos hactive.2] at hpromotion
    have hempty : (invalid ++ promotion).map (fun error => fields.name ++ ": " ++ error) = [] :=
      (Except.ok.inj hrow).trans (hnone own hown)
    rw [List.map_eq_nil_iff, List.append_eq_nil_iff] at hempty
    rw [hpromotion, hempty.2]
  · exact liveMemoryOk_of_stateErrors hlive hmem hactive

/-! ## Publications -/

/-- The paths on which a Skill can become active. -/
inductive Publication where
  | sync (rows : List Dict)
  | updateStatus (id : Nat) (action : StatusAction) (reviewer : Option String)

def publicationStep (env : SkillEnv) (memories : ProceduralTable) (t : SkillTable) (now : Json) :
    Publication → Except String SkillTable
  | .sync rows => syncSkillRows env memories t rows
  | .updateStatus id action reviewer => updateStatus env t id action reviewer now

/-- The publication is about this row. -/
def Publication.Writes (row : SkillRow) : Publication → Prop
  | .sync rows =>
      ∃ raw ∈ rows, ∃ fields, normalizeStrapiSkill raw = .ok fields
        ∧ fields.name = row.fields.name
  | .updateStatus id _ _ => row.id = id

/-- What the publication leaves active has passed both gates, and a batch with a row that
does not pass them is refused as a whole. -/
structure PublishesGated (env : SkillEnv) (memories : ProceduralTable) (t : SkillTable)
    (now : Json) (p : Publication) : Prop where
  rows_gated : ∀ t', publicationStep env memories t now p = .ok t' → ∀ row ∈ t'.rows,
    p.Writes row → row.fields.ActiveAgentSkill →
      EvidenceOk env row ∧ LiveMemoryOk memories row.fields
  batch_gated : ∀ rows, p = .sync rows →
    (∃ raw ∈ rows, ∃ fields, normalizeStrapiSkill raw = .ok fields ∧ fields.ActiveAgentSkill
      ∧ ¬ (agentSkillPromotionErrors env.sha256 fields.toDict (orNull fields.reviewedBy) = .ok []
        ∧ LiveMemoryOk memories fields)) →
    ∃ error, publicationStep env memories t now p = .error error

/-- A publication by id of an Agent's Skill that passes its own checks: the reviewer is
named, and the live memory stands behind the Skill. -/
def PublicationOk (env : SkillEnv) (memories : ProceduralTable) (t : SkillTable) :
    Publication → Prop
  | .sync _ => True
  | .updateStatus id action reviewer =>
      action = .publish → ∀ row, t.byId id = some row → row.fields.source = .str "agent" →
        publishErrors env row reviewer = .ok [] →
        reviewer ≠ none ∧ LiveMemoryOk memories row.fields

theorem sync_gated (env : SkillEnv) (memories : ProceduralTable) (t : SkillTable) (now : Json)
    (rows : List Dict) : PublishesGated env memories t now (.sync rows) where
  rows_gated := by
    rintro t' h row hrow ⟨raw, hraw, fields, hfields, hname⟩ hactive
    obtain ⟨normalized, hnormalized, hgates, rfl⟩ := syncSkillRows_eq_ok h
    rcases SkillTable.mem_foldl_upsert hrow with ⟨hmem, hhash⟩ | ⟨-, hother⟩
    · obtain ⟨hevidence, hlive⟩ := hgates _ hmem hactive
      exact ⟨evidenceOk_synced hhash hevidence, hlive⟩
    · obtain ⟨own, hown, hsame⟩ := mapM_eq_ok_mem hnormalized hraw
      rw [hfields] at hsame
      cases hsame
      exact absurd hname (hother fields hown)
  batch_gated := by
    rintro rows' hrows ⟨raw, hraw, fields, hfields, hactive, hfails⟩
    cases hrows
    cases hsync : syncSkillRows env memories t rows with
    | error error => exact ⟨error, hsync⟩
    | ok t' =>
        obtain ⟨normalized, hnormalized, hgates, -⟩ := syncSkillRows_eq_ok hsync
        obtain ⟨own, hown, hsame⟩ := mapM_eq_ok_mem hnormalized hraw
        rw [hfields] at hsame
        cases hsame
        exact absurd (hgates fields hown hactive) hfails

theorem updateStatus_eq_ok {id : Nat} {action : StatusAction} {reviewer : Option String}
    {now : Json} :
    updateStatus env t id action reviewer now = .ok t'
      ↔ ∃ row, t.byId id = some row
        ∧ (action = .publish → publishErrors env row reviewer = .ok [])
        ∧ t' = t.setStatus id action reviewer now := by
  unfold updateStatus
  cases hrow : t.byId id with
  | none => simp
  | some row =>
      dsimp only
      rw [bind_eq_ok]
      constructor
      · rintro ⟨errors, herrors, h⟩
        obtain ⟨hnone, h⟩ := ite_error_eq_ok.mp h
        rw [not_not] at hnone
        subst hnone
        refine ⟨row, rfl, fun haction => ?_, (Except.ok.inj h).symm⟩
        unfold statusErrors at herrors
        rwa [if_pos haction] at herrors
      · rintro ⟨row', hrow', hchecked, rfl⟩
        cases hrow'
        refine ⟨[], ?_, ite_error_eq_ok.mpr ⟨by simp, rfl⟩⟩
        unfold statusErrors
        split
        · rename_i haction
          exact hchecked haction
        · rfl

theorem publishErrors_eq_nil {row : SkillRow} {reviewer : Option String}
    (h : publishErrors env row reviewer = .ok []) :
    agentSkillPromotionErrors env.sha256 row.toDict (orNull reviewer) = .ok [] := by
  unfold publishErrors at h
  obtain ⟨invalid, -, h⟩ := bind_eq_ok.mp h
  obtain ⟨promotion, hpromotion, h⟩ := bind_eq_ok.mp h
  have hempty := List.append_eq_nil_iff.mp (Except.ok.inj h)
  rw [hpromotion, hempty.2]

/-- For every row, memory and publication path: what becomes active has passed both gates
exactly when a publication by id is one that the live memory and a reviewer allow. The sync
asks both gates itself, so the condition is about the other path only. -/
theorem publication_gated_iff (env : SkillEnv) (memories : ProceduralTable) (t : SkillTable)
    (now : Json) (p : Publication) :
    PublishesGated env memories t now p ↔ PublicationOk env memories t p := by
  cases p with
  | sync rows => exact ⟨fun _ => trivial, fun _ => sync_gated env memories t now rows⟩
  | updateStatus id action reviewer =>
      constructor
      · rintro hgated rfl row hrow hagent hchecked
        have hok : updateStatus env t id .publish reviewer now
            = .ok (t.setStatus id .publish reviewer now) :=
          updateStatus_eq_ok.mpr ⟨row, hrow, fun _ => hchecked, rfl⟩
        have hid : row.id = id := by simpa using List.find?_some hrow
        have hmem : statusRow id .publish reviewer now row
            ∈ (t.setStatus id .publish reviewer now).rows :=
          List.mem_map.mpr ⟨row, List.mem_of_find?_eq_some hrow, rfl⟩
        have hpublished : statusRow id .publish reviewer now row
            = { row with fields := { row.fields with
                status := .str "active", reviewedBy := reviewer
                reviewedAt := if reviewer = none then row.fields.reviewedAt else now } } := by
          unfold statusRow
          rw [if_pos hid]
          rfl
        rw [hpublished] at hmem
        have hwrites : (Publication.updateStatus id .publish reviewer).Writes
            { row with fields := { row.fields with
                status := .str "active", reviewedBy := reviewer
                reviewedAt := if reviewer = none then row.fields.reviewedAt else now } } := hid
        obtain ⟨hevidence, hlive⟩ := hgated.rows_gated _ hok _ hmem hwrites ⟨hagent, rfl⟩
        refine ⟨fun hnone => ?_, hlive⟩
        refine not_evidenceOk_of_unreviewed ?_ ?_ hevidence
        · exact hagent
        · exact hnone
      · intro hcondition
        refine ⟨?_, fun rows h => by cases h⟩
        intro t' h row' hrow' hwrites hactive
        obtain ⟨row, hrow, hchecked, rfl⟩ := updateStatus_eq_ok.mp h
        obtain ⟨old, hold, rfl⟩ := List.mem_map.mp hrow'
        have hid : row.id = id := by simpa using List.find?_some hrow
        have holdId : old.id = id := by
          have hwritten : (statusRow id action reviewer now old).id = id := hwrites
          unfold statusRow at hwritten
          split at hwritten
          · rename_i h
            exact h
          · exact hwritten
        have hsame : old = row :=
          List.inj_on_of_nodup_map t.ids hold (List.mem_of_find?_eq_some hrow)
            (holdId.trans hid.symm)
        subst hsame
        have hfields : (statusRow id action reviewer now old).fields
            = { old.fields with
                status := .str action.status, reviewedBy := reviewer
                reviewedAt := if reviewer = none then old.fields.reviewedAt else now } := by
          unfold statusRow
          rw [if_pos hid]
        rw [hfields] at hactive ⊢
        have haction : action = .publish := by
          have hstatus : Json.str action.status = .str "active" := hactive.2
          cases action with
          | publish => rfl
          | reject => exact absurd hstatus (by decide)
          | archive => exact absurd hstatus (by decide)
        subst haction
        obtain ⟨hnamed, hlive⟩ := hcondition rfl old hrow hactive.1 (hchecked rfl)
        obtain ⟨name, rfl⟩ := Option.ne_none_iff_exists'.mp hnamed
        subst hid
        exact ⟨(evidenceOk_published env old name now).mpr (publishErrors_eq_nil (hchecked rfl)),
          hlive⟩

/-! ## A Skill whose memory was disputed after its evaluation -/

def refundEvaluation : Dict :=
  [("status", .str "passed"), ("dataset", .str "d"), ("metrics", .obj [("m", .int 1)]),
    ("criteria", .obj [("c", .int 1)]), ("regression", .obj [("status", .str "passed")]),
    ("canary", .obj [("status", .str "passed"), ("mode", .str "shadow"), ("sample_size", .int 9),
      ("metrics", .obj [("m", .int 1)]), ("observed_at", .str "d"),
      ("content_hash", .str "digest")]),
    ("evaluated_at", .str "d"), ("content_hash", .str "digest")]

def refundMetadata : Dict :=
  [("source_kind", .str "procedural_memory"), ("procedural_memory_id", .int 1),
    ("procedural_fingerprint", .str "digest"), ("source_agent_id", .str "a"),
    ("source_trace_ids", .arr [.str "t", .str "u"]), ("positive_trace_ids", .arr [.str "t"]),
    ("procedural_evidence", .obj [("evidence_count", .int 2), ("positive_count", .int 1),
      ("negative_count", .int 0), ("negative_ratio", .float "0.0"),
      ("promotion_reason", .str "promotion_gate_passed")]),
    ("evaluation", .obj refundEvaluation)]

def refundRow : SkillRow where
  id := 1
  version := 1
  contentHash := "digest"
  fields :=
    { name := "refund_guide", title := "refund", description := "refund", content := "check"
      productId := some "aicoin", domain := none, skillType := .str "guidance"
      source := .str "agent", status := .str "draft", priority := 0, triggerRules := .obj []
      metadata := .obj refundMetadata }

def refundTable : SkillTable where
  rows := [refundRow]
  nextId := 2
  names := List.nodup_singleton _
  ids := List.nodup_singleton _
  below := fun row h => by rw [List.mem_singleton.mp h]; decide

/-- The memory became conflicted after the Skill was evaluated. -/
def disputedMemories : ProceduralTable where
  rows :=
    [{ id := 1, agentId := "a", fingerprint := "digest", clusterKey := "refund"
       title := "refund", status := .conflicted, promotionReason := "negative_feedback_conflict"
       evidenceCount := 3, positiveCount := 1, negativeCount := 1, negativeRatio := "0.5"
       sourceTraceIds := ["t", "u"], positiveTraceIds := ["t"], sourceMemoryCandidateIds := []
       examples := ["refund"], strategyExamples := ["check"]
       promotedSkillName := some "refund_guide", skillDraftId := some "0" }]
  nextId := 2
  unique := List.nodup_singleton _

/-- `update_status` publishes a Skill whose memory is conflicted. -/
theorem publishes_disputed_skill :
    ¬ ∀ env memories t now p, PublishesGated env memories t now p := by
  intro h
  have hgated := h plainEnv disputedMemories refundTable .null
    (.updateStatus 1 .publish (some "r"))
  have hok : updateStatus plainEnv refundTable 1 .publish (some "r") .null
      = .ok (refundTable.setStatus 1 .publish (some "r") .null) :=
    updateStatus_eq_ok.mpr ⟨refundRow, rfl, fun _ => by decide +kernel, rfl⟩
  obtain ⟨-, hlive⟩ := hgated.rows_gated _ hok (statusRow 1 .publish (some "r") .null refundRow)
    List.mem_cons_self rfl ⟨rfl, rfl⟩
  obtain ⟨id, memory, hid, hmemory, hstatus, -⟩ := hlive (by decide +kernel)
  cases hid
  cases hmemory
  cases hstatus

end Aegora
