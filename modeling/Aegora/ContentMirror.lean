import Aegora.ContentSync

/-!
# The sync mirrors its source

A FAQ of the source is settled when its record, its category and its embedding
row are what an import of it leaves (`FaqSettled`). Importing a row settles it and
leaves the others settled, and importing a settled row changes nothing: so a
sync leaves the live FAQs of its source, and the second sync of the same rows
leaves the tables as they are, at whatever statement it fails
(`content_mirrored`).

The Skill upserts go by the stripped name. Two rows of the source whose names
differ in blanks only end as one Skill, so that names have to be distinct after
normalisation (`blank_name_overwrites`).
-/

namespace Aegora

open Py Transactions

variable {V : Type} {env : FaqSync} {t t' : FaqTables V} {s s' : SourceFaq} {r : FaqRecord}

/-! ## Statements -/

theorem exec_eq_ok {statement : FaqStatement} (h : env.exec statement t = .ok t') : t' = t := by
  unfold FaqSync.exec at h
  split at h
  · cases h
  · exact (Except.ok.inj h).symm

/-- The tables after the import of one FAQ. -/
def FaqSync.imported (env : FaqSync) (t : FaqTables V) (s : SourceFaq) : FaqTables V where
  faqs := (t.upsert env.sha256 s).faqs
  nextId := (t.upsert env.sha256 s).nextId
  categories :=
    put Prod.fst t.categories (s.columns.categoryName, env.project s.columns.categoryName)
  embeddings :=
    ensureEmbeddingRow env.embeddingModel t.embeddings (t.record env.sha256 s).ensured

theorem importRow_eq_ok {row : Dict} (h : env.importRow t row = .ok t') :
    ∃ s, readSourceFaq row = .ok s ∧ t' = env.imported t s := by
  unfold FaqSync.importRow at h
  obtain ⟨s, hs, h⟩ := bind_eq_ok.mp h
  obtain ⟨t₁, h₁, h⟩ := bind_eq_ok.mp h
  obtain ⟨t₂, h₂, h₃⟩ := bind_eq_ok.mp h
  rw [exec_eq_ok h₃, exec_eq_ok h₂, exec_eq_ok h₁]
  exact ⟨s, hs, rfl⟩

theorem importRows_eq_ok {rows : List Dict} (h : rows.foldlM env.importRow t = .ok t') :
    ∃ ss, rows.mapM readSourceFaq = .ok ss ∧ t' = ss.foldl env.imported t := by
  induction rows generalizing t with
  | nil => exact ⟨[], rfl, (Except.ok.inj h).symm⟩
  | cons row rest ih =>
      rw [List.foldlM_cons] at h
      obtain ⟨t₁, h₁, h⟩ := bind_eq_ok.mp h
      obtain ⟨s, hs, rfl⟩ := importRow_eq_ok h₁
      obtain ⟨ss, hss, rfl⟩ := ih h
      refine ⟨s :: ss, ?_, rfl⟩
      rw [List.mapM_cons, hs, hss]
      rfl

/-! ## One import -/

@[simp] theorem record_source : (t.record env.sha256 s).source = s := by
  unfold FaqTables.record
  split <;> rfl

@[simp] theorem record_strapiId : (t.record env.sha256 s).strapiId = s.strapiId := by
  rw [FaqRecord.strapiId, record_source]

@[simp] theorem record_contentHash :
    (t.record env.sha256 s).contentHash = faqHash env.sha256 s.columns.content := by
  unfold FaqTables.record
  split <;> rfl

@[simp] theorem record_deleted : (t.record env.sha256 s).deleted = false := by
  unfold FaqTables.record
  split <;> rfl

/-- The record keeps the id of the one it replaces, or takes the next. -/
theorem record_id : (t.record env.sha256 s).id
    = ((find FaqRecord.strapiId t.faqs s.strapiId).map FaqRecord.id).getD t.nextId := by
  unfold FaqTables.record
  split <;> simp_all

theorem FaqTables.Sound.imported (h : t.Sound) : (env.imported t s).Sound := by
  have hfaqs : (env.imported t s).faqs
      = put FaqRecord.strapiId t.faqs (t.record env.sha256 s) := rfl
  refine ⟨?_, ?_, ?_, nodup_put h.names⟩
  · rw [hfaqs]
    exact nodup_put h.strapiIds
  · rw [hfaqs]
    cases hfind : find FaqRecord.strapiId t.faqs s.strapiId with
    | some old =>
        rw [map_put_of_find h.strapiIds (by rw [record_strapiId]; exact hfind)
          (by rw [record_id, hfind]; rfl)]
        exact h.ids
    | none =>
        rw [put_of_find_none (by rw [record_strapiId]; exact hfind), List.map_append,
          List.nodup_append]
        refine ⟨h.ids, by simp, fun a ha b hb => ?_⟩
        obtain ⟨old, hold, rfl⟩ := List.mem_map.mp ha
        have hb : b = t.nextId := by simpa [record_id, hfind] using hb
        have hlt := h.below old hold
        omega
  · intro r hr
    have hnext : t.nextId ≤ (env.imported t s).nextId := by
      change t.nextId ≤ (t.upsert env.sha256 s).nextId
      unfold FaqTables.upsert
      split <;> simp
    rw [hfaqs, mem_put] at hr
    rcases hr with rfl | ⟨hr, -⟩
    · cases hfind : find FaqRecord.strapiId t.faqs s.strapiId with
      | some old =>
          have hlt := h.below old (find_spec hfind).1
          rw [record_id, hfind]
          exact Nat.lt_of_lt_of_le hlt hnext
      | none =>
          have hnew : (env.imported t s).nextId = t.nextId + 1 := by
            change (t.upsert env.sha256 s).nextId = _
            unfold FaqTables.upsert
            rw [hfind]
          rw [record_id, hfind, hnew]
          exact Nat.lt_succ_self _
    · exact Nat.lt_of_lt_of_le (h.below r hr) hnext

/-! ## FaqSettled FAQs -/

/-- The embedding rows of the record carry its hash and version, and the sync's model. -/
structure EmbeddingSettled (env : FaqSync) (rows : List (EmbeddingRow V)) (r : FaqRecord) :
    Prop where
  exists_row : ∃ e ∈ rows, e.ownerId = r.id
  labelled : ∀ e ∈ rows, e.ownerId = r.id →
    e.embeddingModel = env.embeddingModel ∧ e.contentHash = r.contentHash ∧ e.version = r.version

/-- The FAQ is as an import leaves it. -/
structure FaqSettled (env : FaqSync) (t : FaqTables V) (s : SourceFaq) (r : FaqRecord) : Prop where
  found : find FaqRecord.strapiId t.faqs s.strapiId = some r
  source : r.source = s
  hash : r.contentHash = faqHash env.sha256 s.columns.content
  live : r.deleted = false
  category : find Prod.fst t.categories s.columns.categoryName
    = some (s.columns.categoryName, env.project s.columns.categoryName)
  embedding : EmbeddingSettled env t.embeddings r

theorem embeddingSettled_ensure {rows : List (EmbeddingRow V)} :
    EmbeddingSettled env (ensureEmbeddingRow env.embeddingModel rows r.ensured) r := by
  unfold ensureEmbeddingRow
  split
  · rename_i hany
    obtain ⟨e, he, howner⟩ := List.any_eq_true.mp hany
    have howner : e.ownerId = r.id := of_decide_eq_true howner
    refine ⟨⟨_, List.mem_map_of_mem he, ?_⟩, fun e' he' howner' => ?_⟩
    · rw [if_pos (by exact howner)]
      unfold EmbeddingRow.ensured
      split <;> exact howner
    · obtain ⟨old, -, rfl⟩ := List.mem_map.mp he'
      split at howner' <;> rename_i hold
      · rw [if_pos hold]
        unfold EmbeddingRow.ensured
        split <;> exact ⟨rfl, rfl, rfl⟩
      · exact absurd howner' hold
  · rename_i hany
    refine ⟨⟨_, List.mem_append_right _ (List.mem_singleton_self _), rfl⟩, fun e he howner => ?_⟩
    rcases List.mem_append.mp he with he | he
    · refine absurd ?_ hany
      exact List.any_eq_true.mpr ⟨e, he, decide_eq_true howner⟩
    · rw [List.mem_singleton.mp he]
      exact ⟨rfl, rfl, rfl⟩

theorem EmbeddingSettled.ensure_other {rows : List (EmbeddingRow V)} {e : Ensured}
    (h : EmbeddingSettled env rows r) (hne : e.id ≠ r.id) :
    EmbeddingSettled env (ensureEmbeddingRow env.embeddingModel rows e) r := by
  obtain ⟨⟨own, hown, howner⟩, hlabelled⟩ := h
  unfold ensureEmbeddingRow
  split
  · refine ⟨⟨own, List.mem_map.mpr ⟨own, hown, ?_⟩, howner⟩, fun e' he' howner' => ?_⟩
    · rw [if_neg]
      rw [howner]
      exact Ne.symm hne
    · obtain ⟨old, hold, rfl⟩ := List.mem_map.mp he'
      split at howner' <;> rename_i hid
      · have hsame : (old.ensured env.embeddingModel e).ownerId = old.ownerId := by
          unfold EmbeddingRow.ensured
          split <;> rfl
        exact absurd (hid.symm.trans (hsame.symm.trans howner')) hne
      · rw [if_neg hid]
        exact hlabelled old hold howner'
  · refine ⟨⟨own, List.mem_append_left _ hown, howner⟩, fun e' he' howner' => ?_⟩
    rcases List.mem_append.mp he' with he' | he'
    · exact hlabelled e' he' howner'
    · rw [List.mem_singleton.mp he'] at howner'
      exact absurd howner' hne

/-- An embedding row that is settled stays, vector and status with it. -/
theorem EmbeddingSettled.ensure_self {rows : List (EmbeddingRow V)}
    (h : EmbeddingSettled env rows r) :
    ensureEmbeddingRow env.embeddingModel rows r.ensured = rows := by
  obtain ⟨⟨own, hown, howner⟩, hlabelled⟩ := h
  unfold ensureEmbeddingRow
  rw [if_pos (List.any_eq_true.mpr ⟨own, hown, decide_eq_true howner⟩)]
  refine map_eq_self.mpr fun e he => ?_
  split
  · rename_i hid
    obtain ⟨hmodel, hhash, hversion⟩ := hlabelled e he hid
    unfold EmbeddingRow.ensured
    rw [if_neg (by rw [not_not]; exact hhash)]
    cases e
    simp_all [FaqRecord.ensured]
  · rfl

/-- An import settles its FAQ. -/
theorem settled_imported :
    FaqSettled env (env.imported t s) s (t.record env.sha256 s) where
  found := by
    change find _ (put _ t.faqs _) _ = _
    rw [find_put, if_pos record_strapiId.symm]
  source := record_source
  hash := record_contentHash
  live := record_deleted
  category := by
    change find _ (put _ t.categories _) _ = _
    rw [find_put, if_pos rfl]
  embedding := embeddingSettled_ensure

/-- It leaves the others settled. -/
theorem FaqSettled.imported_other (h : FaqSettled env t s' r) (hsound : t.Sound)
    (hne : s'.strapiId ≠ s.strapiId) : FaqSettled env (env.imported t s) s' r where
  found := by
    change find _ (put _ t.faqs _) _ = _
    rw [find_put, record_strapiId, if_neg hne]
    exact h.found
  source := h.source
  hash := h.hash
  live := h.live
  category := by
    change find _ (put _ t.categories _) _ = _
    rw [find_put]
    split
    · rename_i hname
      have hname : s'.columns.categoryName = s.columns.categoryName := hname
      rw [hname]
    · exact h.category
  embedding := by
    refine h.embedding.ensure_other ?_
    obtain ⟨hr, hkey⟩ := find_spec h.found
    change (t.record env.sha256 s).id ≠ r.id
    rw [record_id]
    cases hfind : find FaqRecord.strapiId t.faqs s.strapiId with
    | none => exact Nat.ne_of_gt (hsound.below r hr)
    | some old =>
        obtain ⟨hold, hkey'⟩ := find_spec hfind
        intro hid
        have hsame := List.inj_on_of_nodup_map hsound.ids hold hr hid
        rw [hsame] at hkey'
        exact hne (hkey.symm.trans hkey')

/-- The import of a settled FAQ changes nothing. -/
theorem FaqSettled.imported_self (h : FaqSettled env t s r) (hsound : t.Sound) :
    env.imported t s = t := by
  obtain ⟨hr, -⟩ := find_spec h.found
  have hrecord : t.record env.sha256 s = r := by
    unfold FaqTables.record
    rw [h.found]
    obtain ⟨-, hsource, hhash, hlive, -, -⟩ := h
    cases r
    simp_all
  have hfaqs : (t.upsert env.sha256 s).faqs = t.faqs := by
    change put _ t.faqs _ = _
    rw [hrecord]
    exact put_self hsound.strapiIds hr
  have hnext : (t.upsert env.sha256 s).nextId = t.nextId := by
    unfold FaqTables.upsert
    rw [h.found]
  unfold FaqSync.imported
  rw [hfaqs, hnext, put_self hsound.names (find_spec h.category).1, hrecord,
    h.embedding.ensure_self]

/-! ## A sync -/

theorem FaqTables.Sound.foldl_imported {ss : List SourceFaq} (h : t.Sound) :
    (ss.foldl env.imported t).Sound := by
  induction ss generalizing t with
  | nil => exact h
  | cons s rest ih => exact ih h.imported

/-- The imports of FAQs with distinct Strapi ids settle them all. -/
theorem settled_foldl (env : FaqSync) {ss : List SourceFaq} (hsound : t.Sound)
    (hids : (ss.map SourceFaq.strapiId).Nodup) :
    ∀ s ∈ ss, ∃ r, FaqSettled env (ss.foldl env.imported t) s r := by
  have hothers : ∀ (rest : List SourceFaq) (t : FaqTables V), t.Sound →
      ∀ s r, FaqSettled env t s r → s.strapiId ∉ rest.map SourceFaq.strapiId →
        FaqSettled env (rest.foldl env.imported t) s r := by
    intro rest
    induction rest with
    | nil => exact fun _ _ _ _ h _ => h
    | cons first rest ih =>
        intro t hsound s r h hmiss
        obtain ⟨hne, hmiss⟩ := not_or.mp (mt List.mem_cons.mpr hmiss)
        exact ih _ hsound.imported s r (h.imported_other hsound hne) hmiss
  induction ss generalizing t with
  | nil => exact fun s hs => nomatch hs
  | cons first rest ih =>
      obtain ⟨hfirst, hrest⟩ := List.nodup_cons.mp hids
      intro s hs
      rcases List.mem_cons.mp hs with rfl | hs
      · exact ⟨_, hothers rest _ hsound.imported s _ settled_imported hfirst⟩
      · exact ih hsound.imported hrest s hs

/-- The second import of settled FAQs changes nothing. -/
theorem foldl_settled {ss : List SourceFaq} (hsound : t.Sound)
    (h : ∀ s ∈ ss, ∃ r, FaqSettled env t s r) : ss.foldl env.imported t = t := by
  induction ss with
  | nil => rfl
  | cons first rest ih =>
      obtain ⟨r, hr⟩ := h first List.mem_cons_self
      rw [List.foldl_cons, hr.imported_self hsound]
      exact ih fun s hs => h s (List.mem_cons_of_mem _ hs)

section Missing

variable {sourceIds : List Int}

theorem missingMark_strapiId (r : FaqRecord) :
    (missingMark sourceIds r).strapiId = r.strapiId := by
  unfold missingMark
  split <;> rfl

theorem missingMark_of_mem (h : r.strapiId ∈ sourceIds) : missingMark sourceIds r = r :=
  if_pos h

theorem markMissing_faqs : (t.markMissing sourceIds).faqs = t.faqs.map (missingMark sourceIds) :=
  rfl

theorem FaqTables.Sound.markMissing (h : t.Sound) : (t.markMissing sourceIds).Sound := by
  have hid : ∀ r, (missingMark sourceIds r).id = r.id := by
    intro r
    unfold missingMark
    split <;> rfl
  refine ⟨?_, ?_, ?_, h.names⟩
  · rw [markMissing_faqs, List.map_map]
    exact (List.map_congr_left fun r _ => missingMark_strapiId r) ▸ h.strapiIds
  · rw [markMissing_faqs, List.map_map]
    exact (List.map_congr_left fun r _ => hid r) ▸ h.ids
  · intro r hr
    obtain ⟨old, hold, rfl⟩ := List.mem_map.mp hr
    rw [hid]
    exact h.below old hold

theorem FaqSettled.markMissing (h : FaqSettled env t s r) (hsound : t.Sound)
    (hmem : s.strapiId ∈ sourceIds) : FaqSettled env (t.markMissing sourceIds) s r where
  found := by
    obtain ⟨hr, hkey⟩ := find_spec h.found
    rw [find_eq_some hsound.markMissing.strapiIds, markMissing_faqs]
    refine ⟨List.mem_map.mpr ⟨r, hr, missingMark_of_mem ?_⟩, hkey⟩
    rw [hkey]
    exact hmem
  source := h.source
  hash := h.hash
  live := h.live
  category := h.category
  embedding := h.embedding

/-- A second mark changes nothing. -/
theorem markMissing_markMissing :
    (t.markMissing sourceIds).markMissing sourceIds = t.markMissing sourceIds := by
  have hmark : ∀ r, missingMark sourceIds (missingMark sourceIds r) = missingMark sourceIds r := by
    intro r
    by_cases h : r.strapiId ∈ sourceIds
    · rw [missingMark_of_mem h, missingMark_of_mem h]
    · have hmark : missingMark sourceIds r = { r with deleted := true } := if_neg h
      rw [hmark]
      exact if_neg h
  have hfaqs : ((t.markMissing sourceIds).markMissing sourceIds).faqs
      = (t.markMissing sourceIds).faqs := by
    rw [markMissing_faqs, markMissing_faqs, List.map_map]
    exact List.map_congr_left fun r _ => hmark r
  change ({ t with faqs := _ } : FaqTables V) = _
  exact congrArg (fun faqs => ({ t with faqs := faqs } : FaqTables V)) hfaqs

end Missing

/-- The live FAQs, as their source has them. -/
def FaqTables.live (t : FaqTables V) : List SourceFaq :=
  (t.faqs.filter fun r => !r.deleted).map FaqRecord.source

/-- After the marks the live FAQs are the settled ones of the source. -/
theorem live_markMissing {ss : List SourceFaq} (hsound : t.Sound)
    (hids : (ss.map SourceFaq.strapiId).Nodup) (h : ∀ s ∈ ss, ∃ r, FaqSettled env t s r) :
    ((t.markMissing (ss.map SourceFaq.strapiId)).live).Perm ss := by
  have hmarked : (t.markMissing (ss.map SourceFaq.strapiId)).Sound := hsound.markMissing
  have hnodup : ((t.markMissing (ss.map SourceFaq.strapiId)).live).Nodup := by
    have hkeys := hmarked.strapiIds.sublist (List.filter_sublist (p := fun r => !r.deleted).map _)
    refine List.Nodup.of_map SourceFaq.strapiId ?_
    rw [FaqTables.live, List.map_map]
    exact hkeys
  refine (List.perm_ext_iff_of_nodup hnodup (List.Nodup.of_map _ hids)).mpr fun s => ?_
  unfold FaqTables.live
  rw [List.mem_map]
  constructor
  · rintro ⟨r, hr, rfl⟩
    obtain ⟨hr, hlive⟩ := List.mem_filter.mp hr
    rw [markMissing_faqs] at hr
    obtain ⟨old, hold, rfl⟩ := List.mem_map.mp hr
    by_cases hmem : old.strapiId ∈ ss.map SourceFaq.strapiId
    · rw [missingMark_of_mem hmem]
      obtain ⟨s, hs, hkey⟩ := List.mem_map.mp hmem
      obtain ⟨r, hsettled⟩ := h s hs
      obtain ⟨hr, hkey'⟩ := find_spec hsettled.found
      rw [List.inj_on_of_nodup_map hsound.strapiIds hold hr (hkey.symm.trans hkey'.symm),
        hsettled.source]
      exact hs
    · unfold missingMark at hlive
      rw [if_neg hmem] at hlive
      cases hlive
  · intro hs
    obtain ⟨r, hsettled⟩ := h s hs
    have hmem : s.strapiId ∈ ss.map SourceFaq.strapiId := List.mem_map_of_mem hs
    obtain ⟨hr, -⟩ := find_spec (hsettled.markMissing hsound hmem).found
    exact ⟨r, List.mem_filter.mpr ⟨hr, by rw [hsettled.live]; rfl⟩, hsettled.source⟩

/-! ## The hashed columns -/

def FaqRecord.toRow (r : FaqRecord) : FaqRow where
  id := r.id
  strapiId := r.strapiId
  content := r.source.columns.content
  contentHash := r.contentHash
  version := r.version
  deleted := r.deleted

def FaqTables.toTable (t : FaqTables V) : FaqTable := ⟨t.faqs.map FaqRecord.toRow, t.nextId⟩

theorem byStrapiId_toTable (strapiId : Int) :
    t.toTable.byStrapiId strapiId
      = (find FaqRecord.strapiId t.faqs strapiId).map FaqRecord.toRow := by
  unfold FaqTable.byStrapiId FaqTables.toTable find
  rw [List.find?_map]
  rfl

theorem toTable_upsert (hsound : t.Sound) :
    (t.upsert env.sha256 s).toTable
      = t.toTable.upsert s.strapiId s.columns.content (faqHash env.sha256 s.columns.content) := by
  unfold FaqTable.upsert
  rw [byStrapiId_toTable]
  cases hfind : find FaqRecord.strapiId t.faqs s.strapiId with
  | none =>
      have hput : put FaqRecord.strapiId t.faqs (t.record env.sha256 s)
          = t.faqs ++ [t.record env.sha256 s] :=
        put_of_find_none (by rw [record_strapiId]; exact hfind)
      simp only [FaqTables.toTable, FaqTables.upsert, hput, hfind, List.map_append,
        List.map_singleton, Option.map_none]
      simp only [FaqTables.record, hfind]
      rfl
  | some old =>
      obtain ⟨hold, hkey⟩ := find_spec hfind
      have hrow : (t.record env.sha256 s).toRow = FaqTable.updated s.strapiId s.columns.content
          (faqHash env.sha256 s.columns.content) old.toRow := by
        unfold FaqTable.updated
        rw [if_pos (by exact hkey)]
        simp only [FaqTables.record, hfind]
        simp only [FaqRecord.toRow, FaqRecord.strapiId, FaqRow.mk.injEq, and_true, true_and]
        exact ⟨hkey.symm, rfl⟩
      have hmem : (t.record env.sha256 s).strapiId ∈ t.faqs.map FaqRecord.strapiId := by
        rw [record_strapiId, ← hkey]
        exact List.mem_map_of_mem hold
      simp only [FaqTables.toTable, FaqTables.upsert, hfind, Option.map_some]
      refine congrArg (FaqTable.mk · t.nextId) ?_
      unfold put
      rw [if_pos hmem, List.map_map, List.map_map]
      refine List.map_congr_left fun other hother => ?_
      simp only [Function.comp_apply, record_strapiId]
      split
      · rename_i hsame
        rw [hrow, List.inj_on_of_nodup_map hsound.strapiIds hother hold (hsame.trans hkey.symm)]
      · rename_i hsame
        unfold FaqTable.updated
        rw [if_neg (by exact hsame)]

theorem returned_upsert :
    (t.upsert env.sha256 s).toTable.returned s.strapiId
      = some (t.record env.sha256 s).ensured := by
  unfold FaqTable.returned
  rw [byStrapiId_toTable]
  change (Option.map _ (find _ (put _ t.faqs _) _)).map _ = _
  rw [find_put, if_pos record_strapiId.symm]
  rfl

/-- The imports, on the hashed columns and the embedding rows. -/
theorem foldl_imported_refines (env : FaqSync) (ss : List SourceFaq) (hsound : t.Sound) :
    ((ss.foldl env.imported t).toTable,
        (t.toTable.upsertAll env.sha256 (ss.map fun s => (s.strapiId, s.columns.content))).2)
      = t.toTable.upsertAll env.sha256 (ss.map fun s => (s.strapiId, s.columns.content))
    ∧ (ss.foldl env.imported t).embeddings
      = ((t.toTable.upsertAll env.sha256 (ss.map fun s => (s.strapiId, s.columns.content))).2).foldl
          (ensureEmbeddingRow env.embeddingModel) t.embeddings := by
  induction ss generalizing t with
  | nil => exact ⟨rfl, rfl⟩
  | cons s rest ih =>
      have hfirst : (env.imported t s).toTable = t.toTable.upsert s.strapiId s.columns.content
          (faqHash env.sha256 s.columns.content) := toTable_upsert hsound
      have hreturned : (env.imported t s).toTable.returned s.strapiId
          = some (t.record env.sha256 s).ensured := returned_upsert
      obtain ⟨htable, hembeddings⟩ := ih hsound.imported
      simp only [List.map_cons, List.foldl_cons, FaqTable.upsertAll]
      rw [← hfirst, hreturned]
      refine ⟨?_, hembeddings⟩
      rw [← htable]

theorem readFaq_of_source {row : Dict} (h : readSourceFaq row = .ok s) :
    readFaq row = .ok (s.strapiId, s.columns.content) := by
  unfold readSourceFaq at h
  obtain ⟨⟨strapiId, content⟩, hread, h⟩ := bind_eq_ok.mp h
  cases h
  exact hread

theorem mapM_readFaq {rows : List Dict} {ss : List SourceFaq}
    (h : rows.mapM readSourceFaq = .ok ss) :
    rows.mapM readFaq = .ok (ss.map fun s => (s.strapiId, s.columns.content)) := by
  induction rows generalizing ss with
  | nil =>
      cases h
      rfl
  | cons row rest ih =>
      rw [List.mapM_cons] at h ⊢
      obtain ⟨s, hs, h⟩ := bind_eq_ok.mp h
      obtain ⟨ss', hss, h⟩ := bind_eq_ok.mp h
      cases h
      rw [readFaq_of_source hs, ih hss]
      rfl

/-- What a sync that commits has done. -/
theorem statements_eq_ok {rows : List Dict} (h : env.statements t rows = .ok t') :
    ∃ ss sourceIds, rows.mapM readSourceFaq = .ok ss ∧ rows.mapM strapiIdOf = .ok sourceIds
      ∧ t' = (ss.foldl env.imported t).markMissing sourceIds := by
  unfold FaqSync.statements at h
  obtain ⟨t₁, h₁, h⟩ := bind_eq_ok.mp h
  obtain ⟨sourceIds, hids, h⟩ := bind_eq_ok.mp h
  obtain ⟨t₂, h₂, h₃⟩ := bind_eq_ok.mp h
  obtain ⟨ss, hss, rfl⟩ := importRows_eq_ok h₁
  rw [exec_eq_ok h₃, exec_eq_ok h₂]
  exact ⟨ss, sourceIds, hss, hids, rfl⟩

theorem toTable_markMissing (sourceIds : List Int) :
    (t.markMissing sourceIds).toTable = t.toTable.markMissingDeleted sourceIds := by
  simp only [FaqTables.toTable, FaqTables.markMissing, FaqTable.markMissingDeleted, List.map_map]
  refine congrArg (FaqTable.mk · t.nextId) (List.map_congr_left fun r _ => ?_)
  simp only [Function.comp_apply, missingMark]
  split
  · rename_i hmem
    exact (if_pos hmem).symm
  · rename_i hmem
    exact (if_neg hmem).symm

/-- A sync that commits is the write of the hashed columns that the embedding workers see. -/
theorem statements_refines {rows : List Dict} (hsound : t.Sound)
    (h : env.statements t rows = .ok t') :
    ∃ ensured, writeFaqs env.sha256 t.toTable (.syncContent rows) = .ok (t'.toTable, ensured)
      ∧ t'.embeddings = ensured.foldl (ensureEmbeddingRow env.embeddingModel) t.embeddings := by
  obtain ⟨ss, sourceIds, hss, hids, rfl⟩ := statements_eq_ok h
  obtain ⟨htable, hembeddings⟩ := foldl_imported_refines env ss hsound
  refine ⟨_, ?_, hembeddings⟩
  unfold writeFaqs importFaqRows
  simp only [mapM_readFaq hss, hids, bind, Except.bind, pure, Except.pure]
  rw [← htable, toTable_markMissing]

/-! ## The FAQ half -/

/-- The ids of the rows are distinct integers. -/
def DistinctIds (rows : List Dict) : Prop :=
  ∃ ids : List Int,
    rows.map (fun row => Dict.get? row "id") = ids.map (fun id => some (.int id)) ∧ ids.Nodup

/-- A sync that raises leaves the tables as they are. One that does not leaves live exactly the
FAQs of the source, and syncing the rows once more changes nothing, whatever the database
refuses. -/
structure FaqsMirrored (env : FaqSync) (t : FaqTables V) (rows : List Dict) : Prop where
  atomic : ∀ error, (env.syncFaqs t rows).2 = .error error → (env.syncFaqs t rows).1 = t
  converges : (env.syncFaqs t rows).2 = .ok () →
    ∃ ss, rows.mapM readSourceFaq = .ok ss ∧ ((env.syncFaqs t rows).1.live).Perm ss
  idempotent : (env.syncFaqs t rows).2 = .ok () →
    ∀ refuses, (({ env with refuses := refuses } : FaqSync).syncFaqs
      (env.syncFaqs t rows).1 rows).1 = (env.syncFaqs t rows).1

/-- The Strapi ids that are read are the ids of the rows. -/
theorem strapiIds_of_ids {rows : List Dict} {ss : List SourceFaq} {ids : List Int}
    (hrows : rows.map (fun row => Dict.get? row "id") = ids.map fun id => some (.int id))
    (hss : rows.mapM readSourceFaq = .ok ss) :
    ss.map SourceFaq.strapiId = ids ∧ rows.mapM strapiIdOf = .ok ids := by
  induction rows generalizing ss ids with
  | nil =>
      cases hss
      cases ids with
      | nil => exact ⟨rfl, rfl⟩
      | cons => cases hrows
  | cons row rest ih =>
      cases ids with
      | nil => cases hrows
      | cons id ids =>
          simp only [List.map_cons, List.cons.injEq] at hrows
          rw [List.mapM_cons] at hss ⊢
          obtain ⟨s, hs, hss⟩ := bind_eq_ok.mp hss
          obtain ⟨ss', hss', hss⟩ := bind_eq_ok.mp hss
          cases hss
          obtain ⟨hrest, hids⟩ := ih hrows.2 hss'
          have hid : strapiIdOf row = .ok id := by
            unfold strapiIdOf
            rw [hrows.1]
            rfl
          have hstrapi : s.strapiId = id := by
            have hread := readFaq_of_source hs
            unfold readFaq at hread
            rw [hid] at hread
            obtain ⟨_, hread', hread⟩ := bind_eq_ok.mp hread
            cases hread'
            obtain ⟨faq, -, hread⟩ := bind_eq_ok.mp hread
            obtain ⟨response, -, hread⟩ := bind_eq_ok.mp hread
            exact (congrArg Prod.fst (Except.ok.inj hread)).symm
          rw [hid, hids]
          exact ⟨by rw [List.map_cons, hstrapi, hrest], rfl⟩

theorem syncFaqs_eq_ok {rows : List Dict} (h : (env.syncFaqs t rows).2 = .ok ()) :
    env.statements t rows = .ok (env.syncFaqs t rows).1 := by
  unfold FaqSync.syncFaqs at h ⊢
  split at h
  · rename_i hok
    exact hok
  · cases h

theorem faqs_mirrored (env : FaqSync) (db : FaqDb V) {rows : List Dict}
    (hrows : DistinctIds rows) : FaqsMirrored env db.toFaqTables rows := by
  obtain ⟨ids, hids, hnodup⟩ := hrows
  have hdone : ∀ (env : FaqSync) (t : FaqTables V), t.Sound →
      (env.syncFaqs t rows).2 = .ok () →
      ∃ ss, rows.mapM readSourceFaq = .ok ss ∧ (ss.map SourceFaq.strapiId).Nodup
        ∧ (env.syncFaqs t rows).1
          = (ss.foldl env.imported t).markMissing (ss.map SourceFaq.strapiId) := by
    intro env t hsound hok
    obtain ⟨ss, sourceIds, hss, hsource, htables⟩ := statements_eq_ok (syncFaqs_eq_ok hok)
    obtain ⟨hstrapi, hread⟩ := strapiIds_of_ids hids hss
    cases hsource.symm.trans hread
    exact ⟨ss, hss, hstrapi ▸ hnodup, hstrapi ▸ htables⟩
  refine ⟨fun error herror => ?_, fun hok => ?_, fun hok refuses => ?_⟩
  · unfold FaqSync.syncFaqs at herror ⊢
    split at herror
    · cases herror
    · rfl
  · obtain ⟨ss, hss, hstrapi, htables⟩ := hdone env db.toFaqTables db.sound hok
    rw [htables]
    exact ⟨ss, hss, live_markMissing db.sound.foldl_imported hstrapi
      (settled_foldl env db.sound hstrapi)⟩
  · obtain ⟨ss, hss, hstrapi, htables⟩ := hdone env db.toFaqTables db.sound hok
    have hsound : (ss.foldl env.imported db.toFaqTables).Sound := db.sound.foldl_imported
    rw [htables]
    cases hagain : (({ env with refuses := refuses } : FaqSync).syncFaqs
        ((ss.foldl env.imported db.toFaqTables).markMissing (ss.map SourceFaq.strapiId)) rows).2
      with
    | error error =>
        unfold FaqSync.syncFaqs at hagain ⊢
        split at hagain
        · cases hagain
        · rfl
    | ok =>
        obtain ⟨ss', hss', -, htables'⟩ := hdone _ _ hsound.markMissing hagain
        cases hss.symm.trans hss'
        rw [htables']
        have hsettled : ∀ s ∈ ss, ∃ r, FaqSettled { env with refuses := refuses }
            ((ss.foldl env.imported db.toFaqTables).markMissing (ss.map SourceFaq.strapiId))
            s r := by
          intro s hs
          obtain ⟨r, hr⟩ := settled_foldl env db.sound hstrapi s hs
          have hmarked := hr.markMissing hsound (List.mem_map_of_mem hs)
          exact ⟨r, hmarked.found, hmarked.source, hmarked.hash, hmarked.live, hmarked.category,
            ⟨hmarked.embedding.exists_row, hmarked.embedding.labelled⟩⟩
        rw [foldl_settled hsound.markMissing hsettled, markMissing_markMissing]

/-! ## The Skill half -/

/-- The names of the Skills, as they are normalised, are distinct. -/
def DistinctNames (rows : List Dict) : Prop :=
  ∀ fields ∈ (rows.mapM normalizeStrapiSkill).toOption, (fields.map SkillFields.name).Nodup

instance (rows : List Dict) : Decidable (DistinctNames rows) :=
  inferInstanceAs (Decidable (∀ fields ∈ (rows.mapM normalizeStrapiSkill).toOption,
    (fields.map SkillFields.name).Nodup))

/-- A sync that does not raise leaves every Skill of the content service that the source does not
have archived, and every Skill of the source as its row normalises. -/
def SkillsMirrored (env : SkillEnv) (memories : ProceduralTable)
    (refuses : SkillTransaction → Option String) (t : SkillTable) (rows : List Dict) : Prop :=
  (syncSkills env memories refuses t rows).2 = .ok () →
    (∀ row ∈ (syncSkills env memories refuses t rows).1.rows,
        SkillTable.jsonbHas row.fields.metadata "strapi_id" = true →
        (∀ source ∈ rows, ∀ f, normalizeStrapiSkill source = .ok f → f.name ≠ row.fields.name) →
        row.fields.status = .str "archived")
      ∧ ∀ source ∈ rows, ∃ f, normalizeStrapiSkill source = .ok f
          ∧ ∃ row ∈ (syncSkills env memories refuses t rows).1.rows, row.fields = f

namespace SkillTable

theorem exists_upsert (t : SkillTable) (f : SkillFields) (hash : String) :
    ∃ row ∈ (t.upsert f hash).rows, row.fields = f := by
  unfold upsert
  split
  · rename_i old hold
    refine ⟨_, List.mem_map_of_mem (List.mem_of_find?_eq_some hold), ?_⟩
    have hname : old.fields.name = f.name := by simpa using List.find?_some hold
    unfold updated
    rw [if_pos hname]
  · exact ⟨_, List.mem_append_right _ (List.mem_singleton_self _), rfl⟩

theorem upsert_keeps {t : SkillTable} {f : SkillFields} {hash : String} {row : SkillRow}
    (h : row ∈ t.rows) (hname : row.fields.name ≠ f.name) : row ∈ (t.upsert f hash).rows := by
  unfold upsert
  split
  · refine List.mem_map.mpr ⟨row, h, ?_⟩
    unfold updated
    rw [if_neg hname]
  · exact List.mem_append_left _ h

/-- After the upserts of distinct names every one of them is there. -/
theorem exists_foldl_upsert (hashOf : SkillFields → String) {batch : List SkillFields}
    (hnames : (batch.map SkillFields.name).Nodup) (t : SkillTable) :
    ∀ f ∈ batch, ∃ row ∈ (batch.foldl (fun t f => t.upsert f (hashOf f)) t).rows,
      row.fields = f := by
  have hkept : ∀ (rest : List SkillFields) (t : SkillTable) (row : SkillRow), row ∈ t.rows →
      row.fields.name ∉ rest.map SkillFields.name →
      row ∈ (rest.foldl (fun t f => t.upsert f (hashOf f)) t).rows := by
    intro rest
    induction rest with
    | nil => exact fun _ _ h _ => h
    | cons first rest ih =>
        intro t row h hmiss
        obtain ⟨hne, hmiss⟩ := not_or.mp (mt List.mem_cons.mpr hmiss)
        exact ih _ row (upsert_keeps h hne) hmiss
  induction batch generalizing t with
  | nil => exact fun f hf => nomatch hf
  | cons first rest ih =>
      obtain ⟨hfirst, hrest⟩ := List.nodup_cons.mp hnames
      intro f hf
      rcases List.mem_cons.mp hf with rfl | hf
      · obtain ⟨row, hrow, hfields⟩ := t.exists_upsert f (hashOf f)
        exact ⟨row, hkept rest _ row hrow (by rw [hfields]; exact hfirst), hfields⟩
      · exact ih hrest _ f hf

end SkillTable

theorem skillTransaction_eq_ok {env : SkillEnv} {refuses : SkillTransaction → Option String}
    {transaction : SkillTransaction} {write : SkillWrite} {t t' : SkillTable}
    (h : skillTransaction env refuses transaction write t = .ok t') :
    ∃ ensured, writeSkills env t write = .ok (t', ensured) := by
  unfold skillTransaction at h
  obtain ⟨⟨t₁, ensured⟩, hwrite, h⟩ := bind_eq_ok.mp h
  dsimp only at h
  split at h
  · cases h
  · cases h
    exact ⟨ensured, hwrite⟩

/-- The two transactions of a Skill sync that succeeds. -/
theorem syncSkills_eq_ok {env : SkillEnv} {memories : ProceduralTable}
    {refuses : SkillTransaction → Option String} {t : SkillTable} {rows : List Dict}
    (h : (syncSkills env memories refuses t rows).2 = .ok ()) :
    ∃ fields, rows.mapM normalizeStrapiSkill = .ok fields
      ∧ (syncSkills env memories refuses t rows).1
        = (fields.foldl (fun t f => t.upsert f (syncHash env.sha256 f)) t).archiveMissing
            (fields.map SkillFields.name) := by
  unfold syncSkills at h ⊢
  cases hupserts : skillTransaction env refuses .upserts (.syncRows memories rows) t with
  | error error =>
      rw [hupserts] at h
      cases h
  | ok t₁ =>
      rw [hupserts] at h
      dsimp only at h ⊢
      cases harchive : skillTransaction env refuses .archive (.archiveMissing rows) t₁ with
      | error error =>
          rw [harchive] at h
          cases h
      | ok t₂ =>
          obtain ⟨_, hwrite⟩ := skillTransaction_eq_ok hupserts
          obtain ⟨_, hwrite'⟩ := skillTransaction_eq_ok harchive
          obtain ⟨_, -, hwrite⟩ := bind_eq_ok.mp hwrite
          obtain ⟨t', hsync, hwrite⟩ := bind_eq_ok.mp hwrite
          cases hwrite
          obtain ⟨fields, hfields, -, rfl⟩ := syncSkillRows_eq_ok hsync
          obtain ⟨fields', hfields', hwrite'⟩ := bind_eq_ok.mp hwrite'
          cases hfields.symm.trans hfields'
          cases hwrite'
          exact ⟨fields, hfields, rfl⟩

theorem skills_mirrored (env : SkillEnv) (memories : ProceduralTable)
    (refuses : SkillTransaction → Option String) (t : SkillTable) {rows : List Dict}
    (hrows : DistinctNames rows) : SkillsMirrored env memories refuses t rows := by
  intro hok
  obtain ⟨fields, hfields, htable⟩ := syncSkills_eq_ok hok
  rw [htable]
  constructor
  · intro row hrow howned hmissing
    obtain ⟨old, -, rfl⟩ := List.mem_map.mp hrow
    rw [SkillTable.archivedRow_name] at hmissing
    have hnames : old.fields.name ∉ fields.map SkillFields.name := by
      intro hmem
      obtain ⟨f, hf, hname⟩ := List.mem_map.mp hmem
      obtain ⟨source, hsource, hnormal⟩ := mem_of_mapM_eq_ok hfields hf
      exact hmissing source hsource f hnormal hname
    unfold SkillTable.archivedRow at howned ⊢
    split
    · rfl
    · rename_i hkept
      rw [if_neg hkept] at howned
      by_contra hstatus
      exact hkept (by simp [hstatus, howned, hnames])
  · intro source hsource
    obtain ⟨f, hf, hnormal⟩ := mapM_eq_ok_mem hfields hsource
    have hnames := hrows fields (by rw [hfields]; rfl)
    obtain ⟨row, hrow, hrowFields⟩ :=
      SkillTable.exists_foldl_upsert (syncHash env.sha256) hnames t f hf
    refine ⟨f, hnormal, row, List.mem_map.mpr ⟨row, hrow, ?_⟩, hrowFields⟩
    unfold SkillTable.archivedRow
    rw [if_neg]
    rw [hrowFields]
    simp [List.mem_map_of_mem hf]

/-! ## Both halves -/

/-- `sync_content` mirrors its source: the FAQs of rows with distinct integer ids, and the
Skills of rows whose normalised names are distinct. A second sync of the same rows finds
everything settled and changes nothing, at whatever statement it fails. -/
theorem content_mirrored (env : FaqSync) (db : FaqDb V) (faqs : List Dict)
    (hfaqs : DistinctIds faqs) (skillEnv : SkillEnv) (memories : ProceduralTable)
    (refuses : SkillTransaction → Option String) (t : SkillTable) (skills : List Dict)
    (hskills : DistinctNames skills) :
    FaqsMirrored env db.toFaqTables faqs ∧ SkillsMirrored skillEnv memories refuses t skills :=
  ⟨faqs_mirrored env db hfaqs, skills_mirrored skillEnv memories refuses t hskills⟩

section Example

def exampleFaqSync : FaqSync where
  sha256 := id
  taxonomy _ := none
  embeddingModel := "bge-m3"
  refuses _ := none

/-- Nothing is imported yet. -/
def noFaqs : FaqDb Unit where
  sound := ⟨by decide, by decide, by decide, by decide⟩

def exampleFaqs : List Dict := [resetRow, ("id", .int 2) :: resetRow]

/-- Another Skill with the name of `greetSkill`, but for a blank. -/
def blankSkill : Dict :=
  [("name", .str "s "), ("title", .str "u"), ("description", .str "d"), ("content", .str "c")]

theorem content_mirrored_reset :
    FaqsMirrored exampleFaqSync noFaqs.toFaqTables exampleFaqs
      ∧ SkillsMirrored plainEnv .empty (fun _ => none) .empty [greetSkill] :=
  content_mirrored exampleFaqSync noFaqs exampleFaqs ⟨[1, 2], rfl, by decide⟩ plainEnv .empty
    (fun _ => none) .empty [greetSkill] (by decide +kernel)

/-- Two rows whose names differ become one Skill, and the first of them is lost. -/
theorem blank_name_overwrites :
    ([greetSkill, blankSkill].map fun row => Dict.get row "name").Nodup
      ∧ ¬ SkillsMirrored plainEnv .empty (fun _ => none) .empty [greetSkill, blankSkill] := by
  refine ⟨by decide, fun h => ?_⟩
  obtain ⟨-, hsources⟩ := h (by decide +kernel)
  obtain ⟨f, hf, row, hrow, hfields⟩ := hsources greetSkill List.mem_cons_self
  have htitle : f.title = "t" := by
    have hread : (normalizeStrapiSkill greetSkill).toOption.map SkillFields.title = some "t" := by
      decide +kernel
    rw [hf] at hread
    exact Option.some.inj hread
  have hlost : ∀ row ∈ (syncSkills plainEnv .empty (fun _ => none) .empty
      [greetSkill, blankSkill]).1.rows, row.fields.title ≠ "t" := by decide +kernel
  exact hlost row hrow (by rw [hfields, htitle])

end Example

end Aegora
