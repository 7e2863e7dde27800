import Aegora.FaqImport
import Aegora.Occurrences

/-!
# What the hash of a FAQ tells apart

`faq_hash` joins six fields by line breaks, and a field may hold line breaks of
its own. Two contents have one hash when their fields have the same lines, cut
into fields at other places; a FAQ that is imported again with its text moved
so keeps its version and the vector of the old text.

`faq_reimport_iff` is about every two rows of one id.
-/

namespace Aegora

open Py Occurrences

variable {V : Type} {sha256 : String → String}

/-! ## The hash -/

/-- The lines of the hashed fields, one field after the other; a field that is missing is an empty
line. -/
def FaqContent.lines (c : FaqContent) : List (List Char) :=
  c.hashParts.flatMap fun part => part.toList.splitOn '\n'

theorem joined_eq_iff (c c' : FaqContent) :
    "\n".intercalate c.hashParts = "\n".intercalate c'.hashParts ↔ c.lines = c'.lines := by
  have hsep : "\n".toList = ['\n'] := by decide
  have hparts : ∀ c : FaqContent, c.hashParts.map String.toList ≠ [] :=
    fun _ => List.cons_ne_nil _ _
  have hlines : ∀ c : FaqContent,
      ((c.hashParts.map String.toList).flatMap fun part => part.splitOn '\n') = c.lines :=
    fun c => List.flatMap_map ..
  rw [← String.toList_inj, String.toList_intercalate, String.toList_intercalate, hsep,
    intercalate_eq_iff (hparts c) (hparts c'), hlines, hlines]

theorem faqHash_eq_iff (hsha256 : Function.Injective sha256) (c c' : FaqContent) :
    faqHash sha256 c = faqHash sha256 c' ↔ c.lines = c'.lines :=
  hsha256.eq_iff.trans (joined_eq_iff c c')

/-! ## One import after another -/

section Upsert

variable (t : FaqTable) (strapiId : Int) (c : FaqContent) (hash : String)

/-- The row of the id that was imported. -/
theorem byStrapiId_upsert : ∃ row, (t.upsert strapiId c hash).byStrapiId strapiId = some row
    ∧ row.contentHash = hash
    ∧ ∀ old, t.byStrapiId strapiId = some old → row.id = old.id
      ∧ row.version = if old.contentHash ≠ hash then old.version + 1 else old.version := by
  unfold FaqTable.upsert
  cases hfound : t.byStrapiId strapiId with
  | some old =>
      have hid : old.strapiId = strapiId := by
        simpa using List.find?_some hfound
      have hkey : ∀ row : FaqRow,
          (FaqTable.updated strapiId c hash row).strapiId = row.strapiId := fun row => by
        unfold FaqTable.updated
        split <;> rfl
      refine ⟨FaqTable.updated strapiId c hash old, ?_, ?_⟩
      · unfold FaqTable.byStrapiId at hfound ⊢
        rw [List.find?_map]
        simp only [Function.comp_def, hkey]
        rw [hfound]
        rfl
      · unfold FaqTable.updated
        rw [if_pos hid]
        refine ⟨rfl, fun other hother => ?_⟩
        obtain rfl := Option.some.inj hother
        exact ⟨rfl, rfl⟩
  | none =>
      refine ⟨{ id := t.nextId, strapiId := strapiId, content := c, contentHash := hash
                version := 1, deleted := false }, ?_, rfl, fun old hold => by cases hold⟩
      unfold FaqTable.byStrapiId at hfound ⊢
      rw [List.find?_append, hfound, Option.none_or, List.find?_singleton, if_pos (by simp)]

end Upsert

section Ensure

variable {rows : List (EmbeddingRow V)} {e : Ensured} {row : EmbeddingRow V}

theorem ensured_ownerId (model : String) : (row.ensured model e).ownerId = row.ownerId := by
  unfold EmbeddingRow.ensured
  split <;> rfl

theorem exists_ensured (model : String) (rows : List (EmbeddingRow V)) (e : Ensured) :
    ∃ row ∈ ensureEmbeddingRow model rows e, row.ownerId = e.id := by
  unfold ensureEmbeddingRow
  split
  · rename_i hknown
    obtain ⟨old, hold, howner⟩ := List.any_eq_true.mp hknown
    have howner := of_decide_eq_true howner
    refine ⟨_, List.mem_map_of_mem hold, ?_⟩
    rw [if_pos howner, ensured_ownerId]
    exact howner
  · exact ⟨_, List.mem_append_right _ (List.mem_singleton_self _), rfl⟩

/-- An ensured row is labelled with the hash; where the label changes, the vector is dropped. -/
theorem ensured_row {model : String} (hrow : row ∈ ensureEmbeddingRow model rows e)
    (howner : row.ownerId = e.id) : row.contentHash = e.contentHash
      ∧ ((∀ old ∈ rows, old.ownerId = e.id → old.contentHash ≠ e.contentHash) →
        row.embedding = none ∧ row.status = .pending) := by
  unfold ensureEmbeddingRow at hrow
  split at hrow
  · obtain ⟨old, hold, rfl⟩ := List.mem_map.mp hrow
    by_cases hown : old.ownerId = e.id
    · rw [if_pos hown] at howner ⊢
      unfold EmbeddingRow.ensured
      split
      · exact ⟨rfl, fun _ => ⟨rfl, rfl⟩⟩
      · rename_i hsame
        exact ⟨rfl, fun hother => (hsame (hother old hold hown)).elim⟩
    · rw [if_neg hown] at howner
      exact (hown howner).elim
  · rename_i hnew
    rcases List.mem_append.mp hrow with hold | hrow
    · exact (hnew (List.any_eq_true.mpr ⟨row, hold, decide_eq_true howner⟩)).elim
    · rw [List.mem_singleton.mp hrow]
      exact ⟨rfl, fun _ => ⟨rfl, rfl⟩⟩

end Ensure

/-- The state of a FAQ once the content with this hash is imported. -/
structure Imported (strapiId : Int) (hash : String) (s : EmbeddingStore FaqTable V) : Prop where
  label : ∀ faq, s.source.byStrapiId strapiId = some faq → faq.contentHash = hash
    ∧ ∀ row ∈ s.rows, row.ownerId = faq.id → row.contentHash = hash
  found : ∃ faq, s.source.byStrapiId strapiId = some faq

/-- The version goes up, and the vector is gone. -/
def Renewed (strapiId : Int) (s t : EmbeddingStore FaqTable V) : Prop :=
  ∃ old new, s.source.byStrapiId strapiId = some old ∧ t.source.byStrapiId strapiId = some new
    ∧ new.version = old.version + 1
    ∧ (∃ row ∈ t.rows, row.ownerId = new.id)
    ∧ ∀ row ∈ t.rows, row.ownerId = new.id → row.embedding = none ∧ row.status = .pending

section Import

variable {width : V → Nat} {encode : String → String → V} {s t : EmbeddingStore FaqTable V}
  {row : Dict} {strapiId : Int} {c : FaqContent} {model : String}

/-- What an import of one row does. -/
theorem import_one (hread : readFaq row = .ok (strapiId, c))
    (ht : embeddingStep (faqKind sha256 width) encode s (.write model (.importRows [row]))
      = some t) :
    t.source = s.source.upsert strapiId c (faqHash sha256 c)
      ∧ ∃ faq, t.source.byStrapiId strapiId = some faq ∧ faq.contentHash = faqHash sha256 c
        ∧ t.rows = ensureEmbeddingRow model s.rows ⟨faq.id, faq.version, faq.contentHash⟩ := by
  obtain ⟨faq, hfaq, hhash, -⟩ := byStrapiId_upsert s.source strapiId c (faqHash sha256 c)
  have hwrite : writeFaqs sha256 s.source (.importRows [row])
      = .ok (s.source.upsert strapiId c (faqHash sha256 c),
        [⟨faq.id, faq.version, faq.contentHash⟩]) := by
    unfold writeFaqs importFaqRows
    simp only [List.mapM_cons, List.mapM_nil, hread, bind, Except.bind, pure, Except.pure]
    simp only [FaqTable.upsertAll, FaqTable.returned, hfaq]
    rfl
  unfold embeddingStep at ht
  dsimp only [faqKind] at ht
  rw [hwrite] at ht
  obtain rfl := Option.some.inj ht
  exact ⟨rfl, faq, hfaq, hhash, rfl⟩

theorem import_imported (hread : readFaq row = .ok (strapiId, c))
    (ht : embeddingStep (faqKind sha256 width) encode s (.write model (.importRows [row]))
      = some t) : Imported strapiId (faqHash sha256 c) t := by
  obtain ⟨-, faq, hfaq, hhash, hrows⟩ := import_one hread ht
  refine ⟨fun other hother => ?_, faq, hfaq⟩
  obtain rfl : faq = other := Option.some.inj (hfaq.symm.trans hother)
  refine ⟨hhash, fun row hrow howner => ?_⟩
  rw [hrows] at hrow
  rw [← hhash]
  exact (ensured_row (e := ⟨faq.id, faq.version, faq.contentHash⟩) hrow howner).1

/-- The import of a content over one of another hash, and only that, renews the FAQ. -/
theorem import_renewed_iff {hash : String} (hs : Imported strapiId hash s)
    (hread : readFaq row = .ok (strapiId, c))
    (ht : embeddingStep (faqKind sha256 width) encode s (.write model (.importRows [row]))
      = some t) : Renewed strapiId s t ↔ hash ≠ faqHash sha256 c := by
  obtain ⟨hsource, faq, hfaq, hhash, hrows⟩ := import_one hread ht
  obtain ⟨old, hold⟩ := hs.found
  obtain ⟨hlabel, hlabels⟩ := hs.label old hold
  obtain ⟨new, hnew, -, hversion⟩ := byStrapiId_upsert s.source strapiId c
    (faqHash sha256 c)
  rw [← hsource] at hnew
  obtain rfl : faq = new := Option.some.inj (hfaq.symm.trans hnew)
  obtain ⟨hid, hversion⟩ := hversion old hold
  rw [hlabel] at hversion
  constructor
  · rintro ⟨old', new', hold', hnew', hbumped, -⟩ hsame
    obtain rfl : old = old' := Option.some.inj (hold.symm.trans hold')
    obtain rfl : faq = new' := Option.some.inj (hfaq.symm.trans hnew')
    rw [if_neg (not_not.mpr hsame), hbumped] at hversion
    exact Nat.succ_ne_self _ hversion
  · intro hother
    rw [if_pos hother] at hversion
    refine ⟨old, faq, hold, hfaq, hversion, ?_, fun row hrow howner => ?_⟩
    · rw [hrows]
      exact exists_ensured model s.rows ⟨faq.id, faq.version, faq.contentHash⟩
    · rw [hrows] at hrow
      refine (ensured_row (e := ⟨faq.id, faq.version, faq.contentHash⟩) hrow howner).2
        fun before hbefore hown => ?_
      rw [hlabels before hbefore (hown.trans hid), hhash]
      exact hother

end Import

/-- Workers may have claimed the rows and stored vectors of their contents. -/
structure Refilled (s t : EmbeddingStore FaqTable V) : Prop where
  source : t.source = s.source
  rows : ∀ row ∈ t.rows, ∃ old ∈ s.rows, row.ownerId = old.ownerId
    ∧ row.contentHash = old.contentHash

theorem Imported.refilled {strapiId : Int} {hash : String} {s t : EmbeddingStore FaqTable V}
    (h : Imported strapiId hash s) (hrefilled : Refilled s t) : Imported strapiId hash t where
  label := by
    rw [hrefilled.source]
    intro faq hfaq
    refine ⟨(h.label faq hfaq).1, fun row hrow howner => ?_⟩
    obtain ⟨old, hold, hown, hhash⟩ := hrefilled.rows row hrow
    rw [hhash]
    exact (h.label faq hfaq).2 old hold (hown.symm.trans howner)
  found := by
    rw [hrefilled.source]
    exact h.found

/-- The second of two contents of one id has another hash and renews the FAQ exactly when the
two do not have the same lines. The hashed text is the lines of all fields in a row, so it does
not tell where a field ends. -/
theorem faq_reimport_iff (hsha256 : Function.Injective sha256) (width : V → Nat)
    (encode : String → String → V) {first second : Dict} {strapiId : Int} {c c' : FaqContent}
    (hfirst : readFaq first = .ok (strapiId, c)) (hsecond : readFaq second = .ok (strapiId, c'))
    {model model' : String} {s imported refilled t : EmbeddingStore FaqTable V}
    (himported : embeddingStep (faqKind sha256 width) encode s
      (.write model (.importRows [first])) = some imported)
    (hrefilled : Refilled imported refilled)
    (ht : embeddingStep (faqKind sha256 width) encode refilled
      (.write model' (.importRows [second])) = some t) :
    (faqHash sha256 c ≠ faqHash sha256 c' ∧ Renewed strapiId refilled t) ↔ c.lines ≠ c'.lines := by
  rw [import_renewed_iff ((import_imported hfirst himported).refilled hrefilled) hsecond ht,
    and_self, Ne, faqHash_eq_iff hsha256]

/-! ### Text that moves -/

def faqRow (faq response : String) : Dict :=
  [("id", .int 1), ("FAQ", .str faq), ("Response", .str response)]

def faqContent (faq response : String) : FaqContent := ⟨none, faq, response, none, none, none⟩

/-- The embeddings of FAQs, with one vector. -/
def unitFaqs : EmbeddingKind FaqTable FaqWrite Unit := faqKind id fun _ => 1

def importFaq (faq response : String) : EmbeddingOp FaqWrite :=
  .write "m" (.importRows [faqRow faq response])

theorem write_total (s : EmbeddingStore FaqTable Unit) (model : String) (a : FaqWrite) :
    ∃ t, embeddingStep unitFaqs (fun _ _ => ()) s (.write model a) = some t := by
  unfold embeddingStep
  dsimp only
  split
  · exact ⟨_, rfl⟩
  · exact ⟨_, rfl⟩

theorem refilled_refl (s : EmbeddingStore FaqTable V) : Refilled s s :=
  ⟨rfl, fun row hrow => ⟨row, hrow, rfl, rfl⟩⟩

theorem faq_reimport_changed :
    ∃ imported t,
      embeddingStep unitFaqs (fun _ _ => ()) unitFaqs.start (importFaq "a" "b") = some imported
        ∧ embeddingStep unitFaqs (fun _ _ => ()) imported (importFaq "c" "b") = some t
        ∧ Renewed 1 imported t := by
  obtain ⟨imported, himported⟩ := write_total unitFaqs.start "m" (.importRows [faqRow "a" "b"])
  obtain ⟨t, ht⟩ := write_total imported "m" (.importRows [faqRow "c" "b"])
  have hfirst : readFaq (faqRow "a" "b") = .ok (1, faqContent "a" "b") := by decide +kernel
  have hsecond : readFaq (faqRow "c" "b") = .ok (1, faqContent "c" "b") := by decide +kernel
  exact ⟨imported, t, himported, ht, ((faq_reimport_iff Function.injective_id (fun _ => 1)
    (fun _ _ => ()) hfirst hsecond himported (refilled_refl imported) ht).mpr
      (by decide +kernel)).2⟩

/-- A line moves from the question to the answer: the FAQ keeps its version and its vector. -/
theorem moved_line_unnoticed :
    ¬ ∀ (sha256 : String → String), Function.Injective sha256 →
      ∀ (first second : Dict) (strapiId : Int) (c c' : FaqContent),
        readFaq first = .ok (strapiId, c) → readFaq second = .ok (strapiId, c') → c ≠ c' →
        ∀ s imported t : EmbeddingStore FaqTable Unit,
          embeddingStep (faqKind sha256 fun _ => 1) (fun _ _ => ()) s
              (.write "m" (.importRows [first])) = some imported →
            embeddingStep (faqKind sha256 fun _ => 1) (fun _ _ => ()) imported
              (.write "m" (.importRows [second])) = some t →
              faqHash sha256 c ≠ faqHash sha256 c' ∧ Renewed strapiId imported t := by
  intro h
  obtain ⟨imported, himported⟩ :=
    write_total unitFaqs.start "m" (.importRows [faqRow "a\nb" "c"])
  obtain ⟨t, ht⟩ := write_total imported "m" (.importRows [faqRow "a" "b\nc"])
  refine (h id Function.injective_id _ _ 1 (faqContent "a\nb" "c") (faqContent "a" "b\nc")
    (by decide +kernel) (by decide +kernel) (by decide +kernel) unitFaqs.start imported t himported
    ht).1 ?_
  exact (faqHash_eq_iff Function.injective_id _ _).mpr (by decide +kernel)

end Aegora
