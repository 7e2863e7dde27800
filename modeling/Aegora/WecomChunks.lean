import Aegora.TextLines

/-!
# An answer in chunks

`chunk_text` cuts an answer into messages of bounded length. It collects lines
as long as they fit and sends what it has collected before a line that does not
fit; a line that is too long by itself is cut into pieces.

`Collecting` is what holds of the chunks and the collected lines between two
lines, `addParagraph_spec` what one line does to it.
-/

namespace Aegora

open Py

namespace WecomChunks

/-! ## The two loops -/

/-- The `while` loop over a line: the pieces that are cut off, and the rest. `none` when the fuel
runs out. -/
def cutParagraph (maxChars : ℕ) : ℕ → List Char → Option (List (List Char) × List Char)
  | 0, paragraph => if paragraph.length ≤ maxChars then some ([], paragraph) else none
  | fuel + 1, paragraph =>
      if paragraph.length ≤ maxChars then some ([], paragraph)
      else (cutParagraph maxChars fuel (paragraph.drop maxChars)).map fun (pieces, rest) =>
        (paragraph.take maxChars :: pieces, rest)

/-- The variables of the `for` loop. -/
structure ChunkState where
  chunks : List (List Char) := []
  current : List (List Char) := []
  currentLen : ℕ := 0

/-- `chunks.append("".join(current))`. -/
def ChunkState.flush (s : ChunkState) : ChunkState where
  chunks := s.chunks ++ [s.current.flatten]

/-- One line of the text. -/
def addParagraph (maxChars fuel : ℕ) (s : ChunkState) (paragraph : List Char) :
    Option ChunkState := do
  let s := if s.current ≠ [] ∧ maxChars < s.currentLen + paragraph.length then s.flush else s
  let (pieces, rest) ← cutParagraph maxChars fuel paragraph
  return {
    chunks := s.chunks ++ pieces
    current := s.current ++ [rest]
    currentLen := s.currentLen + rest.length }

/-- `chunk_text`, on a text as its characters. -/
def chunkChars (maxChars fuel : ℕ) (value : List Char) : Option (List (List Char)) :=
  if value.length ≤ maxChars then some [value]
  else do
    let s ← (keptLines value).foldlM (addParagraph maxChars fuel) {}
    let chunks := if s.current ≠ [] then s.flush.chunks else s.chunks
    return if chunks = [] then [value] else chunks

/-- `chunk_text`. -/
def chunkText (maxChars fuel : ℕ) (text : String) : Option (List String) :=
  (chunkChars maxChars fuel text.toList).map (·.map String.ofList)

example : chunkText 4 3 "ab\ncdefghi\njk" = some ["ab\n", "cdef", "ghi\n", "jk"] := by decide

/-! ## One line -/

variable {maxChars : ℕ}

/-- A chunk that may be sent. -/
def Sendable (maxChars : ℕ) (chunk : List Char) : Prop := chunk ≠ [] ∧ chunk.length ≤ maxChars

/-- A line is cut into full pieces and a rest that fits. -/
theorem cutParagraph_spec (hmax : 1 ≤ maxChars) {fuel : ℕ} {paragraph : List Char}
    (hne : paragraph ≠ []) (hfuel : paragraph.length ≤ fuel) :
    ∃ pieces rest, cutParagraph maxChars fuel paragraph = some (pieces, rest)
      ∧ pieces.flatten ++ rest = paragraph ∧ (∀ piece ∈ pieces, Sendable maxChars piece)
      ∧ Sendable maxChars rest ∧ (paragraph.length ≤ maxChars → pieces = []) := by
  induction fuel generalizing paragraph with
  | zero => exact absurd (List.length_eq_zero_iff.mp (Nat.le_zero.mp hfuel)) hne
  | succ fuel ih =>
      unfold cutParagraph
      by_cases hfits : paragraph.length ≤ maxChars
      · rw [if_pos hfits]
        exact ⟨[], paragraph, rfl, rfl, fun _ h => absurd h List.not_mem_nil, ⟨hne, hfits⟩,
          fun _ => rfl⟩
      · rw [if_neg hfits]
        rw [not_le] at hfits
        have hlength : (paragraph.drop maxChars).length = paragraph.length - maxChars :=
          List.length_drop
        have hdrop : paragraph.drop maxChars ≠ [] := by
          rw [← List.length_pos_iff, hlength]
          omega
        obtain ⟨pieces, rest, hcut, hflat, hpieces, hrest, -⟩ := ih hdrop (by omega)
        have htake : Sendable maxChars (paragraph.take maxChars) := by
          refine ⟨?_, List.length_take_le maxChars paragraph⟩
          rw [← List.length_pos_iff, List.length_take]
          omega
        refine ⟨paragraph.take maxChars :: pieces, rest, by rw [hcut]; rfl, ?_, ?_, hrest,
          fun hle => absurd hle (not_le.mpr hfits)⟩
        · rw [List.flatten_cons, List.append_assoc, hflat, List.take_append_drop]
        · intro piece hpiece
          rcases List.mem_cons.mp hpiece with rfl | hpiece
          · exact htake
          · exact hpieces piece hpiece

/-- Between two lines: what was read is in the chunks and in the collected lines. -/
structure Collecting (maxChars : ℕ) (read : List Char) (s : ChunkState) : Prop where
  whole : s.chunks.flatten ++ s.current.flatten = read
  sendable : ∀ chunk ∈ s.chunks, Sendable maxChars chunk
  measured : s.currentLen = s.current.flatten.length
  fits : s.currentLen ≤ maxChars
  lines : ∀ line ∈ s.current, line ≠ []

theorem collecting_start : Collecting maxChars [] {} where
  whole := rfl
  sendable := fun _ h => absurd h List.not_mem_nil
  measured := rfl
  fits := Nat.zero_le _
  lines := fun _ h => absurd h List.not_mem_nil

/-- What is collected may be sent. -/
theorem Collecting.current_sendable {read : List Char} {s : ChunkState}
    (h : Collecting maxChars read s) (hcurrent : s.current ≠ []) :
    Sendable maxChars s.current.flatten := by
  refine ⟨fun hnil => ?_, h.measured ▸ h.fits⟩
  obtain ⟨line, hline⟩ := List.exists_mem_of_ne_nil _ hcurrent
  exact h.lines line hline (List.flatten_eq_nil_iff.mp hnil line hline)

theorem Collecting.flush {read : List Char} {s : ChunkState} (h : Collecting maxChars read s)
    (hcurrent : s.current ≠ []) : Collecting maxChars read s.flush where
  whole := by
    have hwhole := h.whole
    simpa [ChunkState.flush] using hwhole
  sendable := by
    intro chunk hchunk
    rcases List.mem_append.mp hchunk with hchunk | hchunk
    · exact h.sendable chunk hchunk
    · rw [List.mem_singleton.mp hchunk]
      exact h.current_sendable hcurrent
  measured := rfl
  fits := Nat.zero_le _
  lines := fun _ h => absurd h List.not_mem_nil

/-- One line more. After the flush the line fits, or nothing is collected, and then its pieces
come after the chunks. -/
theorem addParagraph_spec (hmax : 1 ≤ maxChars) {read paragraph : List Char} {s : ChunkState}
    (h : Collecting maxChars read s) (hne : paragraph ≠ []) {fuel : ℕ}
    (hfuel : paragraph.length ≤ fuel) :
    ∃ s', addParagraph maxChars fuel s paragraph = some s' ∧ s'.current ≠ []
      ∧ Collecting maxChars (read ++ paragraph) s' := by
  obtain ⟨pieces, rest, hcut, hflat, hpieces, hrest, hshort⟩ := cutParagraph_spec hmax hne hfuel
  obtain ⟨s₁, hs₁, h₁, hroom⟩ : ∃ s₁ : ChunkState,
      (if s.current ≠ [] ∧ maxChars < s.currentLen + paragraph.length then s.flush else s) = s₁
        ∧ Collecting maxChars read s₁
        ∧ (s₁.current = [] ∨ s₁.currentLen + paragraph.length ≤ maxChars) := by
    by_cases hflush : s.current ≠ [] ∧ maxChars < s.currentLen + paragraph.length
    · rw [if_pos hflush]
      exact ⟨s.flush, rfl, h.flush hflush.1, Or.inl rfl⟩
    · rw [if_neg hflush]
      refine ⟨s, rfl, h, ?_⟩
      by_cases hcurrent : s.current = []
      · exact Or.inl hcurrent
      · exact Or.inr (not_lt.mp fun hlt => hflush ⟨hcurrent, hlt⟩)
  have hlength : pieces.flatten.length + rest.length = paragraph.length := by
    rw [← List.length_append, hflat]
  refine ⟨⟨s₁.chunks ++ pieces, s₁.current ++ [rest], s₁.currentLen + rest.length⟩, ?_, by simp,
    ?_⟩
  · unfold addParagraph
    rw [hs₁, hcut]
    rfl
  · refine ⟨?_, ?_, ?_, ?_, ?_⟩
    · have hmoved : s₁.chunks.flatten ++ pieces.flatten ++ s₁.current.flatten
          = s₁.chunks.flatten ++ s₁.current.flatten ++ pieces.flatten := by
        rcases hroom with hnil | hroom
        · rw [hnil, List.flatten_nil, List.append_nil, List.append_nil]
        · rw [hshort (by omega), List.flatten_nil, List.append_nil, List.append_nil]
      rw [List.flatten_append, List.flatten_append, List.flatten_singleton, ← List.append_assoc,
        hmoved, h₁.whole, List.append_assoc, hflat]
    · intro chunk hchunk
      rcases List.mem_append.mp hchunk with hchunk | hchunk
      · exact h₁.sendable chunk hchunk
      · exact hpieces chunk hchunk
    · simp [h₁.measured]
    · change s₁.currentLen + rest.length ≤ maxChars
      rcases hroom with hnil | hroom
      · have hzero : s₁.currentLen = 0 := by rw [h₁.measured, hnil]; rfl
        rw [hzero, Nat.zero_add]
        exact hrest.2
      · omega
    · intro line hline
      rcases List.mem_append.mp hline with hline | hline
      · exact h₁.lines line hline
      · rw [List.mem_singleton.mp hline]
        exact hrest.1

/-! ## The whole text -/

theorem addParagraphs_spec (hmax : 1 ≤ maxChars) {fuel : ℕ} (paragraphs : List (List Char))
    (hne : ∀ paragraph ∈ paragraphs, paragraph ≠ [])
    (hfuel : paragraphs.flatten.length ≤ fuel) {read : List Char} {s : ChunkState}
    (h : Collecting maxChars read s) :
    ∃ s', paragraphs.foldlM (addParagraph maxChars fuel) s = some s'
      ∧ (paragraphs ≠ [] → s'.current ≠ [])
      ∧ Collecting maxChars (read ++ paragraphs.flatten) s' := by
  induction paragraphs generalizing read s with
  | nil =>
      refine ⟨s, rfl, fun hnil => absurd rfl hnil, ?_⟩
      rw [List.flatten_nil, List.append_nil]
      exact h
  | cons paragraph paragraphs ih =>
      rw [List.flatten_cons, List.length_append] at hfuel
      obtain ⟨s₁, hadd, hcurrent, h₁⟩ := addParagraph_spec hmax h
        (hne paragraph List.mem_cons_self) (show paragraph.length ≤ fuel by omega)
      obtain ⟨s', hrun, hlast, h'⟩ := ih (fun p hp => hne p (List.mem_cons_of_mem _ hp))
        (by omega) h₁
      refine ⟨s', ?_, fun _ => ?_, ?_⟩
      · rw [List.foldlM_cons, hadd]
        exact hrun
      · by_cases hnil : paragraphs = []
        · subst hnil
          obtain rfl := Option.some.inj hrun
          exact hcurrent
        · exact hlast hnil
      · rwa [List.flatten_cons, ← List.append_assoc]

/-- The chunks of a text, with fuel for each of its characters. -/
theorem chunkChars_spec (hmax : 1 ≤ maxChars) {fuel : ℕ} {value : List Char}
    (hfuel : value.length ≤ fuel) :
    ∃ chunks, chunkChars maxChars fuel value = some chunks ∧ chunks.flatten = value
      ∧ ∀ chunk ∈ chunks, chunk.length ≤ maxChars ∧ (value ≠ [] → chunk ≠ []) := by
  unfold chunkChars
  by_cases hshort : value.length ≤ maxChars
  · rw [if_pos hshort]
    refine ⟨[value], rfl, by simp, fun chunk hchunk => ?_⟩
    rw [List.mem_singleton.mp hchunk]
    exact ⟨hshort, id⟩
  · rw [if_neg hshort]
    have hflat := flatten_keptLines value
    have hlength : (keptLines value).flatten.length ≤ fuel := by rwa [hflat]
    obtain ⟨s, hrun, hcurrent, hs⟩ := addParagraphs_spec hmax (keptLines value)
      (ne_nil_of_mem_keptLines value) hlength collecting_start
    have hlines : keptLines value ≠ [] := by
      intro hnil
      rw [hnil] at hflat
      rw [← hflat] at hshort
      exact hshort (Nat.zero_le _)
    have hflush := hs.flush (hcurrent hlines)
    rw [hflat, List.nil_append] at hflush
    have hnonempty : s.flush.chunks ≠ [] := by simp [ChunkState.flush]
    refine ⟨s.flush.chunks, ?_, ?_, fun chunk hchunk => ?_⟩
    · rw [hrun]
      change some _ = _
      rw [if_pos (hcurrent hlines), if_neg hnonempty]
    · have hwhole := hflush.whole
      rwa [show s.flush.current = [] from rfl, List.flatten_nil, List.append_nil] at hwhole
    · obtain ⟨hne, hle⟩ := hflush.sendable chunk hchunk
      exact ⟨hle, fun _ => hne⟩

/-! ## More fuel -/

theorem cutParagraph_mono {fuel fuel' : ℕ} (hle : fuel ≤ fuel') {paragraph : List Char}
    {cut : List (List Char) × List Char} (h : cutParagraph maxChars fuel paragraph = some cut) :
    cutParagraph maxChars fuel' paragraph = some cut := by
  induction fuel generalizing fuel' paragraph cut with
  | zero =>
      unfold cutParagraph at h
      split at h
      · rename_i hfits
        cases fuel' <;> rw [cutParagraph, if_pos hfits, h]
      · cases h
  | succ fuel ih =>
      cases fuel' with
      | zero => cases hle
      | succ fuel' =>
          unfold cutParagraph at h ⊢
          split at h
          · rename_i hfits
            rw [if_pos hfits, h]
          · rename_i hlong
            obtain ⟨tail, htail, rfl⟩ := Option.map_eq_some_iff.mp h
            rw [if_neg hlong, ih (Nat.le_of_succ_le_succ hle) htail]
            rfl

theorem addParagraphs_mono {fuel fuel' : ℕ} (hle : fuel ≤ fuel') {paragraphs : List (List Char)}
    {s s' : ChunkState} (h : paragraphs.foldlM (addParagraph maxChars fuel) s = some s') :
    paragraphs.foldlM (addParagraph maxChars fuel') s = some s' := by
  induction paragraphs generalizing s with
  | nil => exact h
  | cons paragraph paragraphs ih =>
      rw [List.foldlM_cons] at h ⊢
      obtain ⟨s₁, hadd, hrest⟩ := Option.bind_eq_some_iff.mp h
      obtain ⟨cut, hcut, heq⟩ := Option.bind_eq_some_iff.mp hadd
      refine Option.bind_eq_some_iff.mpr ⟨s₁, ?_, ih hrest⟩
      exact Option.bind_eq_some_iff.mpr ⟨cut, cutParagraph_mono hle hcut, heq⟩

/-- Fuel that is enough is enough for the same chunks. -/
theorem chunkChars_mono {fuel fuel' : ℕ} (hle : fuel ≤ fuel') {value : List Char}
    {chunks : List (List Char)} (h : chunkChars maxChars fuel value = some chunks) :
    chunkChars maxChars fuel' value = some chunks := by
  unfold chunkChars at h ⊢
  split at h
  · rename_i hshort
    rw [if_pos hshort, h]
  · rename_i hlong
    rw [if_neg hlong]
    obtain ⟨s, hrun, heq⟩ := Option.bind_eq_some_iff.mp h
    exact Option.bind_eq_some_iff.mpr ⟨s, addParagraphs_mono hle hrun, heq⟩

end WecomChunks

open WecomChunks

/-- `chunk_text` returns, and its chunks are the text in pieces of bounded length, none of them
empty but that of the empty text. What is in the chunks and in the lines collected so far is
always the text read up to there. -/
theorem chunk_text_lossless (text : String) {maxChars : ℕ} (hmax : 1 ≤ maxChars) :
    ∃ chunks : List String,
      (∀ fuel, text.length ≤ fuel → chunkText maxChars fuel text = some chunks)
        ∧ String.join chunks = text
        ∧ ∀ chunk ∈ chunks, chunk.length ≤ maxChars ∧ (text ≠ "" → chunk ≠ "") := by
  obtain ⟨chunks, hchunks, hflat, hbound⟩ :=
    chunkChars_spec hmax (show text.toList.length ≤ text.length by rw [String.length_toList])
  refine ⟨chunks.map String.ofList, fun fuel hfuel => ?_, ?_, fun chunk hchunk => ?_⟩
  · unfold chunkText
    rw [chunkChars_mono hfuel hchunks]
    rfl
  · apply String.toList_inj.mp
    rw [String.toList_join, List.flatMap_map]
    simpa using hflat
  · obtain ⟨chars, hchars, rfl⟩ := List.mem_map.mp hchunk
    obtain ⟨hle, hne⟩ := hbound chars hchars
    refine ⟨by rwa [String.length_ofList], fun htext hempty => hne (fun hnil => ?_) ?_⟩
    · exact htext (String.toList_eq_nil_iff.mp hnil)
    · rw [← String.toList_ofList (l := chars), hempty]
      rfl

theorem chunk_text_lossless_four :
    1 ≤ 4 ∧ ∃ chunks : List String,
      (∀ fuel, "ab\ncdefghi".length ≤ fuel → chunkText 4 fuel "ab\ncdefghi" = some chunks)
        ∧ String.join chunks = "ab\ncdefghi"
        ∧ ∀ chunk ∈ chunks, chunk.length ≤ 4 ∧ ("ab\ncdefghi" ≠ "" → chunk ≠ "") :=
  ⟨by decide, chunk_text_lossless "ab\ncdefghi" (by decide)⟩

end Aegora
