import Aegora.MemoryService
import Aegora.OrderedQuery
import Mathlib.Algebra.Order.Field.Basic
import Mathlib.Algebra.Order.Field.Rat
import Mathlib.Data.Prod.Lex

/-!
# How memories are ranked

`rank_memory_items` sorts by what an item shares with the query, then by its
importance and its confidence. That an item shares a term at all is a
component of its score that follows from the next one (`before_iff`), so the
order is the one of `rankKey`, and the sort is stable. `recallFrom` is `recall`
for any provider, whatever it finds.
-/

namespace Aegora

open Py

/-! ## The order -/

/-- The query and the item have a term in common. -/
def SharesTerm (service : MemoryService) (query : String) (item : MemoryItem) : Prop :=
  ∃ term ∈ memoryTerms service.lower query,
    term ∈ memoryTerms service.lower (item.key ++ " " ++ item.content)

/-- The part of the query's terms that an item has, its importance and its confidence. -/
def rankKey (service : MemoryService) (query : String) (item : MemoryItem) : ℚ ×ₗ ℚ ×ₗ ℚ :=
  let score := memoryScore service (memoryTerms service.lower query) item
  toLex (score.overlap, toLex (score.importance, score.confidence))

/-- A ranking of items, best first. -/
structure RankedItems (service : MemoryService) (query : String) (items ranked : List MemoryItem) :
    Prop where
  perm : ranked.Perm items
  hitsFirst : ranked.Pairwise fun a b => SharesTerm service query b → SharesTerm service query a
  ordered : ranked.Pairwise fun a b => rankKey service query b ≤ rankKey service query a
  ties : ∀ key, ranked.filter (fun item => rankKey service query item = key)
    = items.filter fun item => rankKey service query item = key

section

variable {service : MemoryService} {query : String} {item : MemoryItem}

theorem overlap_pos_iff : 0 < (memoryScore service (memoryTerms service.lower query) item).overlap
    ↔ (memoryScore service (memoryTerms service.lower query) item).hit = true := by
  have hpos : (0 : ℚ) < ((max 1 (memoryTerms service.lower query).length : ℕ) : ℚ) :=
    Nat.cast_pos.mpr (lt_max_of_lt_left Nat.one_pos)
  unfold memoryScore
  dsimp only
  rw [div_pos_iff_of_pos_right hpos, Nat.cast_pos, decide_eq_true_eq]

theorem sharesTerm_iff : SharesTerm service query item
    ↔ 0 < (memoryScore service (memoryTerms service.lower query) item).overlap := by
  rw [overlap_pos_iff]
  unfold memoryScore SharesTerm
  dsimp only
  rw [decide_eq_true_eq, List.length_pos_iff_exists_mem]
  simp only [List.mem_filter, decide_eq_true_eq]

/-- Whether there is a hit is decided by the overlap. -/
theorem before_iff (a b : MemoryItem) :
    (memoryScore service (memoryTerms service.lower query) a).before
        (memoryScore service (memoryTerms service.lower query) b) = true
      ↔ OrderDual.toDual (rankKey service query a)
        ≤ OrderDual.toDual (rankKey service query b) := by
  have ha := @overlap_pos_iff service query a
  have hb := @overlap_pos_iff service query b
  unfold MemoryScore.before rankKey
  rw [OrderDual.toDual_le_toDual, Prod.Lex.toLex_le_toLex, Prod.Lex.toLex_le_toLex]
  generalize memoryScore service (memoryTerms service.lower query) a = s at ha ⊢
  generalize memoryScore service (memoryTerms service.lower query) b = t at hb ⊢
  by_cases hhit : s.hit = t.hit
  · rw [if_neg (not_not.mpr hhit)]
    by_cases hoverlap : s.overlap = t.overlap
    · by_cases himportance : s.importance = t.importance
      · simp [hoverlap, himportance]
      · simp [hoverlap, himportance, Ne.symm himportance]
    · simp [hoverlap, Ne.symm hoverlap]
  · rw [if_pos hhit]
    cases hs : s.hit with
    | true =>
        have ht : t.hit = false := by simpa [hs] using Ne.symm hhit
        have hpos := ha.mpr hs
        have hzero : t.overlap ≤ 0 := not_lt.mp fun h => by simp [hb.mp h] at ht
        simp [hzero.trans_lt hpos]
    | false =>
        have ht : t.hit = true := by simpa [hs] using Ne.symm hhit
        have hpos := hb.mpr ht
        have hzero : s.overlap ≤ 0 := not_lt.mp fun h => by simp [ha.mp h] at hs
        simp [(hzero.trans_lt hpos).not_gt, (hzero.trans_lt hpos).ne']

theorem rankedItems (items : List MemoryItem) (hterms : memoryTerms service.lower query ≠ []) :
    RankedItems service query items (rankMemoryItems service query items) := by
  unfold rankMemoryItems
  dsimp only
  rw [if_neg hterms]
  have hordered := OrderedQuery.pairwise_insertionSort
    (@before_iff service query) items
  have hkeys := hordered.imp fun {a b} h =>
    OrderDual.toDual_le_toDual.mp ((@before_iff service query a b).mp h)
  refine ⟨List.perm_insertionSort _ _, hkeys.imp fun {a b} hle hshares => ?_, hkeys, fun key => ?_⟩
  · rw [sharesTerm_iff] at hshares ⊢
    exact hshares.trans_le (Prod.Lex.monotone_fst _ _ hle)
  · have hties := OrderedQuery.filter_key_insertionSort
      (@before_iff service query) items (OrderDual.toDual key)
    simpa only [OrderDual.toDual_inj] using hties

end

/-! ## Recall -/

/-- `recall` with what the provider finds, `none` where it raises. -/
def MemoryService.recallFrom (service : MemoryService) (found : Option (List MemoryItem))
    (query : String) (governance : Option MemoryGovernance) : List MemoryItem :=
  if !service.recallEnabled || !service.hasProvider then []
  else
    match found with
    | none => []
    | some items =>
        let admitted : Except String (List MemoryItem) := match governance with
          | none => .ok items
          | some governance => filterRecalledItems items governance
        match admitted with
        | .error _ => []
        | .ok admitted =>
            (takeSlice service.recallLimit (rankMemoryItems service query admitted)).filterMap
              service.sanitize

/-- The recall from the table is one from what its query finds. -/
theorem recall_eq_recallFrom (service : MemoryService) (call : Bool) (scope : MemoryScope)
    (query : String) (governance : Option MemoryGovernance) (now : Time) (t : MemoryTables) :
    service.recall call scope query governance now t
      = service.recallFrom
          (if call then
            some ((recallRows scope service.poolSize now t).map (rowToItem service.floats))
          else none) query governance := by
  unfold MemoryService.recall MemoryService.recallFrom
  cases call <;> cases service.recallEnabled <;> cases service.hasProvider <;> rfl

/-- What `recall` may return of what the provider found. -/
structure RecalledItem (service : MemoryService) (items : List MemoryItem)
    (governance : Option MemoryGovernance) (item : MemoryItem) : Prop where
  nonblank : strip item.content ≠ ""
  truncated : (item.content.length : ℤ) ≤ service.maxItemChars
  admitted : ∀ g, governance = some g → Admits g item
  source : ∃ found ∈ items, item = { found with
    content := takeText service.maxItemChars.toNat (strip found.content) }

theorem mem_of_filterM_eq_ok {ε : Type*} {α : Type} {p : α → Except ε Bool} {xs ys : List α}
    (h : xs.filterM p = .ok ys) {y : α} (hy : y ∈ ys) : y ∈ xs ∧ p y = .ok true := by
  have haux : ∀ (xs acc ys : List α), xs.filterAuxM p acc = .ok ys → ∀ y ∈ ys,
      y ∈ acc ∨ (y ∈ xs ∧ p y = .ok true) := by
    intro xs
    induction xs with
    | nil =>
        intro acc ys h y hy
        obtain rfl := Except.ok.inj h
        exact Or.inl hy
    | cons x xs ih =>
        intro acc ys h y hy
        obtain ⟨keep, hkeep, h⟩ := bind_eq_ok.mp h
        rcases ih _ _ h y hy with hacc | ⟨hmem, hp⟩
        · cases keep with
          | false => exact Or.inl hacc
          | true =>
              rcases List.mem_cons.mp hacc with rfl | hacc
              · exact Or.inr ⟨List.mem_cons_self, hkeep⟩
              · exact Or.inl hacc
        · exact Or.inr ⟨List.mem_cons_of_mem _ hmem, hp⟩
  unfold List.filterM at h
  obtain ⟨zs, hzs, h⟩ := bind_eq_ok.mp h
  obtain rfl := Except.ok.inj h
  exact (haux xs [] zs hzs y (List.mem_reverse.mp hy)).resolve_left List.not_mem_nil

/-- The governance does not look at the content. -/
theorem admits_content {governance : MemoryGovernance} {item : MemoryItem} (content : String) :
    Admits governance { item with content } ↔ Admits governance item := Iff.rfl

theorem strip_takeText_ne_empty {text : String} {n : ℕ} (hn : 1 ≤ n) (htext : strip text ≠ "") :
    strip (takeText n (strip text)) ≠ "" := by
  have hfirst := (strip_eq_self_iff.mp (strip_strip text)).1
  cases hlist : (strip text).toList with
  | nil => exact absurd (String.toList_eq_nil_iff.mp hlist) htext
  | cons c rest =>
      obtain ⟨m, rfl⟩ := Nat.exists_eq_add_of_le' hn
      have hc : isSpace c = false := hfirst c (by rw [hlist]; rfl)
      have htake : (takeText (m + 1) (strip text)).toList = c :: rest.take m := by
        unfold takeText
        rw [String.toList_ofList, hlist, List.take_succ_cons]
      intro hempty
      have hchars : stripChars (c :: rest.take m) = [] := by
        have htext := congrArg String.toList hempty
        change (String.ofList (stripChars (takeText (m + 1) (strip text)).toList)).toList = _
          at htext
        rwa [String.toList_ofList, htake] at htext
      unfold stripChars at hchars
      rw [List.dropWhile_cons_of_neg (by simp [hc]), List.reverse_eq_nil_iff,
        List.dropWhile_eq_nil_iff] at hchars
      simpa [hc] using hchars c (by simp)

theorem sanitize_eq_some {service : MemoryService} (hchars : 1 ≤ service.maxItemChars)
    {found item : MemoryItem} (h : service.sanitize found = some item) :
    strip item.content ≠ "" ∧ (item.content.length : ℤ) ≤ service.maxItemChars
      ∧ item = { found with
        content := takeText service.maxItemChars.toNat (strip found.content) } := by
  unfold MemoryService.sanitize at h
  dsimp only at h
  split at h
  · cases h
  · rename_i hne
    obtain rfl := Option.some.inj h
    have hslice : takeSlice service.maxItemChars (strip found.content).toList
        = (strip found.content).toList.take service.maxItemChars.toNat := if_pos (by omega)
    have hcontent : String.ofList (takeSlice service.maxItemChars (strip found.content).toList)
        = takeText service.maxItemChars.toNat (strip found.content) := by
      rw [hslice]
      rfl
    dsimp only
    rw [hcontent]
    refine ⟨strip_takeText_ne_empty (by omega) hne, ?_, rfl⟩
    have hlength : (takeText service.maxItemChars.toNat (strip found.content)).length
        ≤ service.maxItemChars.toNat := by
      unfold takeText
      rw [String.length_ofList]
      exact List.length_take_le _ _
    omega

/-- `rank_memory_items` ranks what it is given, and a recall with the limits that the settings
allow returns at most as many items as asked for, cleaned and admitted. The sort is stable and
its key is a total order, so equal items stay in the order of the provider. -/
theorem memories_ranked (service : MemoryService) :
    (∀ query items, memoryTerms service.lower query ≠ [] →
        RankedItems service query items (rankMemoryItems service query items))
      ∧ ∀ found query governance, 1 ≤ service.recallLimit → 1 ≤ service.maxItemChars →
          ((service.recallFrom found query governance).length : ℤ) ≤ service.recallLimit
            ∧ ∀ item ∈ service.recallFrom found query governance, ∃ items, found = some items
              ∧ RecalledItem service items governance item := by
  refine ⟨fun query items => rankedItems items, fun found query governance hlimit hchars => ?_⟩
  have hnothing : (([] : List MemoryItem).length : ℤ) ≤ service.recallLimit
      ∧ ∀ item ∈ ([] : List MemoryItem), ∃ items, found = some items
        ∧ RecalledItem service items governance item :=
    ⟨by simp; omega, fun item hmem => absurd hmem List.not_mem_nil⟩
  unfold MemoryService.recallFrom
  split
  · exact hnothing
  · split
    · exact hnothing
    · rename_i items
      dsimp only
      split
      · exact hnothing
      · rename_i admitted hadmitted
        have hsource : ∀ item ∈ admitted, item ∈ items
            ∧ ∀ g, governance = some g → Admits g item := by
          intro item hmem
          cases governance with
          | none =>
              obtain rfl := Except.ok.inj hadmitted
              exact ⟨hmem, fun g hg => by cases hg⟩
          | some governance =>
              obtain ⟨hitem, hadmits⟩ := mem_of_filterM_eq_ok hadmitted hmem
              exact ⟨hitem, fun g hg => Option.some.inj hg ▸ hadmits⟩
        have hslice : takeSlice service.recallLimit (rankMemoryItems service query admitted)
            = (rankMemoryItems service query admitted).take service.recallLimit.toNat :=
          if_pos (by omega)
        rw [hslice]
        constructor
        · have hlength := (List.length_filterMap_le service.sanitize _).trans
            (List.length_take_le service.recallLimit.toNat (rankMemoryItems service query admitted))
          omega
        · intro item hmem
          obtain ⟨found, hfound, hitem⟩ := List.mem_filterMap.mp hmem
          have hranked : found ∈ admitted := by
            have hmem := List.mem_of_mem_take hfound
            unfold rankMemoryItems at hmem
            dsimp only at hmem
            split at hmem
            · exact hmem
            · exact (List.mem_insertionSort _).mp hmem
          obtain ⟨hmember, hadmits⟩ := hsource found hranked
          obtain ⟨hblank, hlength, heq⟩ := sanitize_eq_some hchars hitem
          refine ⟨items, rfl, hblank, hlength, fun g hg => ?_, found, hmember, heq⟩
          rw [heq, admits_content]
          exact hadmits g hg

/-- Texts in lower case, and the two floats of the items below. -/
def rankingService : MemoryService where
  floats := ⟨id, fun _ => "0.0"⟩
  toFloat := fun
    | .float "0.5" => some (1 / 2)
    | .float "1.0" => some 1
    | _ => none
  lower := id

def languageMemories : List MemoryItem :=
  [{ memoryId := "2", memoryType := "semantic", key := "timezone", content := "asia/tokyo"
     metadata := [("importance", .float "1.0"), ("confidence", .float "1.0")] },
    { memoryId := "1", memoryType := "semantic", key := "preferred_language", content := " python "
      metadata := [("importance", .float "0.5"), ("confidence", .float "1.0")] }]

theorem memories_ranked_python :
    RankedItems rankingService "请用 python 写代码" languageMemories
        (rankMemoryItems rankingService "请用 python 写代码" languageMemories)
      ∧ ((rankingService.recallFrom (some languageMemories) "请用 python 写代码" none).length : ℤ)
        ≤ 8 := by
  obtain ⟨hranked, hrecalled⟩ := memories_ranked rankingService
  exact ⟨hranked _ _ (by decide), (hrecalled _ _ _ (by decide) (by decide)).1⟩

example : (rankingService.recallFrom (some languageMemories) "请用 python 写代码" none).map
    (fun item => (item.key, item.content))
      = [("preferred_language", "python"), ("timezone", "asia/tokyo")] := by
  decide +kernel

end Aegora
