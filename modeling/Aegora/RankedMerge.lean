import Aegora.AgentLoop
import Aegora.Grouping

/-!
# The merged results of several searches

`merge_ranked_results` reads the results of all queries rank by rank and keeps
an item for each key, with the queries whose results have it. The loop is a
grouping by keys (`mergeRankedItem_eq`), so what it returns is read off
`Grouping.group`.
-/

namespace Aegora

open Py

/-! ## Round-robin order -/

/-- `dict(items[rank])` for every rank and query, each with its rank and the number of its query. -/
def placedItems (faqs : List (String × List Json)) : List ((ℕ × ℕ) × (String × Json)) :=
  (List.range ((faqs.map fun qs => qs.2.length).foldl max 0)).flatMap fun rank =>
    faqs.zipIdx.filterMap fun place =>
      (place.1.2[rank]?).map fun item => ((rank, place.2), (place.1.1, item))

theorem placedItems_snd (faqs : List (String × List Json)) :
    (placedItems faqs).map Prod.snd
      = (List.range ((faqs.map fun qs => qs.2.length).foldl max 0)).flatMap fun rank =>
          faqs.filterMap fun qs => (qs.2[rank]?).map fun item => (qs.1, item) := by
  unfold placedItems
  rw [List.map_flatMap]
  refine congrArg (List.flatMap · _) (funext fun rank => ?_)
  conv_rhs => rw [← List.zipIdx_map_fst 0 faqs]
  rw [List.map_filterMap, List.filterMap_map]
  refine List.filterMap_congr fun place _ => ?_
  simp only [Option.map_map, Function.comp_def]

theorem length_le_longest {faqs : List (String × List Json)} {qs : String × List Json}
    (h : qs ∈ faqs) : qs.2.length ≤ (faqs.map fun qs => qs.2.length).foldl max 0 := by
  have hle : ∀ (lengths : List ℕ) (start n : ℕ), n = start ∨ n ∈ lengths →
      n ≤ lengths.foldl max start := by
    intro lengths
    induction lengths with
    | nil =>
        rintro start n (rfl | h)
        · exact le_rfl
        · exact absurd h List.not_mem_nil
    | cons length lengths ih =>
        rintro start n (rfl | h)
        · exact (le_max_left n length).trans (ih _ _ (Or.inl rfl))
        · rcases List.mem_cons.mp h with rfl | h
          · exact (le_max_right start n).trans (ih _ _ (Or.inl rfl))
          · exact ih _ _ (Or.inr h)
  exact hle _ _ _ (Or.inr (List.mem_map_of_mem h))

/-- The item of a query at a rank is read at that place. -/
theorem mem_placedItems {faqs : List (String × List Json)} {rank j : ℕ} {query : String}
    {item : Json} : ((rank, j), (query, item)) ∈ placedItems faqs
      ↔ ∃ items, faqs[j]? = some (query, items) ∧ items[rank]? = some item := by
  unfold placedItems
  simp only [List.mem_flatMap, List.mem_range, List.mem_filterMap, Option.map_eq_some_iff,
    Prod.exists, Prod.mk.injEq, List.mk_mem_zipIdx_iff_getElem?]
  constructor
  · rintro ⟨_, -, _, items, _, hplace, _, hitem, ⟨rfl, rfl⟩, rfl, rfl⟩
    exact ⟨items, hplace, hitem⟩
  · rintro ⟨items, hplace, hitem⟩
    have hrank : rank < items.length := (List.getElem?_eq_some_iff.mp hitem).1
    exact ⟨rank, hrank.trans_le (length_le_longest (List.mem_of_getElem? hplace)), query, items, j,
      hplace, item, hitem, ⟨rfl, rfl⟩, rfl, rfl⟩

/-- Rank before query. -/
def PlaceLt (a b : ℕ × ℕ) : Prop := a.1 < b.1 ∨ (a.1 = b.1 ∧ a.2 < b.2)

theorem pairwise_zipIdx {α : Type*} (xs : List α) : xs.zipIdx.Pairwise fun a b => a.2 < b.2 := by
  have hnumbers : (xs.zipIdx.map Prod.snd).Pairwise (· < ·) := by
    rw [List.zipIdx_map_snd]
    exact List.pairwise_lt_range'
  exact List.pairwise_map.mp hnumbers

theorem pairwise_placedItems (faqs : List (String × List Json)) :
    (placedItems faqs).Pairwise fun a b => PlaceLt a.1 b.1 := by
  unfold placedItems
  refine List.pairwise_flatMap.mpr ⟨fun rank _ => ?_, ?_⟩
  · refine List.pairwise_filterMap.mpr ((pairwise_zipIdx faqs).imp fun {p q} hpq => ?_)
    rintro a ha b hb
    obtain ⟨-, -, rfl⟩ := Option.map_eq_some_iff.mp ha
    obtain ⟨-, -, rfl⟩ := Option.map_eq_some_iff.mp hb
    exact Or.inr ⟨rfl, hpq⟩
  · refine (List.pairwise_lt_range).imp fun {rank rank'} hlt => ?_
    intro a ha b hb
    obtain ⟨place, -, hplace⟩ := List.mem_filterMap.mp ha
    obtain ⟨other, -, hother⟩ := List.mem_filterMap.mp hb
    obtain ⟨-, -, rfl⟩ := Option.map_eq_some_iff.mp hplace
    obtain ⟨-, -, rfl⟩ := Option.map_eq_some_iff.mp hother
    exact Or.inl hlt

/-! ## The loop as a grouping -/

/-- The item that a key is kept with. -/
def updateRanked : Option ScalarDict → String × ScalarDict → ScalarDict
  | none, (query, item) =>
      item.set (.str "matched_queries") (.arr (if query ≠ "" then [.str query] else []))
  | some existing, (query, _) => addMatched query existing

/-- A result that `dict` takes and that has a key. -/
def keyedItem (ranked : String × Json) : Except Exc (FaqKey × (String × ScalarDict)) := do
  let item ← pyDict ranked.2
  let key ← faqKey item
  return (key, (ranked.1, item))

theorem mergeRankedItem_eq (merged : List (FaqKey × ScalarDict)) (ranked : String × Json) :
    mergeRankedItem merged ranked = (keyedItem ranked).map (Grouping.put updateRanked merged) := by
  obtain ⟨query, item⟩ := ranked
  change (pyDict item >>= _) = Except.map _ (pyDict item >>= _)
  cases pyDict item with
  | error e => rfl
  | ok entries =>
      change (faqKey entries >>= _) = Except.map _ (faqKey entries >>= _)
      cases faqKey entries with
      | error e => rfl
      | ok key =>
          change (if key ∈ merged.map Prod.fst then Except.ok _ else Except.ok _)
            = Except.ok (Grouping.put updateRanked merged (key, (query, entries)))
          unfold Grouping.put updateRanked
          split <;> rfl

/-- The rounds of `merge_ranked_results`, with the keys of the items. -/
theorem mergeRankedResults_eq (faqs : List (String × List Json)) :
    mergeRankedResults faqs
      = (((placedItems faqs).map Prod.snd).mapM keyedItem).map fun items =>
          (Grouping.group updateRanked items).map Prod.snd := by
  have hstep : mergeRankedItem = fun merged ranked =>
      (keyedItem ranked).map (Grouping.put updateRanked merged) :=
    funext fun merged => funext fun ranked => mergeRankedItem_eq merged ranked
  unfold mergeRankedResults
  dsimp only
  rw [← placedItems_snd, hstep, Grouping.foldlM_put]
  cases ((placedItems faqs).map Prod.snd).mapM keyedItem <;> rfl

/-- A result is read as a dictionary and kept under a key. -/
def ReadAs (item : Json) (entries : ScalarDict) (key : FaqKey) : Prop :=
  pyDict item = .ok entries ∧ faqKey entries = .ok key

theorem ReadAs.key_unique {item : Json} {entries entries' : ScalarDict} {a b : FaqKey}
    (ha : ReadAs item entries a) (hb : ReadAs item entries' b) : a = b := by
  obtain rfl := Except.ok.inj (ha.1.symm.trans hb.1)
  exact Except.ok.inj (ha.2.symm.trans hb.2)

theorem keyedItem_eq_ok {query : String} {item : Json}
    {keyed : FaqKey × (String × ScalarDict)} :
    keyedItem (query, item) = .ok keyed
      ↔ ∃ entries key, ReadAs item entries key ∧ keyed = (key, (query, entries)) := by
  constructor
  · intro h
    obtain ⟨entries, hentries, h⟩ := bind_eq_ok.mp h
    obtain ⟨key, hkey, h⟩ := bind_eq_ok.mp h
    exact ⟨entries, key, ⟨hentries, hkey⟩, (Except.ok.inj h).symm⟩
  · rintro ⟨entries, key, ⟨hentries, hkey⟩, rfl⟩
    exact bind_eq_ok.mpr ⟨entries, hentries, bind_eq_ok.mpr ⟨key, hkey, rfl⟩⟩

/-! ## What is kept -/

/-- The queries of the items without blanks and repetitions. -/
def distinctQueries (items : List (String × ScalarDict)) : List String :=
  ((items.map Prod.fst).filter (· ≠ "")).eraseDups

theorem distinctQueries_concat (items : List (String × ScalarDict)) (query : String)
    (entries : ScalarDict) :
    distinctQueries (items ++ [(query, entries)])
      = if query ≠ "" ∧ query ∉ distinctQueries items then distinctQueries items ++ [query]
        else distinctQueries items := by
  unfold distinctQueries
  rw [List.map_append, List.filter_append, List.map_singleton]
  by_cases hquery : query = ""
  · simp [hquery]
  · have hkeep : [query].filter (· ≠ "") = [query] := by simp [hquery]
    rw [hkeep, Grouping.eraseDups_concat]
    by_cases hmem : query ∈ (items.map Prod.fst).filter (· ≠ "")
    · rw [if_pos hmem, if_neg fun h => h.2 (List.mem_eraseDups.mpr hmem)]
    · rw [if_neg hmem, if_pos ⟨hquery, fun h => hmem (List.mem_eraseDups.mp h)⟩]

theorem faqKey_set (item : ScalarDict) (queries : Json) :
    faqKey (item.set (.str "matched_queries") queries) = faqKey item := by
  unfold faqKey
  simp only [ScalarDict.get_set, if_neg (show "faq_id" ≠ "matched_queries" by decide),
    if_neg (show "title" ≠ "matched_queries" by decide),
    if_neg (show "response" ≠ "matched_queries" by decide)]

/-- An item is kept as it came first, with the queries of all its occurrences. -/
theorem gather_updateRanked (first : String × ScalarDict)
    (rest : List (String × ScalarDict)) :
    Grouping.gather updateRanked (first :: rest)
      = some (first.2.set (.str "matched_queries")
          (.arr ((distinctQueries (first :: rest)).map .str))) := by
  induction rest using List.reverseRecOn with
  | nil =>
      have hqueries : distinctQueries [first] = if first.1 ≠ "" then [first.1] else [] := by
        unfold distinctQueries
        by_cases h : first.1 = "" <;> simp [h, List.eraseDups_cons]
      rw [hqueries]
      unfold Grouping.gather updateRanked
      by_cases h : first.1 = "" <;> simp [h]
  | append_singleton rest item ih =>
      obtain ⟨query, entries⟩ := item
      rw [← List.cons_append, Grouping.gather_concat, ih, distinctQueries_concat]
      refine congrArg some ?_
      change addMatched query _ = _
      unfold addMatched
      rw [ScalarDict.get_set, if_pos rfl]
      have hmatched : ∀ queries : List String,
          ((Json.arr (queries.map .str)).asList?).getD [] = queries.map .str := fun _ => rfl
      have hmem : ∀ queries : List String, Json.str query ∉ queries.map .str ↔ query ∉ queries :=
        fun queries => by simp
      dsimp only
      rw [hmatched, ScalarDict.set_set]
      simp only [hmem]
      split <;> simp

/-- Whether an item with the key is in the results. -/
def HasKey (items : List Json) (key : FaqKey) : Prop :=
  ∃ item ∈ items, ∃ entries, ReadAs item entries key

/-- The key is read at the rank of the query with this number. -/
def OccursAt (faqs : List (String × List Json)) (key : FaqKey) (place : ℕ × ℕ) : Prop :=
  ∃ query items item entries, faqs[place.2]? = some (query, items)
    ∧ items[place.1]? = some item ∧ ReadAs item entries key

/-- Some occurrence of `a` comes before every occurrence of `b`. -/
def FirstBefore (faqs : List (String × List Json)) (a b : FaqKey) : Prop :=
  ∃ place, OccursAt faqs a place ∧ ∀ other, OccursAt faqs b other → PlaceLt place other

/-- The results of all queries, merged. -/
structure MergedRanked (faqs : List (String × List Json))
    (merged : List (FaqKey × ScalarDict)) : Prop where
  keys : ∀ entry ∈ merged, faqKey entry.2 = .ok entry.1
  once : (merged.map Prod.fst).Nodup
  complete : ∀ key, key ∈ merged.map Prod.fst ↔ ∃ qs ∈ faqs, HasKey qs.2 key
  ordered : (merged.map Prod.fst).Pairwise (FirstBefore faqs)
  matched : ∀ entry ∈ merged, ∃ queries : List String,
    entry.2.get "matched_queries" = .arr (queries.map .str) ∧ queries.Nodup
      ∧ ∀ query, query ∈ queries
          ↔ query ≠ "" ∧ ∃ items, (query, items) ∈ faqs ∧ HasKey items entry.1

section

variable {faqs : List (String × List Json)} {items : List (FaqKey × (String × ScalarDict))}

theorem mem_distinctQueries {rows : List (String × ScalarDict)} {query : String} :
    query ∈ distinctQueries rows ↔ query ≠ "" ∧ ∃ entries, (query, entries) ∈ rows := by
  unfold distinctQueries
  simp [and_comm]

variable (h : ((placedItems faqs).map Prod.snd).mapM keyedItem = .ok items)

include h

theorem mem_keyedItems {key : FaqKey} {query : String} {entries : ScalarDict} :
    (key, (query, entries)) ∈ items
      ↔ ∃ results, (query, results) ∈ faqs ∧ ∃ item ∈ results, ReadAs item entries key := by
  constructor
  · intro hmem
    obtain ⟨row, hrow, hitem⟩ := mem_of_mapM_eq_ok h hmem
    obtain ⟨⟨⟨rank, j⟩, ⟨query', item⟩⟩, hplaced, rfl⟩ := List.mem_map.mp hrow
    obtain ⟨results, hquery, hrank⟩ := mem_placedItems.mp hplaced
    obtain ⟨_, _, hread, heq⟩ := keyedItem_eq_ok.mp hitem
    obtain ⟨rfl, hrest⟩ := Prod.mk.inj heq
    obtain ⟨rfl, rfl⟩ := Prod.mk.inj hrest
    exact ⟨results, List.mem_of_getElem? hquery, item, List.mem_of_getElem? hrank, hread⟩
  · rintro ⟨results, hquery, item, hitem, hread⟩
    obtain ⟨j, hj⟩ := List.mem_iff_getElem?.mp hquery
    obtain ⟨rank, hrank⟩ := List.mem_iff_getElem?.mp hitem
    obtain ⟨keyed, hkeyed, hok⟩ := mapM_eq_ok_mem h
      (List.mem_map_of_mem (mem_placedItems.mpr ⟨results, hj, hrank⟩))
    obtain rfl := Except.ok.inj (hok.symm.trans (keyedItem_eq_ok.mpr ⟨_, _, hread, rfl⟩))
    exact hkeyed

/-- A key that comes before another in the list comes before it in the rounds. -/
theorem firstBefore_of_before {a b : FaqKey}
    (hbefore : Grouping.Before (items.map Prod.fst) a b) : FirstBefore faqs a b := by
  rw [mapM_eq_ok, List.forall₂_map_left_iff, List.forall₂_iff_zip] at h
  obtain ⟨hlength, hread⟩ := h
  set pairs := (placedItems faqs).zip items with hpairs
  have hplaced : pairs.map Prod.fst = placedItems faqs := List.map_fst_zip hlength.le
  have hitems : pairs.map (fun p => p.2.1) = items.map Prod.fst := by
    rw [← List.map_snd_zip hlength.ge, List.map_map]
    rfl
  have hkey : ∀ place query item key, ((place, (query, item)), key) ∈ pairs →
      ∃ entries, ReadAs item entries key.1 := by
    intro place query item key hmem
    obtain ⟨entries, _, hfound, rfl⟩ := keyedItem_eq_ok.mp (hread hmem)
    exact ⟨entries, hfound⟩
  obtain ⟨front, rest, hmap, hb⟩ := hbefore
  rw [← hitems] at hmap
  obtain ⟨frontPairs, others, hsplit, rfl, hothers⟩ := List.map_eq_append_iff.mp hmap
  obtain ⟨⟨⟨place, query, item⟩, keyed⟩, restPairs, rfl, rfl, -⟩ :=
    List.map_eq_cons_iff.mp hothers
  have hmem : ((place, (query, item)), keyed) ∈ pairs := by
    rw [hsplit]
    exact List.mem_append_right _ List.mem_cons_self
  obtain ⟨entries, hfound⟩ := hkey _ _ _ _ hmem
  have hat : (place, (query, item)) ∈ placedItems faqs := by
    rw [← hplaced]
    exact List.mem_map_of_mem hmem
  obtain ⟨results, hquery, hrank⟩ := mem_placedItems.mp hat
  refine ⟨place, ⟨query, results, item, entries, hquery, hrank, hfound⟩, ?_⟩
  rintro other ⟨query', results', item', entries', hquery', hrank', hkey'⟩
  have hother : (other, (query', item')) ∈ pairs.map Prod.fst := by
    rw [hplaced]
    exact mem_placedItems.mpr ⟨results', hquery', hrank'⟩
  obtain ⟨⟨_, keyed'⟩, hpair, rfl⟩ := List.mem_map.mp hother
  obtain ⟨_, hfound'⟩ := hkey _ _ _ _ hpair
  have hb' : keyed'.1 = b := hfound'.key_unique hkey'
  have hsorted := pairwise_placedItems faqs
  rw [← hplaced, List.pairwise_map, hsplit] at hsorted
  rw [hsplit] at hpair
  rcases List.mem_append.mp hpair with hpair | hpair
  · refine absurd (List.mem_append_left _ ?_) hb
    exact List.mem_map.mpr ⟨_, hpair, hb'⟩
  · rcases List.mem_cons.mp hpair with heq | hpair
    · obtain ⟨-, rfl⟩ := Prod.mk.inj heq
      exact absurd (List.mem_append_right _ (List.mem_singleton.mpr hb'.symm)) hb
    · exact (List.pairwise_cons.mp (List.pairwise_append.mp hsorted).2.1).1 _ hpair

/-- An entry is the first item of its key, with the queries of all of them. -/
theorem mergedRanked_group : MergedRanked faqs (Grouping.group updateRanked items) := by
  have hentry : ∀ entry ∈ Grouping.group updateRanked items,
      ∃ first rest, Grouping.itemsAt items entry.1 = first :: rest
        ∧ entry.2 = first.2.set (.str "matched_queries")
            (.arr ((distinctQueries (first :: rest)).map .str)) := by
    rintro ⟨key, item⟩ hmem
    have hgather := (Grouping.mem_group_iff updateRanked).mp hmem
    cases hrows : Grouping.itemsAt items key with
    | nil =>
        rw [hrows] at hgather
        cases hgather
    | cons first rest =>
        rw [hrows, gather_updateRanked] at hgather
        exact ⟨first, rest, rfl, (Option.some.inj hgather).symm⟩
  have hkeys := Grouping.keys_group updateRanked items
  have hat : ∀ key (row : String × ScalarDict), row ∈ Grouping.itemsAt items key
      ↔ ∃ results, (row.1, results) ∈ faqs ∧ ∃ item ∈ results, ReadAs item row.2 key := by
    intro key row
    rw [Grouping.mem_itemsAt, mem_keyedItems h]
  constructor
  case keys =>
    intro entry hmem
    obtain ⟨first, rest, hrows, hitem⟩ := hentry entry hmem
    obtain ⟨_, _, _, _, hread⟩ := (hat entry.1 first).mp (by rw [hrows]; exact List.mem_cons_self)
    rw [hitem, faqKey_set, hread.2]
  case once =>
    rw [hkeys]
    exact Grouping.nodup_eraseDups _
  case complete =>
    intro key
    rw [hkeys, List.mem_eraseDups, List.mem_map]
    constructor
    · rintro ⟨⟨_, query, entries⟩, hmem, rfl⟩
      obtain ⟨results, hresults, item, hitem, hread⟩ := (mem_keyedItems h).mp hmem
      exact ⟨_, hresults, item, hitem, entries, hread⟩
    · rintro ⟨⟨query, results⟩, hresults, item, hitem, entries, hread⟩
      exact ⟨_, (mem_keyedItems h).mpr ⟨results, hresults, item, hitem, hread⟩, rfl⟩
  case ordered =>
    rw [hkeys]
    exact (Grouping.pairwise_eraseDups _).imp fun hbefore => firstBefore_of_before h hbefore
  case matched =>
    intro entry hmem
    obtain ⟨first, rest, hrows, hitem⟩ := hentry entry hmem
    refine ⟨distinctQueries (first :: rest), ?_, Grouping.nodup_eraseDups _, fun query => ?_⟩
    · rw [hitem, ScalarDict.get_set, if_pos rfl]
    · rw [mem_distinctQueries, ← hrows]
      refine and_congr_right fun _ => ?_
      simp only [hat]
      constructor
      · rintro ⟨entries, results, hresults, item, hfound, hread⟩
        exact ⟨results, hresults, item, hfound, entries, hread⟩
      · rintro ⟨results, hresults, item, hfound, entries, hread⟩
        exact ⟨entries, results, hresults, item, hfound, hread⟩

end

/-- `merge_ranked_results` returns whenever `dict` takes every result and its key is
hashable, and returns each key once, in round-robin order, with the queries it
matched. -/
theorem ranked_results_merged (faqs : List (String × List Json)) :
    ((∃ merged, mergeRankedResults faqs = .ok merged)
        ↔ ∀ qs ∈ faqs, ∀ item ∈ qs.2, ∃ entries key, ReadAs item entries key)
      ∧ ∀ merged, mergeRankedResults faqs = .ok merged →
          ∃ entries : List (FaqKey × ScalarDict), merged = entries.map Prod.snd
            ∧ MergedRanked faqs entries := by
  rw [mergeRankedResults_eq]
  refine ⟨⟨?_, fun hitems => ?_⟩, fun merged hmerged => ?_⟩
  · rintro ⟨merged, hmerged⟩ ⟨query, results⟩ hresults item hitem
    obtain ⟨items, hread, -⟩ := map_eq_ok.mp hmerged
    obtain ⟨j, hj⟩ := List.mem_iff_getElem?.mp hresults
    obtain ⟨rank, hrank⟩ := List.mem_iff_getElem?.mp hitem
    obtain ⟨keyed, -, hok⟩ := mapM_eq_ok_mem hread
      (List.mem_map_of_mem (mem_placedItems.mpr ⟨results, hj, hrank⟩))
    obtain ⟨entries, key, hkey, -⟩ := keyedItem_eq_ok.mp hok
    exact ⟨entries, key, hkey⟩
  · obtain ⟨items, hread⟩ := @exists_mapM_eq_ok _ _ _ keyedItem
      ((placedItems faqs).map Prod.snd) fun row hrow => by
        obtain ⟨⟨⟨rank, j⟩, ⟨query, item⟩⟩, hplaced, rfl⟩ := List.mem_map.mp hrow
        obtain ⟨results, hquery, hrank⟩ := mem_placedItems.mp hplaced
        obtain ⟨entries, key, hkey⟩ := hitems _ (List.mem_of_getElem? hquery) item
          (List.mem_of_getElem? hrank)
        exact ⟨_, keyedItem_eq_ok.mpr ⟨entries, key, hkey, rfl⟩⟩
    exact ⟨_, map_eq_ok.mpr ⟨items, hread, rfl⟩⟩
  · obtain ⟨items, hread, rfl⟩ := map_eq_ok.mp hmerged
    exact ⟨_, rfl, mergedRanked_group hread⟩

/-- Two questions with a faq in common, which the second search gives as a list of pairs. -/
example : mergeRankedResults
    [("refund", [.obj [("faq_id", .int 1)], .obj [("faq_id", .int 2)]]),
      ("returns", [.arr [.arr [.str "faq_id", .int 2]]])]
    = .ok [[(.str "faq_id", .int 1), (.str "matched_queries", .arr [.str "refund"])],
        [(.str "faq_id", .int 2),
          (.str "matched_queries", .arr [.str "returns", .str "refund"])]] := by
  decide

end Aegora
