import Aegora.Grouping
import Aegora.OrderedQuery
import Aegora.PyJson
import Mathlib.Algebra.BigOperators.Group.List.Basic
import Mathlib.Algebra.Order.Field.Rat
import Mathlib.Data.Prod.Lex
import Mathlib.Order.WithBot
import Mathlib.Tactic.Linarith
import Mathlib.Tactic.Positivity

/-!
# Reciprocal rank fusion

`reciprocal_rank_fusion` adds up `1 / (rrf_k + rank)` over the rankings that list
a FAQ and orders the FAQs by that sum. The loop is a grouping by FAQ ids; its
entries are what `rrfScore` and `rankOf` say of the rankings as sets of ranks
(`Fused`), which the order of the sources does not change.

Scores are rational numbers. The scores of the rows are only passed through.
-/

namespace Aegora

open Py

/-! ## Fusing ranked lists -/

inductive FusionExc where
  | valueError (text : String)
  /-- `int(…)`, `float(…)` or a missing column, by the exception's name. -/
  | row (typeName : String)
deriving DecidableEq, Repr

/-- An entry of `fused`: the row that came first, under the fields written over it. -/
structure FusedFaq (φ : Type) where
  result : Dict
  faqId : ℤ
  score : ℚ
  sourceRanks : List (String × ℕ)
  sourceScores : List (String × φ)

/-- A row of a ranking, as the loop reads it. -/
structure RankedRow (φ : Type) where
  source : String
  rank : ℕ
  result : Dict
  faqId : ℤ
  score : φ

/-- `result[column]`, converted. -/
def column {α : Type} (convert : Json → Except String α) (result : Dict) (name : String) :
    Except FusionExc α :=
  match Dict.get? result name with
  | none => .error (.row "KeyError")
  | some x => (convert x).mapError .row

section

variable {φ : Type} (float : Json → Except String φ)

/-- `int(result["faq_id"])` and `float(result["score"])`. -/
def readRow (source : String) (ranked : Dict × ℕ) : Except FusionExc (ℤ × RankedRow φ) := do
  let (result, rank) := ranked
  let faqId ← column Json.pyInt result "faq_id"
  let score ← column float result "score"
  return (faqId, { source, rank, result, faqId, score })

/-- `fused.setdefault(faq_id, …)`, and what is written to the entry. -/
def addRank (rrfK : ℤ) (item : Option (FusedFaq φ)) (row : RankedRow φ) : FusedFaq φ :=
  let item := item.getD
    { result := row.result, faqId := row.faqId, score := 0, sourceRanks := [], sourceScores := [] }
  { item with
    score := item.score + 1 / ((rrfK : ℚ) + row.rank)
    sourceRanks := Dict.set item.sourceRanks row.source row.rank
    sourceScores := Dict.set item.sourceScores row.source row.score }

/-- The sort key; `float("inf")` is `⊤`. -/
def FusedFaq.sortKey (tieBreakSource : Option String) (item : FusedFaq φ) :
    ℚ ×ₗ WithTop ℕ ×ₗ ℕ ×ₗ ℤ :=
  toLex (-item.score,
    toLex (((tieBreakSource.bind (Dict.get? item.sourceRanks)).elim ⊤ fun rank => rank),
      toLex ((item.sourceRanks.map Prod.snd).min?.getD 0, item.faqId)))

/-- `reciprocal_rank_fusion` -/
def reciprocalRankFusion (rankings : List (String × List Dict)) (topK rrfK : ℤ)
    (tieBreakSource : Option String) : Except FusionExc (List (FusedFaq φ)) := do
  if topK ≤ 0 then throw (.valueError "top_k must be greater than 0")
  if rrfK ≤ 0 then throw (.valueError "rrf_k must be greater than 0")
  let fused ← rankings.foldlM (fun fused ranking =>
    (ranking.2.zipIdx 1).foldlM (fun fused ranked =>
      (readRow float ranking.1 ranked).map (Grouping.put (addRank rrfK) fused)) fused) []
  let ordered := (fused.map Prod.snd).insertionSort fun a b =>
    a.sortKey tieBreakSource ≤ b.sortKey tieBreakSource
  return ordered.take topK.toNat

end

/-! ## What is fused -/

/-- The rank of a FAQ in a ranking. -/
def rankIn (faqIds : List ℤ) (faqId : ℤ) : Option ℕ := (faqIds.idxOf? faqId).map (· + 1)

section

variable (rrfK : ℤ) (tieBreakSource : Option String) (lists : List (String × List ℤ))

def rankOf (source : String) (faqId : ℤ) : Option ℕ :=
  (Dict.get? lists source).bind (rankIn · faqId)

/-- The ranks of a FAQ in all rankings that list it. -/
def ranks (faqId : ℤ) : List ℕ := lists.filterMap fun list => rankIn list.2 faqId

def rrfScore (faqId : ℤ) : ℚ :=
  ((ranks lists faqId).map fun rank : ℕ => 1 / ((rrfK : ℚ) + rank)).sum

/-- Score, rank in the tie-break source, best rank, id. -/
def fusionKey (faqId : ℤ) : ℚ ×ₗ WithTop ℕ ×ₗ ℕ ×ₗ ℤ :=
  toLex (-rrfScore rrfK lists faqId,
    toLex (((tieBreakSource.bind fun source => rankOf lists source faqId).elim ⊤ fun rank => rank),
      toLex ((ranks lists faqId).min?.getD 0, faqId)))

end

/-! ## The rows of a ranking -/

/-- The FAQ of a row whose id can be read. -/
def faqOf (row : Dict) : ℤ :=
  match column Json.pyInt row "faq_id" with
  | .ok faqId => faqId
  | .error _ => 0

def faqLists (rankings : List (String × List Dict)) : List (String × List ℤ) :=
  rankings.map fun ranking => (ranking.1, ranking.2.map faqOf)

/-- The ids and the scores of all rows can be read. -/
def Readable {φ : Type} (float : Json → Except String φ) (rankings : List (String × List Dict)) :
    Prop :=
  ∀ ranking ∈ rankings, ∀ row ∈ ranking.2,
    (∃ faqId, column Json.pyInt row "faq_id" = .ok faqId)
      ∧ ∃ score, column float row "score" = .ok score

/-- The rows of all rankings, each with its source and its rank. -/
def flatRows (rankings : List (String × List Dict)) : List (String × (Dict × ℕ)) :=
  rankings.flatMap fun ranking => (ranking.2.zipIdx 1).map fun ranked => (ranking.1, ranked)

section

variable {φ : Type} {float : Json → Except String φ} {rankings : List (String × List Dict)}
  {topK rrfK : ℤ} {tieBreakSource : Option String}

theorem mem_flatRows {source : String} {row : Dict} :
    (∃ rank, (source, (row, rank)) ∈ flatRows rankings)
      ↔ ∃ rows, (source, rows) ∈ rankings ∧ row ∈ rows := by
  unfold flatRows
  simp only [List.mem_flatMap, List.mem_map, Prod.mk.injEq, Prod.exists]
  constructor
  · rintro ⟨rank, source', rows, hrows, row', rank', hrow, rfl, rfl, rfl⟩
    exact ⟨rows, hrows, (List.mem_zipIdx hrow).2.2 ▸ List.getElem_mem _⟩
  · rintro ⟨rows, hrows, hrow⟩
    obtain ⟨i, hi, rfl⟩ := List.getElem_of_mem hrow
    refine ⟨1 + i, source, rows, hrows, rows[i], 1 + i, ?_, rfl, rfl, rfl⟩
    exact List.mk_add_mem_zipIdx_iff_getElem?.mpr (List.getElem?_eq_getElem hi)

/-- The two loops are one loop over all rows. -/
theorem reciprocalRankFusion_eq (htop : 1 ≤ topK) (hrrf : 1 ≤ rrfK) :
    reciprocalRankFusion float rankings topK rrfK tieBreakSource
      = ((flatRows rankings).mapM fun row => readRow float row.1 row.2).map fun items =>
          (((Grouping.group (addRank rrfK) items).map Prod.snd).insertionSort fun a b =>
            a.sortKey tieBreakSource ≤ b.sortKey tieBreakSource).take topK.toNat := by
  have hloop : ∀ fused, rankings.foldlM (fun fused ranking =>
      (ranking.2.zipIdx 1).foldlM (fun fused ranked =>
        (readRow float ranking.1 ranked).map (Grouping.put (addRank rrfK) fused)) fused) fused
      = (flatRows rankings).foldlM (fun fused row =>
          (readRow float row.1 row.2).map (Grouping.put (addRank rrfK) fused)) fused := by
    induction rankings with
    | nil => exact fun fused => rfl
    | cons ranking rankings ih =>
        intro fused
        have hsplit : flatRows (ranking :: rankings)
            = ((ranking.2.zipIdx 1).map fun ranked => (ranking.1, ranked))
              ++ flatRows rankings := List.flatMap_cons
        rw [hsplit, List.foldlM_append, List.foldlM_map, List.foldlM_cons]
        exact congrArg _ (funext ih)
  unfold reciprocalRankFusion
  rw [if_neg (by omega), if_neg (by omega)]
  dsimp only [pure_bind]
  rw [hloop, Grouping.foldlM_put]
  cases (flatRows rankings).mapM fun row => readRow float row.1 row.2 <;> rfl

theorem readRow_eq_ok {source : String} {row : Dict} {rank : ℕ} {item : ℤ × RankedRow φ} :
    readRow float source (row, rank) = .ok item
      ↔ ∃ faqId score, column Json.pyInt row "faq_id" = .ok faqId
          ∧ column float row "score" = .ok score
          ∧ item = (faqId, { source, rank, result := row, faqId, score }) := by
  unfold readRow
  rw [bind_eq_ok]
  simp only [bind_eq_ok, pure, Except.pure, Except.ok.injEq]
  constructor
  · rintro ⟨faqId, hfaq, score, hscore, rfl⟩
    exact ⟨faqId, score, hfaq, hscore, rfl⟩
  · rintro ⟨faqId, score, hfaq, hscore, rfl⟩
    exact ⟨faqId, hfaq, score, hscore, rfl⟩

theorem mapM_readRow_iff :
    (∃ items, ((flatRows rankings).mapM fun row => readRow float row.1 row.2) = .ok items)
      ↔ Readable float rankings := by
  constructor
  · rintro ⟨items, hitems⟩ ⟨source, rows⟩ hrows row hrow
    obtain ⟨rank, hmem⟩ := mem_flatRows.mpr ⟨rows, hrows, hrow⟩
    obtain ⟨item, -, hitem⟩ := mapM_eq_ok_mem hitems hmem
    obtain ⟨faqId, score, hfaq, hscore, -⟩ := readRow_eq_ok.mp hitem
    exact ⟨⟨faqId, hfaq⟩, score, hscore⟩
  · refine fun h => exists_mapM_eq_ok fun row hmem => ?_
    obtain ⟨source, row, rank⟩ := row
    obtain ⟨rows, hrows, hrow⟩ := mem_flatRows.mp ⟨rank, hmem⟩
    obtain ⟨⟨faqId, hfaq⟩, score, hscore⟩ := h _ hrows row hrow
    exact ⟨_, readRow_eq_ok.mpr ⟨faqId, score, hfaq, hscore, rfl⟩⟩

/-! ## The entries -/

/-- The sources that list a FAQ, with its ranks. -/
def sourceRanksOf (lists : List (String × List ℤ)) (faqId : ℤ) : List (String × ℕ) :=
  lists.filterMap fun list => (rankIn list.2 faqId).map fun rank => (list.1, rank)

theorem snd_sourceRanksOf (lists : List (String × List ℤ)) (faqId : ℤ) :
    (sourceRanksOf lists faqId).map Prod.snd = ranks lists faqId := by
  unfold sourceRanksOf ranks
  rw [List.map_filterMap]
  refine List.filterMap_congr fun list _ => ?_
  rw [Option.map_map]
  exact Option.map_id'

theorem nodup_sourceRanksOf {lists : List (String × List ℤ)} (h : (lists.map Prod.fst).Nodup)
    (faqId : ℤ) : ((sourceRanksOf lists faqId).map Prod.fst).Nodup := by
  have hkeys : (sourceRanksOf lists faqId).map Prod.fst
      = (lists.filter fun list => (rankIn list.2 faqId).isSome).map Prod.fst := by
    unfold sourceRanksOf
    induction lists with
    | nil => rfl
    | cons list lists ih =>
        have ih := ih (List.nodup_cons.mp h).2
        cases hrank : rankIn list.2 faqId <;> simp [hrank, ih]
  rw [hkeys]
  exact (List.filter_sublist.map _).nodup h

/-- A dictionary is built from entries with different keys as they are. -/
theorem ofEntries_eq_self {β : Type*} {entries : List (String × β)}
    (h : (entries.map Prod.fst).Nodup) : Dict.ofEntries entries = entries := by
  have hset : ∀ (d : List (String × β)) (k : String) (v : β), k ∉ d.map Prod.fst →
      Dict.set d k v = d ++ [(k, v)] := by
    intro d k v hk
    induction d with
    | nil => rfl
    | cons kv d ih =>
        rw [List.map_cons, List.mem_cons, not_or] at hk
        unfold Dict.set
        rw [if_neg (Ne.symm hk.1), ih hk.2, List.cons_append]
  induction entries using List.reverseRecOn with
  | nil => rfl
  | append_singleton entries entry ih =>
      rw [List.map_append, List.map_singleton, List.nodup_append] at h
      have hnew : entry.1 ∉ entries.map Prod.fst := fun hmem =>
        h.2.2 _ hmem _ (List.mem_singleton_self _) rfl
      have hlast : Dict.ofEntries (entries ++ [entry])
          = Dict.set (Dict.ofEntries entries) entry.1 entry.2 := by
        simp [Dict.ofEntries, Dict.merge]
      rw [hlast, ih h.1, hset _ _ _ hnew]

/-- What a FAQ's rows add up to. -/
theorem gather_addRank (first : RankedRow φ) (rest : List (RankedRow φ)) :
    Grouping.gather (addRank rrfK) (first :: rest)
      = some
        { result := first.result
          faqId := first.faqId
          score := ((first :: rest).map fun row => 1 / ((rrfK : ℚ) + row.rank)).sum
          sourceRanks := Dict.ofEntries ((first :: rest).map fun row => (row.source, row.rank))
          sourceScores :=
            Dict.ofEntries ((first :: rest).map fun row => (row.source, row.score)) } := by
  induction rest using List.reverseRecOn with
  | nil =>
      simp [Grouping.gather, addRank, Dict.ofEntries, Dict.merge]
  | append_singleton rest row ih =>
      rw [← List.cons_append, Grouping.gather_concat, ih]
      refine congrArg some ?_
      unfold addRank
      rw [Option.getD_some]
      simp only [Dict.ofEntries, Dict.merge, List.map_append, List.map_singleton,
        List.sum_append, List.sum_singleton, List.foldl_append, List.foldl_cons, List.foldl_nil]

/-- A ranking without repetitions lists a FAQ at its rank, or not at all. -/
theorem itemsAt_ranking {faqIds : List ℤ} (h : faqIds.Nodup) (source : String) (start : ℕ)
    (faqId : ℤ) :
    Grouping.itemsAt ((faqIds.zipIdx start).map fun placed => (placed.1, (source, placed.2))) faqId
      = ((faqIds.idxOf? faqId).map fun i => (source, i + start)).toList := by
  induction faqIds generalizing start with
  | nil => rfl
  | cons first faqIds ih =>
      obtain ⟨hfirst, hrest⟩ := List.nodup_cons.mp h
      have ih := ih hrest (start + 1)
      unfold Grouping.itemsAt at ih ⊢
      rw [List.zipIdx_cons, List.map_cons, List.idxOf?_cons]
      by_cases heq : first = faqId
      · subst heq
        rw [List.idxOf?_eq_none_iff.mpr hfirst] at ih
        rw [List.filter_cons_of_pos (by simp), List.map_cons, ih]
        simp
      · rw [List.filter_cons_of_neg (by simpa using heq), ih]
        have hne : (first == faqId) = false := beq_false_of_ne heq
        rw [hne]
        cases faqIds.idxOf? faqId with
        | none => rfl
        | some i =>
            simp
            omega

theorem itemsAt_rankings {lists : List (String × List ℤ)} (h : ∀ list ∈ lists, list.2.Nodup)
    (faqId : ℤ) :
    Grouping.itemsAt (lists.flatMap fun list =>
      (list.2.zipIdx 1).map fun placed => (placed.1, (list.1, placed.2))) faqId
      = sourceRanksOf lists faqId := by
  rw [Grouping.itemsAt_flatMap]
  unfold sourceRanksOf
  rw [List.filterMap_eq_flatMap_toList]
  refine List.flatMap_congr fun list hlist => ?_
  rw [itemsAt_ranking (h list hlist)]
  unfold rankIn
  rw [Option.map_map]
  rfl

/-- The rows that were read, without what is not fused. -/
theorem places_of_mapM {items : List (ℤ × RankedRow φ)}
    (hitems : ((flatRows rankings).mapM fun row => readRow float row.1 row.2) = .ok items) :
    (items.map fun item => (item.1, (item.2.source, item.2.rank)))
      = (faqLists rankings).flatMap fun list =>
          (list.2.zipIdx 1).map fun placed => (placed.1, (list.1, placed.2)) := by
  have hread : items.map (fun item => (item.1, (item.2.source, item.2.rank)))
      = (flatRows rankings).map fun row => (faqOf row.2.1, (row.1, row.2.2)) := by
    have hall := mapM_eq_ok.mp hitems
    clear hitems
    generalize flatRows rankings = rows at hall
    induction hall with
    | nil => rfl
    | @cons row item _ _ hrow _ ih =>
        obtain ⟨faqId, score, hfaq, -, rfl⟩ := readRow_eq_ok.mp hrow
        rw [List.map_cons, List.map_cons, ih, faqOf, hfaq]
  rw [hread]
  unfold flatRows faqLists
  rw [List.map_flatMap, List.flatMap_map]
  refine List.flatMap_congr fun ranking _ => ?_
  rw [List.map_map, List.zipIdx_map, List.map_map]
  rfl

/-- The entry of a FAQ is what the rankings say of it. -/
structure SumsUp (rrfK : ℤ) (lists : List (String × List ℤ)) (faqId : ℤ) (item : FusedFaq φ) :
    Prop where
  faqId_eq : item.faqId = faqId
  score_eq : item.score = rrfScore rrfK lists faqId
  ranks_eq : item.sourceRanks = sourceRanksOf lists faqId

theorem sumsUp_of_mem_group {items : List (ℤ × RankedRow φ)}
    (hitems : ((flatRows rankings).mapM fun row => readRow float row.1 row.2) = .ok items)
    (hsources : (rankings.map Prod.fst).Nodup)
    (honce : ∀ list ∈ faqLists rankings, list.2.Nodup) {faqId : ℤ} {item : FusedFaq φ}
    (hmem : (faqId, item) ∈ Grouping.group (addRank rrfK) items) :
    SumsUp rrfK (faqLists rankings) faqId item := by
  have hgather := (Grouping.mem_group_iff (addRank rrfK)).mp hmem
  have hplaces : (Grouping.itemsAt items faqId).map (fun row => (row.source, row.rank))
      = sourceRanksOf (faqLists rankings) faqId := by
    rw [← Grouping.itemsAt_map, places_of_mapM hitems, itemsAt_rankings honce]
  have hfaq : ∀ row ∈ Grouping.itemsAt items faqId, row.faqId = faqId := by
    intro row hrow
    obtain ⟨⟨source, result, rank⟩, -, hread⟩ :=
      mem_of_mapM_eq_ok hitems (Grouping.mem_itemsAt.mp hrow)
    obtain ⟨_, _, -, -, heq⟩ := readRow_eq_ok.mp hread
    obtain ⟨rfl, rfl⟩ := Prod.mk.inj heq
    rfl
  have hkeys : (faqLists rankings).map Prod.fst = rankings.map Prod.fst := by
    unfold faqLists
    rw [List.map_map]
    rfl
  have hnodup := nodup_sourceRanksOf (hkeys ▸ hsources) faqId
  cases hrows : Grouping.itemsAt items faqId with
  | nil =>
      rw [hrows] at hgather
      cases hgather
  | cons first rest =>
      rw [hrows] at hplaces hfaq
      rw [hrows, gather_addRank] at hgather
      obtain rfl := Option.some.inj hgather
      refine ⟨hfaq first List.mem_cons_self, ?_, ?_⟩
      · unfold rrfScore
        rw [← snd_sourceRanksOf, ← hplaces, List.map_map, List.map_map]
        rfl
      · dsimp only
        rw [hplaces, ofEntries_eq_self hnodup]

theorem get?_sourceRanksOf {lists : List (String × List ℤ)} (h : (lists.map Prod.fst).Nodup)
    (source : String) (faqId : ℤ) :
    Dict.get? (sourceRanksOf lists faqId) source = rankOf lists source faqId := by
  rw [← Dict.get?_ofEntries_of_nodup (nodup_sourceRanksOf h faqId)]
  exact Dict.get?_ofEntries_filterMap (fun _ faqIds => rankIn faqIds faqId) h source

theorem SumsUp.sortKey_eq {lists : List (String × List ℤ)} (h : (lists.map Prod.fst).Nodup)
    {faqId : ℤ} {item : FusedFaq φ} (hitem : SumsUp rrfK lists faqId item) :
    item.sortKey tieBreakSource = fusionKey rrfK tieBreakSource lists faqId := by
  have hranks : Dict.get? (sourceRanksOf lists faqId) = fun source => rankOf lists source faqId :=
    funext fun source => get?_sourceRanksOf h source faqId
  unfold FusedFaq.sortKey fusionKey
  rw [hitem.score_eq, hitem.ranks_eq, hitem.faqId_eq, snd_sourceRanksOf, hranks]

end

/-! ## The fused ranking -/

/-- All listed FAQs, each once, in the order of their keys. -/
structure Fusion {φ : Type} (rrfK : ℤ) (tieBreakSource : Option String)
    (lists : List (String × List ℤ)) (ordered : List (FusedFaq φ)) : Prop where
  sumsUp : ∀ item ∈ ordered, SumsUp rrfK lists item.faqId item
  listed : ∀ faqId, faqId ∈ ordered.map FusedFaq.faqId ↔ ∃ list ∈ lists, faqId ∈ list.2
  sorted : (ordered.map FusedFaq.faqId).Pairwise fun a b =>
    fusionKey rrfK tieBreakSource lists a < fusionKey rrfK tieBreakSource lists b

/-- The same FAQ with the same score and the same ranks. -/
structure SameFaq {φ : Type} (a b : FusedFaq φ) : Prop where
  faqId : a.faqId = b.faqId
  score : a.score = b.score
  sourceRanks : ∀ source, Dict.get? a.sourceRanks source = Dict.get? b.sourceRanks source

/-- One source lists the FAQ a place further up, its predecessor a place further down. -/
def Improved (rankings rankings' : List (String × List Dict)) (faqId : ℤ) : Prop :=
  ∃ before source front upper lower rest after,
    rankings = before ++ (source, front ++ upper :: lower :: rest) :: after
      ∧ rankings' = before ++ (source, front ++ lower :: upper :: rest) :: after
      ∧ faqOf lower = faqId

section

variable {φ : Type} {float : Json → Except String φ} {rankings : List (String × List Dict)}
  {topK rrfK : ℤ} {tieBreakSource : Option String} {lists lists' : List (String × List ℤ)}
  {ordered ordered' : List (FusedFaq φ)}

theorem Fusion.nodup (h : Fusion rrfK tieBreakSource lists ordered) :
    (ordered.map FusedFaq.faqId).Nodup :=
  h.sorted.imp fun {a b} hlt heq => hlt.ne (by rw [heq])

theorem fst_faqLists (rankings : List (String × List Dict)) :
    (faqLists rankings).map Prod.fst = rankings.map Prod.fst := by
  unfold faqLists
  rw [List.map_map]
  rfl

/-- The function returns the first entries of the fusion. -/
theorem exists_fusion (hsources : (rankings.map Prod.fst).Nodup) (htop : 1 ≤ topK)
    (hrrf : 1 ≤ rrfK) (hread : Readable float rankings)
    (honce : ∀ list ∈ faqLists rankings, list.2.Nodup) :
    ∃ ordered, reciprocalRankFusion float rankings topK rrfK tieBreakSource
        = .ok (ordered.take topK.toNat)
      ∧ Fusion rrfK tieBreakSource (faqLists rankings) ordered := by
  obtain ⟨items, hitems⟩ := mapM_readRow_iff.mpr hread
  have hsources' : ((faqLists rankings).map Prod.fst).Nodup := by rwa [fst_faqLists]
  have hgroup : ∀ faqId item, (faqId, item) ∈ Grouping.group (addRank rrfK) items →
      SumsUp rrfK (faqLists rankings) faqId item := fun faqId item hmem =>
    sumsUp_of_mem_group hitems hsources honce hmem
  set entries := Grouping.group (addRank rrfK) items with hentries
  have hkeys : (entries.map Prod.snd).map FusedFaq.faqId = entries.map Prod.fst := by
    rw [List.map_map]
    exact List.map_congr_left fun entry hmem => (hgroup _ _ hmem).faqId_eq
  have hids : entries.map Prod.fst = (items.map Prod.fst).eraseDups :=
    Grouping.keys_group _ items
  have hsums : ∀ item ∈ entries.map Prod.snd, SumsUp rrfK (faqLists rankings) item.faqId item := by
    intro item hmem
    obtain ⟨⟨faqId, item⟩, hentry, rfl⟩ := List.mem_map.mp hmem
    have hitem := hgroup _ _ hentry
    rwa [← hitem.faqId_eq] at hitem
  set ordered := (entries.map Prod.snd).insertionSort fun a b =>
    a.sortKey tieBreakSource ≤ b.sortKey tieBreakSource with hordered
  have hperm : ordered.Perm (entries.map Prod.snd) := List.perm_insertionSort _ _
  have hnodup : (ordered.map FusedFaq.faqId).Nodup := by
    rw [(hperm.map FusedFaq.faqId).nodup_iff, hkeys, hids]
    exact Grouping.nodup_eraseDups _
  have hsumsOrdered : ∀ item ∈ ordered, SumsUp rrfK (faqLists rankings) item.faqId item :=
    fun item hmem => hsums item (hperm.mem_iff.mp hmem)
  refine ⟨ordered, ?_, hsumsOrdered, fun faqId => ?_, ?_⟩
  · rw [reciprocalRankFusion_eq htop hrrf, hitems]
    rfl
  · rw [(hperm.map FusedFaq.faqId).mem_iff, hkeys, hids, List.mem_eraseDups]
    have hplaces := congrArg (List.map Prod.fst) (places_of_mapM hitems)
    rw [List.map_map, List.map_flatMap] at hplaces
    have hfst : items.map Prod.fst = (faqLists rankings).flatMap Prod.snd := by
      refine hplaces.trans (List.flatMap_congr fun list _ => ?_)
      rw [List.map_map]
      exact List.zipIdx_map_fst 1 list.2
    rw [hfst, List.mem_flatMap]
  · have hle : ordered.Pairwise fun a b => a.sortKey tieBreakSource ≤ b.sortKey tieBreakSource :=
      OrderedQuery.pairwise_insertionSort (fun _ _ => Iff.rfl) _
    refine List.pairwise_map.mpr ((hle.and (List.pairwise_map.mp hnodup)).imp_of_mem ?_)
    rintro a b ha hb ⟨hab, hne⟩
    rw [(hsumsOrdered a ha).sortKey_eq hsources', (hsumsOrdered b hb).sortKey_eq hsources'] at hab
    refine lt_of_le_of_ne hab fun heq => hne ?_
    exact congrArg (fun key => (ofLex (ofLex (ofLex key).2).2).2) heq

/-! ### Lists that rank a FAQ alike -/

/-- Both rank the FAQ alike, source by source. -/
structure RankedAlike (lists lists' : List (String × List ℤ)) (faqId : ℤ) : Prop where
  ranks_perm : (ranks lists faqId).Perm (ranks lists' faqId)
  rank_eq : ∀ source, rankOf lists source faqId = rankOf lists' source faqId

theorem min?_eq_of_perm {xs ys : List ℕ} (h : xs.Perm ys) : xs.min? = ys.min? :=
  Option.ext fun n => by simp only [List.min?_eq_some_iff, h.mem_iff]

theorem RankedAlike.rrfScore_eq {faqId : ℤ} (h : RankedAlike lists lists' faqId) :
    rrfScore rrfK lists faqId = rrfScore rrfK lists' faqId :=
  (h.ranks_perm.map _).sum_eq

theorem RankedAlike.fusionKey_eq {faqId : ℤ} (h : RankedAlike lists lists' faqId) :
    fusionKey rrfK tieBreakSource lists faqId = fusionKey rrfK tieBreakSource lists' faqId := by
  unfold fusionKey
  rw [h.rrfScore_eq, funext h.rank_eq, min?_eq_of_perm h.ranks_perm]

theorem alike_of_perm (h : lists.Perm lists') (hsources : (lists.map Prod.fst).Nodup) (faqId : ℤ) :
    RankedAlike lists lists' faqId := by
  have hsources' : (lists'.map Prod.fst).Nodup := (h.map Prod.fst).nodup_iff.mp hsources
  refine ⟨h.filterMap _, fun source => congrArg (Option.bind · _) (Option.ext fun faqIds => ?_)⟩
  unfold Dict.get?
  rw [lookup_eq_some_iff_mem hsources, lookup_eq_some_iff_mem hsources', h.mem_iff]

/-- Lists that rank all FAQs alike are fused alike. -/
theorem Fusion.forall₂_sameFaq (h : Fusion rrfK tieBreakSource lists ordered)
    (h' : Fusion rrfK tieBreakSource lists' ordered')
    (hsources : (lists.map Prod.fst).Nodup) (hsources' : (lists'.map Prod.fst).Nodup)
    (halike : ∀ faqId, RankedAlike lists lists' faqId)
    (hlisted : ∀ faqId, (∃ list ∈ lists, faqId ∈ list.2) ↔ ∃ list ∈ lists', faqId ∈ list.2) :
    List.Forall₂ SameFaq ordered ordered' := by
  have hids : ordered.map FusedFaq.faqId = ordered'.map FusedFaq.faqId := by
    refine OrderedQuery.eq_of_pairwise_lt h.sorted ?_ fun faqId => ?_
    · simp only [(halike _).fusionKey_eq]
      exact h'.sorted
    · rw [h.listed, h'.listed, hlisted]
  have hforall : List.Forall₂ (fun a b : FusedFaq φ => a.faqId = b.faqId) ordered ordered' := by
    have heq : List.Forall₂ Eq (ordered.map FusedFaq.faqId) (ordered'.map FusedFaq.faqId) := by
      rw [List.forall₂_eq_eq_eq, hids]
    exact List.forall₂_map_right_iff.mp (List.forall₂_map_left_iff.mp heq)
  obtain ⟨hlength, hzip⟩ := List.forall₂_iff_zip.mp hforall
  refine List.forall₂_iff_zip.mpr ⟨hlength, fun {a b} hmem => ?_⟩
  have hid := hzip hmem
  obtain ⟨ha, hb⟩ := List.of_mem_zip hmem
  have ha := h.sumsUp a ha
  have hb := h'.sumsUp b hb
  refine ⟨hid, ?_, fun source => ?_⟩
  · rw [ha.score_eq, hb.score_eq, hid, (halike _).rrfScore_eq]
  · rw [ha.ranks_eq, hb.ranks_eq, get?_sourceRanksOf hsources, get?_sourceRanksOf hsources', hid,
      (halike _).rank_eq]

/-! ### A FAQ that is listed further up -/

theorem rankIn_append_cons {front rest : List ℤ} {faqId : ℤ} (h : faqId ∉ front) :
    rankIn (front ++ faqId :: rest) faqId = some (front.length + 1) := by
  have hidx : (front ++ faqId :: rest).idxOf? faqId = some front.length := by
    induction front with
    | nil => simp [List.idxOf?_cons]
    | cons first front ih =>
        rw [List.mem_cons, not_or] at h
        rw [List.cons_append, List.idxOf?_cons, ih h.2, beq_false_of_ne (Ne.symm h.1)]
        rfl
  unfold rankIn
  rw [hidx, Option.map_some]

theorem rankIn_swap {front rest : List ℤ} {upper lower faqId : ℤ} (hupper : faqId ≠ upper)
    (hlower : faqId ≠ lower) :
    rankIn (front ++ upper :: lower :: rest) faqId
      = rankIn (front ++ lower :: upper :: rest) faqId := by
  have hidx : (front ++ upper :: lower :: rest).idxOf? faqId
      = (front ++ lower :: upper :: rest).idxOf? faqId := by
    induction front with
    | nil =>
        simp [List.idxOf?_cons, beq_false_of_ne (Ne.symm hupper), beq_false_of_ne (Ne.symm hlower)]
    | cons first front ih =>
        rw [List.cons_append, List.cons_append, List.idxOf?_cons, List.idxOf?_cons, ih]
  unfold rankIn
  rw [hidx]

theorem rrfScore_insert (before after : List (String × List ℤ)) (list : String × List ℤ)
    (faqId : ℤ) :
    rrfScore rrfK (before ++ list :: after) faqId
      = rrfScore rrfK before faqId
        + ((rankIn list.2 faqId).elim 0 fun rank => 1 / ((rrfK : ℚ) + rank))
        + rrfScore rrfK after faqId := by
  unfold rrfScore ranks
  rw [List.filterMap_append, List.filterMap_cons]
  cases rankIn list.2 faqId with
  | none => simp
  | some rank => simp [add_assoc]

section

variable {before after : List (String × List ℤ)} {source : String} {front rest : List ℤ}
  {upper lower : ℤ}

theorem alike_swap {faqId : ℤ} (hupper : faqId ≠ upper) (hlower : faqId ≠ lower) :
    RankedAlike (before ++ (source, front ++ upper :: lower :: rest) :: after)
      (before ++ (source, front ++ lower :: upper :: rest) :: after) faqId := by
  have hrank := @rankIn_swap front rest upper lower faqId hupper hlower
  refine ⟨?_, fun other => ?_⟩
  · unfold ranks
    rw [List.filterMap_append, List.filterMap_append, List.filterMap_cons, List.filterMap_cons,
      hrank]
  · unfold rankOf
    rw [Dict.get?_append, Dict.get?_append, Dict.get?_cons, Dict.get?_cons]
    cases Dict.get? before other with
    | some faqIds => rfl
    | none =>
        rw [Option.none_or, Option.none_or]
        split
        · exact hrank
        · rfl

/-- A place further up scores more. -/
theorem rrfScore_swap_lt (hrrf : 1 ≤ rrfK) (h : (front ++ upper :: lower :: rest).Nodup) :
    rrfScore rrfK (before ++ (source, front ++ upper :: lower :: rest) :: after) lower
      < rrfScore rrfK (before ++ (source, front ++ lower :: upper :: rest) :: after) lower := by
  obtain ⟨-, hpair, hfront⟩ := List.nodup_append.mp h
  have hne : lower ≠ upper := fun heq =>
    (List.nodup_cons.mp hpair).1 (heq ▸ List.mem_cons_self)
  have hlower : lower ∉ front := fun hmem =>
    hfront _ hmem _ (List.mem_cons_of_mem _ List.mem_cons_self) rfl
  have hlower' : lower ∉ front ++ [upper] := by simp [hlower, hne]
  have hbelow : rankIn (front ++ upper :: lower :: rest) lower = some (front.length + 2) := by
    have := @rankIn_append_cons (front ++ [upper]) rest lower hlower'
    simpa using this
  rw [rrfScore_insert, rrfScore_insert, hbelow, rankIn_append_cons hlower, Option.elim_some,
    Option.elim_some]
  have hpos : (0 : ℚ) < (rrfK : ℚ) + ((front.length + 1 : ℕ) : ℚ) := by
    have : (1 : ℚ) ≤ rrfK := by exact_mod_cast hrrf
    positivity
  have hlt : (rrfK : ℚ) + ((front.length + 1 : ℕ) : ℚ) < rrfK + ((front.length + 2 : ℕ) : ℚ) := by
    push_cast
    linarith
  have := one_div_lt_one_div_of_lt hpos hlt
  linarith

/-- No FAQ newly comes before the one that is listed further up. One that came before it scored
even more. -/
theorem fusionKey_swap (hrrf : 1 ≤ rrfK) (h : (front ++ upper :: lower :: rest).Nodup) {faqId : ℤ}
    (hbefore : fusionKey rrfK tieBreakSource
        (before ++ (source, front ++ lower :: upper :: rest) :: after) faqId
      < fusionKey rrfK tieBreakSource
        (before ++ (source, front ++ lower :: upper :: rest) :: after) lower) :
    fusionKey rrfK tieBreakSource
        (before ++ (source, front ++ upper :: lower :: rest) :: after) faqId
      < fusionKey rrfK tieBreakSource
        (before ++ (source, front ++ upper :: lower :: rest) :: after) lower := by
  have hperm : (front ++ upper :: lower :: rest).Perm (front ++ lower :: upper :: rest) :=
    (List.Perm.swap _ _ _).append_left front
  have h' := hperm.nodup_iff.mp h
  have hfirst : ∀ {lists lists' : List (String × List ℤ)} {a b : ℤ},
      rrfScore rrfK lists' b < rrfScore rrfK lists a →
        fusionKey rrfK tieBreakSource lists a < fusionKey rrfK tieBreakSource lists' b :=
    fun hlt => Prod.Lex.toLex_lt_toLex.mpr (Or.inl (neg_lt_neg hlt))
  have hlower := @rrfScore_swap_lt rrfK before after source front rest upper lower hrrf h
  by_cases hfaq : faqId = lower
  · rw [hfaq] at hbefore
    exact absurd hbefore (lt_irrefl _)
  by_cases hupper : faqId = upper
  · subst hupper
    refine hfirst ?_
    have hscore := @rrfScore_swap_lt rrfK before after source front rest lower faqId hrrf h'
    have hle : rrfScore rrfK (before ++ (source, front ++ lower :: faqId :: rest) :: after) lower
        ≤ rrfScore rrfK (before ++ (source, front ++ lower :: faqId :: rest) :: after) faqId := by
      by_contra hlt
      exact absurd hbefore (hfirst (lt_of_not_ge hlt)).asymm
    linarith
  · rw [(alike_swap hupper hfaq).fusionKey_eq]
    exact hbefore.trans (hfirst hlower)

end

theorem mem_take_of_idxOf_le {xs ys : List ℤ} {a : ℤ} (n : ℕ) (hxs : a ∈ xs.take n)
    (hys : a ∈ ys) (h : ys.idxOf a ≤ xs.idxOf a) :
    a ∈ ys.take n ∧ (ys.take n).idxOf a ≤ (xs.take n).idxOf a := by
  have hsplit : ∀ {zs : List ℤ}, a ∈ zs.take n → (zs.take n).idxOf a = zs.idxOf a := by
    intro zs hmem
    conv_rhs => rw [← List.take_append_drop n zs]
    rw [List.idxOf_append_of_mem hmem]
  have hlt : xs.idxOf a < n := by
    rw [← hsplit hxs]
    exact (List.idxOf_lt_length_of_mem hxs).trans_le (List.length_take_le n xs)
  have hmem : a ∈ ys.take n := by
    have hidx := List.idxOf_lt_length_of_mem hys
    refine List.mem_take_iff_getElem.mpr ⟨ys.idxOf a, by omega, List.getElem_idxOf hidx⟩
  exact ⟨hmem, by rw [hsplit hmem, hsplit hxs]; exact h⟩

end

theorem faqLists_insert (before after : List (String × List Dict)) (ranking : String × List Dict) :
    faqLists (before ++ ranking :: after)
      = faqLists before ++ (ranking.1, ranking.2.map faqOf) :: faqLists after := by
  unfold faqLists
  rw [List.map_append, List.map_cons]

/-- `reciprocal_rank_fusion` returns when all rows can be read. It returns the first FAQs of
the fusion, whatever the order of the sources, and a FAQ that a source lists further up is
not returned further down. -/
theorem ranks_fused {φ : Type} (float : Json → Except String φ)
    (rankings : List (String × List Dict)) (topK rrfK : ℤ) (tieBreakSource : Option String)
    (hsources : (rankings.map Prod.fst).Nodup) (htop : 1 ≤ topK) (hrrf : 1 ≤ rrfK)
    (honce : ∀ list ∈ faqLists rankings, list.2.Nodup) :
    ((∃ returned, reciprocalRankFusion float rankings topK rrfK tieBreakSource = .ok returned)
        ↔ Readable float rankings)
      ∧ ∀ returned, reciprocalRankFusion float rankings topK rrfK tieBreakSource = .ok returned →
          (∃ ordered, returned = ordered.take topK.toNat
            ∧ Fusion rrfK tieBreakSource (faqLists rankings) ordered)
          ∧ (returned.map FusedFaq.faqId).Nodup
          ∧ (∀ rankings', rankings.Perm rankings' → ∃ returned',
              reciprocalRankFusion float rankings' topK rrfK tieBreakSource = .ok returned'
                ∧ List.Forall₂ SameFaq returned returned')
          ∧ ∀ rankings' faqId, Improved rankings rankings' faqId → ∃ returned',
              reciprocalRankFusion float rankings' topK rrfK tieBreakSource = .ok returned'
                ∧ (faqId ∈ returned.map FusedFaq.faqId →
                    faqId ∈ returned'.map FusedFaq.faqId
                      ∧ (returned'.map FusedFaq.faqId).idxOf faqId
                        ≤ (returned.map FusedFaq.faqId).idxOf faqId) := by
  have hreturns : (∃ returned,
      reciprocalRankFusion float rankings topK rrfK tieBreakSource = .ok returned)
        ↔ Readable float rankings := by
    rw [← mapM_readRow_iff, reciprocalRankFusion_eq htop hrrf]
    constructor
    · rintro ⟨returned, h⟩
      obtain ⟨items, hitems, -⟩ := map_eq_ok.mp h
      exact ⟨items, hitems⟩
    · rintro ⟨items, hitems⟩
      exact ⟨_, map_eq_ok.mpr ⟨items, hitems, rfl⟩⟩
  refine ⟨hreturns, fun returned hreturned => ?_⟩
  have hread := hreturns.mp ⟨returned, hreturned⟩
  obtain ⟨ordered, hordered, hfusion⟩ :=
    exists_fusion hsources htop hrrf hread honce
  obtain rfl := Except.ok.inj (hreturned.symm.trans hordered)
  have hkeys : ((faqLists rankings).map Prod.fst).Nodup := by rwa [fst_faqLists]
  refine ⟨⟨ordered, rfl, hfusion⟩, ?_, fun rankings' hperm => ?_, fun rankings' faqId h => ?_⟩
  · exact ((List.take_sublist _ _).map _).nodup hfusion.nodup
  · have hlists : (faqLists rankings).Perm (faqLists rankings') := hperm.map _
    obtain ⟨ordered', hordered', hfusion'⟩ :=
      exists_fusion
        ((hperm.map _).nodup_iff.mp hsources) htop hrrf
        (fun ranking hmem => hread ranking (hperm.mem_iff.mpr hmem))
        (fun list hmem => honce list (hlists.mem_iff.mpr hmem))
    refine ⟨_, hordered', List.forall₂_take _ ?_⟩
    refine hfusion.forall₂_sameFaq hfusion' hkeys ((hlists.map _).nodup_iff.mp hkeys)
      (alike_of_perm hlists hkeys) fun faqId => ?_
    simp only [hlists.mem_iff]
  · obtain ⟨before, source, front, upper, lower, rest, after, rfl, rfl, rfl⟩ := h
    have hrows : (front ++ upper :: lower :: rest).Perm (front ++ lower :: upper :: rest) :=
      (List.Perm.swap _ _ _).append_left front
    have hnodup := honce (source, (front ++ upper :: lower :: rest).map faqOf) (by
      rw [faqLists_insert]
      exact List.mem_append_right _ List.mem_cons_self)
    have hread' : Readable float
        (before ++ (source, front ++ lower :: upper :: rest) :: after) := by
      intro ranking hmem row hrow
      rcases List.mem_append.mp hmem with hmem | hmem
      · exact hread ranking (List.mem_append_left _ hmem) row hrow
      · rcases List.mem_cons.mp hmem with rfl | hmem
        · exact hread _ (List.mem_append_right _ List.mem_cons_self) row (hrows.mem_iff.mpr hrow)
        · exact hread ranking (List.mem_append_right _ (List.mem_cons_of_mem _ hmem)) row hrow
    have honce' : ∀ list ∈ faqLists (before ++ (source, front ++ lower :: upper :: rest) :: after),
        list.2.Nodup := by
      intro list hmem
      rw [faqLists_insert] at hmem honce
      rcases List.mem_append.mp hmem with hmem | hmem
      · exact honce list (List.mem_append_left _ hmem)
      · rcases List.mem_cons.mp hmem with rfl | hmem
        · exact (hrows.map faqOf).nodup_iff.mp hnodup
        · exact honce list (List.mem_append_right _ (List.mem_cons_of_mem _ hmem))
    have hsources' : ((before ++ (source, front ++ lower :: upper :: rest) :: after).map
        Prod.fst).Nodup := by
      simpa using hsources
    obtain ⟨ordered', hordered', hfusion'⟩ :=
      exists_fusion hsources' htop hrrf hread' honce'
    refine ⟨_, hordered', fun hmem => ?_⟩
    rw [faqLists_insert] at hfusion hfusion'
    simp only [List.map_append, List.map_cons] at hfusion hfusion' hnodup
    have hlisted : ∀ id, id ∈ ordered.map FusedFaq.faqId ↔ id ∈ ordered'.map FusedFaq.faqId := by
      intro id
      rw [hfusion.listed, hfusion'.listed]
      simp only [List.mem_append, List.mem_cons, or_and_right, exists_or, exists_eq_left,
        or_left_comm (a := id = faqOf upper)]
    rw [List.map_take] at hmem ⊢
    rw [List.map_take]
    have hlower := List.mem_of_mem_take hmem
    refine mem_take_of_idxOf_le _ hmem ((hlisted _).mp hlower) ?_
    exact OrderedQuery.idxOf_le_idxOf hfusion.sorted hfusion'.sorted hlisted hlower fun id =>
      fusionKey_swap hrrf hnodup

/-- A full-text and a vector search that both find FAQ 2. -/
def sampleRankings : List (String × List Dict) :=
  [("fulltext", [[("faq_id", .int 1), ("score", .float "0.9")],
      [("faq_id", .int 2), ("score", .float "0.8")]]),
    ("vector", [[("faq_id", .int 2), ("score", .float "0.7")],
      [("faq_id", .int 3), ("score", .float "0.6")]])]

def floatText : Json → Except String String
  | .float repr => .ok repr
  | _ => .error "TypeError"

theorem ranks_fused_sample :
    ∃ returned, reciprocalRankFusion floatText sampleRankings 3 60 (some "vector") = .ok returned
      ∧ (returned.map FusedFaq.faqId).Nodup := by
  obtain ⟨hreturns, hlaw⟩ := ranks_fused floatText sampleRankings 3 60 (some "vector")
    (by decide) (by decide) (by decide) (by decide)
  obtain ⟨returned, hreturned⟩ := hreturns.mpr (by
    intro ranking hranking row hrow
    simp only [sampleRankings, List.mem_cons, List.not_mem_nil, or_false] at hranking
    rcases hranking with rfl | rfl <;> simp only [List.mem_cons, List.not_mem_nil, or_false] at hrow
      <;> rcases hrow with rfl | rfl <;> exact ⟨⟨_, rfl⟩, _, rfl⟩)
  exact ⟨returned, hreturned, (hlaw returned hreturned).2.1⟩

example : (reciprocalRankFusion floatText sampleRankings 3 60 none).map
    (List.map fun item => (item.faqId, item.score))
      = .ok [(2, 1 / 62 + 1 / 61), (1, 1 / 61), (3, 1 / 62)] := by
  decide +kernel

end Aegora
