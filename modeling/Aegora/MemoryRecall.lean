import Mathlib.Data.Prod.Lex
import Aegora.MemoryService
import Aegora.MemoryMigration
import Aegora.OrderedQuery

/-!
# What hidden memories do to a recall

`recall` asks the provider for a pool of rows, in the order of importance and
recency, and only then drops the ones that the governance hides. A hidden row
shows in the answer in two ways: it can push a row out of the pool, and it can
make the filter fail. Where the pools have room for the rows that are handed
out (`PoolHolds`), the answer depends on these alone.
-/

namespace Aegora

open Py

section Pools

variable (env : FloatEnv) (scope : MemoryScope) (governance : MemoryGovernance) (limit : Int)
  (now : Time) (t : MemoryTables)

/-- The rows that a recall may hand out: the provider finds them and the
governance does not hide them. -/
def admittedRows : List MemoryRow :=
  (t.rows.filter (recallable scope now)).filter fun row =>
    decide (Admits governance (rowToItem env row))

/-- The pool of `limit` rows has every admitted row that would be in it without
the hidden ones, and `can_recall` raises on none of it. -/
structure PoolHolds : Prop where
  holds : ∀ row ∈ ((admittedRows env scope governance now t).insertionSort
      (recallBefore · ·)).take (max limit 1).toNat, row ∈ recallRows scope limit now t
  decided : ∀ row ∈ recallRows scope limit now t, ∃ admitted,
    canRecall (rowToItem env row) governance = .ok admitted

end Pools

/-! ## The pool -/

section Recall

variable {env : FloatEnv} {scope : MemoryScope} {governance : MemoryGovernance} {limit : Int}
  {now : Time} {t t' : MemoryTables}

/-- The order of a recall, as a sort key. -/
def recallKey (row : MemoryRow) : (ℚ ×ₗ Time ×ₗ Nat)ᵒᵈ :=
  OrderDual.toDual (toLex (row.importance, toLex (row.updatedAt, row.id)))

theorem recallBefore_iff (a b : MemoryRow) :
    recallBefore a b = true ↔ recallKey a ≤ recallKey b := by
  unfold recallBefore recallKey
  rw [OrderDual.toDual_le_toDual, Prod.Lex.toLex_le_toLex, Prod.Lex.toLex_le_toLex]
  by_cases himportance : a.importance = b.importance
  · by_cases hupdated : a.updatedAt = b.updatedAt <;> simp [himportance, hupdated, eq_comm]
  · simp [himportance, Ne.symm himportance]

theorem recallKey_injective (h : Constrained t) :
    ∀ a ∈ t.rows, ∀ b ∈ t.rows, recallKey a = recallKey b → a = b := by
  intro a ha b hb heq
  exact h.same_id ha hb (congrArg (fun key => (ofLex (ofLex (OrderDual.ofDual key)).2).2) heq)

theorem nodup_rows (h : Constrained t) : t.rows.Nodup :=
  List.Nodup.of_map MemoryRow.id (h.ids.imp Nat.ne_of_lt)

theorem mem_rows_of_admitted {row : MemoryRow}
    (hrow : row ∈ admittedRows env scope governance now t) : row ∈ t.rows :=
  List.mem_of_mem_filter (List.mem_of_mem_filter hrow)

/-- The admitted rows of a pool that holds them are the first of all admitted
ones. -/
theorem filter_recallRows (h : Constrained t)
    (hpool : PoolHolds env scope governance limit now t) :
    (recallRows scope limit now t).filter
        (fun row => decide (Admits governance (rowToItem env row)))
      = ((admittedRows env scope governance now t).insertionSort
        (recallBefore · ·)).take (max limit 1).toNat := by
  set p : MemoryRow → Bool := fun row => decide (Admits governance (rowToItem env row))
  have hsort : ((t.rows.filter (recallable scope now)).insertionSort (recallBefore · ·)).filter p
      = (admittedRows env scope governance now t).insertionSort (recallBefore · ·) :=
    OrderedQuery.filter_insertionSort recallBefore_iff fun a ha b hb heq =>
      recallKey_injective h a (List.mem_of_mem_filter ha) b (List.mem_of_mem_filter hb) heq
  have hprefix : (recallRows scope limit now t).filter p
      <+: ((admittedRows env scope governance now t).insertionSort
        (recallBefore · ·)).take (max limit 1).toNat := by
    rw [← hsort]
    exact OrderedQuery.prefix_filter_take _
  refine hprefix.eq_of_length_le (List.Subperm.length_le ?_)
  have hnodup : ((admittedRows env scope governance now t).insertionSort
      (recallBefore · ·)).Nodup :=
    (List.perm_insertionSort _ _).nodup_iff.mpr (((nodup_rows h).filter _).filter p)
  refine List.subperm_of_subset (hnodup.sublist (List.take_sublist _ _)) fun row hrow => ?_
  refine List.mem_filter.mpr ⟨hpool.holds row hrow, ?_⟩
  have hadmitted := (List.mem_insertionSort _).mp (List.mem_of_mem_take hrow)
  exact (List.mem_filter.mp hadmitted).2

/-- Past the filter, a recall has the first admitted items. -/
theorem filterRecalledItems_recallRows (h : Constrained t)
    (hpool : PoolHolds env scope governance limit now t) :
    filterRecalledItems ((recallRows scope limit now t).map (rowToItem env)) governance
      = .ok ((((admittedRows env scope governance now t).insertionSort
        (recallBefore · ·)).take (max limit 1).toNat).map (rowToItem env)) := by
  have hdecided : ∀ item ∈ (recallRows scope limit now t).map (rowToItem env),
      canRecall item governance = .ok (decide (Admits governance item)) := by
    intro item hitem
    obtain ⟨row, hrow, rfl⟩ := List.mem_map.mp hitem
    obtain ⟨admitted, hadmitted⟩ := hpool.decided row hrow
    rw [hadmitted]
    cases admitted <;> simp [Admits, hadmitted]
  unfold filterRecalledItems
  rw [filterM_eq_ok hdecided, List.filter_map, ← filter_recallRows h hpool]
  rfl

theorem admitted_perm (h : Constrained t) (h' : Constrained t')
    (hsame : ∀ row, row ∈ admittedRows env scope governance now t
      ↔ row ∈ admittedRows env scope governance now t') :
    (admittedRows env scope governance now t).Perm (admittedRows env scope governance now t') :=
  (List.perm_ext_iff_of_nodup (((nodup_rows h).filter _).filter _)
    (((nodup_rows h').filter _).filter _)).mpr hsame

end Recall

/-- Two stores with the same admitted rows give the same recall when their pools hold them,
whatever else they hold. The pool is a front of the sorted rows, and dropping the hidden ones
from it leaves the admitted ones in their order. -/
theorem recall_eq_of_admitted (service : MemoryService) (call : Bool) (scope : MemoryScope)
    (query : String) (governance : MemoryGovernance) (now : Time) (store store' : MemoryStore)
    (hsame : ∀ row, row ∈ admittedRows service.floats scope governance now store.tables
      ↔ row ∈ admittedRows service.floats scope governance now store'.tables)
    (hpool : PoolHolds service.floats scope governance service.poolSize now store.tables)
    (hpool' : PoolHolds service.floats scope governance service.poolSize now store'.tables) :
    service.recall call scope query (some governance) now store.tables
      = service.recall call scope query (some governance) now store'.tables := by
  have hsorted := OrderedQuery.insertionSort_eq_of_perm recallBefore_iff
    (fun a ha b hb => recallKey_injective store.constrained a (mem_rows_of_admitted ha) b
      (mem_rows_of_admitted hb)) (admitted_perm store.constrained store'.constrained hsame)
  unfold MemoryService.recall
  dsimp only
  rw [filterRecalledItems_recallRows store.constrained hpool,
    filterRecalledItems_recallRows store'.constrained hpool', hsorted]

/-! ### Stores -/

/-- A service that hands out one item, from a pool of four. -/
def oneItem : MemoryService where
  floats := exactFloats
  toFloat := fun _ => none
  lower := id
  recallLimit := 1

/-- What another agent has noted, with more importance. -/
def hiddenRow (key : String) (id : Nat) : MemoryRow :=
  { backfilledRow 0 "u1" key "noted" id with sourceAgentId := some "agent_b", importance := 1 }

/-- Tables with these rows alone, numbered in order. -/
def MemoryStore.ofRows (rows : List MemoryRow)
    (hids : (rows.map MemoryRow.id).Pairwise (· < ·))
    (hunique : VersionedTable.UniqueLive MemoryRow.identity MemoryRow.active rows)
    (hagent : ∀ row ∈ rows, row.scope ≠ .userAgent → row.agentId = none)
    (hnext : ∀ row ∈ rows, row.id < 10) : MemoryStore :=
  ⟨⟨rows, [], 10⟩, hids, hnext, hunique, hagent, List.nodup_nil,
    fun _ hentry => absurd hentry List.not_mem_nil⟩

def cityStore : MemoryStore :=
  .ofRows [backfilledRow 0 "u1" "city" "Lyon" 1] (by decide)
    (by unfold VersionedTable.UniqueLive; decide) (by decide) (by decide)

def hiddenStore : MemoryStore :=
  .ofRows [backfilledRow 0 "u1" "city" "Lyon" 1, hiddenRow "food" 2] (by decide)
    (by unfold VersionedTable.UniqueLive; decide) (by decide) (by decide)

/-- The hidden rows fill the pool. -/
def crowdedStore : MemoryStore :=
  .ofRows [backfilledRow 0 "u1" "city" "Lyon" 1, hiddenRow "food" 2, hiddenRow "drink" 3,
    hiddenRow "music" 4, hiddenRow "film" 5] (by decide)
    (by unfold VersionedTable.UniqueLive; decide) (by decide) (by decide)

/-- A row in a namespace of blanks, which no policy can be built for. -/
def blankStore : MemoryStore :=
  .ofRows [backfilledRow 0 "u1" "city" "Lyon" 1,
    { backfilledRow 0 "u1" "food" "noted" 2 with nameSpace := " " }] (by decide)
    (by unfold VersionedTable.UniqueLive; decide) (by decide) (by decide)

theorem recall_eq_of_admitted_hiddenFood :
    oneItem.recall true (preferences "default") "city" (some {}) 1 cityStore.tables
      = oneItem.recall true (preferences "default") "city" (some {}) 1 hiddenStore.tables := by
  have hsame : admittedRows oneItem.floats (preferences "default") {} 1 cityStore.tables
      = admittedRows oneItem.floats (preferences "default") {} 1 hiddenStore.tables := by
    decide +kernel
  exact recall_eq_of_admitted oneItem true (preferences "default") "city" {} 1 cityStore hiddenStore
    (fun row => by rw [hsame]) ⟨by decide +kernel, by decide +kernel⟩
    ⟨by decide +kernel, by decide +kernel⟩

/-- Hidden rows that fill the pool, or that the filter raises on, change what a
recall hands out. -/
theorem hidden_rows_change_recall :
    (∀ row, row ∈ admittedRows oneItem.floats (preferences "default") {} 1 cityStore.tables
        ↔ row ∈ admittedRows oneItem.floats (preferences "default") {} 1 crowdedStore.tables)
      ∧ (∀ row, row ∈ admittedRows oneItem.floats (preferences "default") {} 1 cityStore.tables
        ↔ row ∈ admittedRows oneItem.floats (preferences "default") {} 1 blankStore.tables)
      ∧ (oneItem.recall true (preferences "default") "city" (some {}) 1 cityStore.tables).map
        MemoryItem.content = ["Lyon"]
      ∧ oneItem.recall true (preferences "default") "city" (some {}) 1 crowdedStore.tables = []
      ∧ oneItem.recall true (preferences "default") "city" (some {}) 1 blankStore.tables = [] := by
  have hcrowded : admittedRows oneItem.floats (preferences "default") {} 1 cityStore.tables
      = admittedRows oneItem.floats (preferences "default") {} 1 crowdedStore.tables := by
    decide +kernel
  have hblank : admittedRows oneItem.floats (preferences "default") {} 1 cityStore.tables
      = admittedRows oneItem.floats (preferences "default") {} 1 blankStore.tables := by
    decide +kernel
  exact ⟨fun row => by rw [hcrowded], fun row => by rw [hblank], by decide +kernel,
    by decide +kernel, by decide +kernel⟩

end Aegora
