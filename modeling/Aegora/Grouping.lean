import Mathlib.Data.List.Induction
import Mathlib.Data.List.Nodup

/-!
# Grouping by keys

A loop that reads keyed items and keeps one entry for each key, in the order in
which the keys come first: `put` updates the entry of a known key in its place
and appends one for a new key. `group` runs it over a list. Its keys are those of
the list without repetition (`keys_group`), and the entry of a key is the fold of
the items with that key alone (`mem_group_iff`).
-/

namespace Grouping

variable {κ α β : Type*} [DecidableEq κ]

/-! ## The first occurrences -/

omit [DecidableEq κ] in
theorem eraseDups_sublist [BEq κ] [LawfulBEq κ] : ∀ ks : List κ, ks.eraseDups.Sublist ks
  | [] => List.Sublist.slnil
  | k :: ks => by
      rw [List.eraseDups_cons]
      exact ((eraseDups_sublist _).trans List.filter_sublist).cons_cons k
termination_by ks => ks.length
decreasing_by exact Nat.lt_succ_of_le (List.length_filter_le _ _)

omit [DecidableEq κ] in
theorem nodup_eraseDups [BEq κ] [LawfulBEq κ] : ∀ ks : List κ, ks.eraseDups.Nodup
  | [] => List.nodup_nil
  | k :: ks => by
      rw [List.eraseDups_cons, List.nodup_cons]
      refine ⟨fun hmem => ?_, nodup_eraseDups _⟩
      simpa using (List.mem_filter.mp (List.mem_eraseDups.mp hmem)).2
termination_by ks => ks.length
decreasing_by exact Nat.lt_succ_of_le (List.length_filter_le _ _)

theorem eraseDups_concat (ks : List κ) (k : κ) :
    (ks ++ [k]).eraseDups = if k ∈ ks then ks.eraseDups else ks.eraseDups ++ [k] := by
  rw [List.eraseDups_append]
  by_cases h : k ∈ ks
  · simp [h, List.removeAll]
  · simp [h, List.removeAll, List.eraseDups_cons]

/-- Some `a` stands before every `b`. -/
def Before (ks : List κ) (a b : κ) : Prop :=
  ∃ front rest, ks = front ++ a :: rest ∧ b ∉ front ++ [a]

omit [DecidableEq κ] in
theorem Before.append {ks : List κ} {a b : κ} (h : Before ks a b) (more : List κ) :
    Before (ks ++ more) a b := by
  obtain ⟨front, rest, rfl, hb⟩ := h
  exact ⟨front, rest ++ more, by simp, hb⟩

/-- The first occurrences keep their order. -/
theorem pairwise_eraseDups (ks : List κ) : ks.eraseDups.Pairwise (Before ks) := by
  induction ks using List.reverseRecOn with
  | nil => exact List.Pairwise.nil
  | append_singleton ks k ih =>
      have hkept := ih.imp fun {a b} (h : Before ks a b) => h.append [k]
      rw [eraseDups_concat]
      split
      · exact hkept
      · rename_i hnew
        refine List.pairwise_append.mpr ⟨hkept, List.pairwise_singleton _ _, ?_⟩
        intro a ha b hb
        obtain rfl := List.mem_singleton.mp hb
        obtain ⟨front, rest, hks⟩ := List.append_of_mem (List.mem_eraseDups.mp ha)
        refine ⟨front, rest ++ [b], by rw [hks]; simp, fun hmem => hnew ?_⟩
        rw [hks]
        rcases List.mem_append.mp hmem with h | h
        · exact List.mem_append_left _ h
        · rw [List.mem_singleton.mp h]
          exact List.mem_append_right _ List.mem_cons_self

/-! ## The loop -/

variable (update : Option β → α → β)

/-- The entry of a known key is updated, a new key gets an entry at the end. -/
def put (entries : List (κ × β)) (item : κ × α) : List (κ × β) :=
  if item.1 ∈ entries.map Prod.fst then
    entries.map fun entry =>
      if entry.1 = item.1 then (entry.1, update (some entry.2) item.2) else entry
  else entries ++ [(item.1, update none item.2)]

def group (items : List (κ × α)) : List (κ × β) := items.foldl (put update) []

/-- What the items of one key are folded to, `none` without items. -/
def gather (items : List α) : Option β :=
  items.foldl (fun entry item => some (update entry item)) none

/-- The items of a key. -/
def itemsAt (items : List (κ × α)) (k : κ) : List α :=
  (items.filter fun item => item.1 = k).map Prod.snd

theorem mem_itemsAt {items : List (κ × α)} {k : κ} {item : α} :
    item ∈ itemsAt items k ↔ (k, item) ∈ items := by
  unfold itemsAt
  constructor
  · intro h
    obtain ⟨⟨l, item⟩, hmem, rfl⟩ := List.mem_map.mp h
    obtain ⟨hmem, hkey⟩ := List.mem_filter.mp hmem
    rwa [← of_decide_eq_true hkey]
  · exact fun h => List.mem_map.mpr ⟨(k, item), List.mem_filter.mpr ⟨h, by simp⟩, rfl⟩

theorem itemsAt_map {γ : Type*} (f : α → γ) (items : List (κ × α)) (k : κ) :
    itemsAt (items.map fun item => (item.1, f item.2)) k = (itemsAt items k).map f := by
  unfold itemsAt
  rw [List.filter_map, List.map_map, List.map_map]
  rfl

theorem itemsAt_flatMap {γ : Type*} (f : γ → List (κ × α)) (xs : List γ) (k : κ) :
    itemsAt (xs.flatMap f) k = xs.flatMap fun x => itemsAt (f x) k := by
  unfold itemsAt
  rw [List.filter_flatMap, List.map_flatMap]

theorem group_concat (items : List (κ × α)) (item : κ × α) :
    group update (items ++ [item]) = put update (group update items) item := by
  simp [group]

theorem gather_concat (items : List α) (item : α) :
    gather update (items ++ [item]) = some (update (gather update items) item) := by
  simp [gather]

theorem itemsAt_concat (items : List (κ × α)) (item : κ × α) (k : κ) :
    itemsAt (items ++ [item]) k
      = if item.1 = k then itemsAt items k ++ [item.2] else itemsAt items k := by
  unfold itemsAt
  rw [List.filter_append]
  split <;> simp_all

theorem keys_put (entries : List (κ × β)) (item : κ × α) :
    (put update entries item).map Prod.fst
      = if item.1 ∈ entries.map Prod.fst then entries.map Prod.fst
        else entries.map Prod.fst ++ [item.1] := by
  unfold put
  split
  · rw [List.map_map]
    refine List.map_congr_left fun entry _ => ?_
    simp only [Function.comp_apply]
    split <;> rfl
  · rw [List.map_append, List.map_singleton]

/-- The keys, in the order in which they come first. -/
theorem keys_group (items : List (κ × α)) :
    (group update items).map Prod.fst = (items.map Prod.fst).eraseDups := by
  induction items using List.reverseRecOn with
  | nil => rfl
  | append_singleton items item ih =>
      rw [group_concat, keys_put, ih, List.map_append, List.map_singleton, eraseDups_concat]
      simp only [List.mem_eraseDups]

theorem nodup_keys_group (items : List (κ × α)) : ((group update items).map Prod.fst).Nodup := by
  rw [keys_group]
  exact nodup_eraseDups _

theorem itemsAt_eq_nil {items : List (κ × α)} {k : κ} (h : k ∉ items.map Prod.fst) :
    itemsAt items k = [] := by
  unfold itemsAt
  rw [List.map_eq_nil_iff, List.filter_eq_nil_iff]
  intro item hitem heq
  exact h (List.mem_map.mpr ⟨item, hitem, of_decide_eq_true heq⟩)

/-- The entry of a key is the fold of its own items. -/
theorem mem_group_iff {items : List (κ × α)} {k : κ} {entry : β} :
    (k, entry) ∈ group update items ↔ gather update (itemsAt items k) = some entry := by
  induction items using List.reverseRecOn generalizing entry with
  | nil => simp [group, gather, itemsAt]
  | append_singleton items item ih =>
      rw [group_concat, itemsAt_concat]
      have hkeys := keys_group update items
      unfold put
      split
      · rename_i hknown
        simp only [List.mem_map]
        split
        · rename_i heq
          subst heq
          rw [gather_concat]
          constructor
          · rintro ⟨⟨l, old⟩, hold, hnew⟩
            split at hnew
            · rename_i hl
              obtain ⟨rfl, rfl⟩ := Prod.mk.inj hnew
              rw [ih.mp hold]
            · rename_i hl
              obtain ⟨rfl, -⟩ := Prod.mk.inj hnew
              exact absurd rfl hl
          · intro hentry
            obtain ⟨⟨l, old⟩, hold, hl⟩ := List.mem_map.mp hknown
            simp only at hl
            subst hl
            refine ⟨(item.1, old), hold, ?_⟩
            rw [if_pos rfl, ← Option.some.inj hentry, ih.mp hold]
        · rename_i hne
          rw [← ih]
          constructor
          · rintro ⟨⟨l, old⟩, hold, hnew⟩
            split at hnew
            · rename_i hl
              obtain ⟨rfl, -⟩ := Prod.mk.inj hnew
              exact absurd hl.symm hne
            · rwa [← hnew]
          · exact fun hentry => ⟨(k, entry), hentry, if_neg (Ne.symm hne)⟩
      · rename_i hnew
        rw [hkeys, List.mem_eraseDups] at hnew
        rw [List.mem_append, List.mem_singleton, ih]
        split
        · rename_i heq
          subst heq
          rw [gather_concat, itemsAt_eq_nil hnew]
          simp [gather, eq_comm]
        · rename_i hne
          constructor
          · rintro (h | h)
            · exact h
            · exact absurd (Prod.mk.inj h).1.symm hne
          · exact Or.inl

/-- A loop that reads an item and puts it reads all items and groups them. -/
theorem foldlM_put {ε ρ : Type*} {κ α β : Type _} [DecidableEq κ] (update : Option β → α → β)
    (read : ρ → Except ε (κ × α)) (rows : List ρ) (entries : List (κ × β)) :
    rows.foldlM (fun entries row => (read row).map (put update entries)) entries
      = (rows.mapM read).map fun items => items.foldl (put update) entries := by
  induction rows generalizing entries with
  | nil => rfl
  | cons row rows ih =>
      rw [List.foldlM_cons, List.mapM_cons]
      cases read row with
      | error e => rfl
      | ok item =>
          change rows.foldlM _ (put update entries item) = _
          rw [ih]
          cases rows.mapM read <;> rfl

end Grouping
