import Mathlib.Data.List.Nodup
import Aegora.Runs

/-!
# Rows, writes and locks

What transactions on tables with a primary key do, whatever the tables are. A
table is a list of rows; a write puts a row over the one with its key or adds
it (`put`). A transaction keeps its writes to itself until it commits, and
holds locks from the statement that takes them to its end. `Exclusive` is what
locking gives: no resource is held by two transactions. It is kept by every
step that takes only what is free.
-/

namespace Transactions

/-! ## Rows with a key -/

section Rows

variable {α κ : Type*} [DecidableEq κ] (key : α → κ)

/-- Write a row over the one with its key, or add it. -/
def put (rows : List α) (row : α) : List α :=
  if key row ∈ rows.map key then rows.map fun old => if key old = key row then row else old
  else rows ++ [row]

/-- Write several rows. -/
def putAll (rows new : List α) : List α := new.foldl (put key) rows

/-- The row with a key. -/
def find (rows : List α) (k : κ) : Option α := rows.find? fun row => decide (key row = k)

variable {key} {rows new : List α} {row : α} {k : κ}

theorem keys_put : (put key rows row).map key
    = if key row ∈ rows.map key then rows.map key else rows.map key ++ [key row] := by
  unfold put
  split
  · rw [List.map_map]
    refine List.map_congr_left fun old _ => ?_
    simp only [Function.comp_apply]
    split
    · rename_i h
      exact h.symm
    · rfl
  · rw [List.map_append, List.map_singleton]

theorem nodup_put (h : (rows.map key).Nodup) : ((put key rows row).map key).Nodup := by
  rw [keys_put]
  split
  · exact h
  · rename_i hrow
    refine List.nodup_append.mpr ⟨h, List.nodup_singleton _, fun a ha b hb hab => hrow ?_⟩
    rw [← List.mem_singleton.mp hb, ← hab]
    exact ha

theorem nodup_putAll (h : (rows.map key).Nodup) : ((putAll key rows new).map key).Nodup := by
  unfold putAll
  induction new generalizing rows with
  | nil => exact h
  | cons first rest ih => exact ih (nodup_put h)

theorem mem_put {other : α} :
    other ∈ put key rows row ↔ other = row ∨ (other ∈ rows ∧ key other ≠ key row) := by
  unfold put
  split
  · rename_i hrow
    rw [List.mem_map]
    constructor
    · rintro ⟨old, hold, rfl⟩
      split
      · exact Or.inl rfl
      · rename_i hkey
        exact Or.inr ⟨hold, hkey⟩
    · rintro (rfl | ⟨hother, hkey⟩)
      · obtain ⟨old, hold, hkey⟩ := List.mem_map.mp hrow
        exact ⟨old, hold, if_pos hkey⟩
      · exact ⟨other, hother, if_neg hkey⟩
  · rename_i hrow
    rw [List.mem_append, List.mem_singleton]
    constructor
    · rintro (hother | rfl)
      · exact Or.inr ⟨hother, fun hkey => hrow (List.mem_map.mpr ⟨other, hother, hkey⟩)⟩
      · exact Or.inl rfl
    · rintro (rfl | ⟨hother, -⟩)
      · exact Or.inr rfl
      · exact Or.inl hother

/-- After the writes: the new rows, and the old ones whose key is not among theirs. -/
theorem mem_putAll (hnew : (new.map key).Nodup) {other : α} :
    other ∈ putAll key rows new
      ↔ other ∈ new ∨ (other ∈ rows ∧ key other ∉ new.map key) := by
  unfold putAll
  induction new generalizing rows with
  | nil => simp
  | cons first rest ih =>
      obtain ⟨hfirst, hrest⟩ := List.nodup_cons.mp hnew
      rw [List.foldl_cons, ih hrest, mem_put, List.mem_cons, List.map_cons, List.mem_cons]
      constructor
      · rintro (h | ⟨rfl | ⟨h, hkey⟩, hmiss⟩)
        · exact Or.inl (Or.inr h)
        · exact Or.inl (Or.inl rfl)
        · exact Or.inr ⟨h, not_or.mpr ⟨hkey, hmiss⟩⟩
      · rintro ((rfl | h) | ⟨h, hkey⟩)
        · exact Or.inr ⟨Or.inl rfl, hfirst⟩
        · exact Or.inl h
        · obtain ⟨hne, hmiss⟩ := not_or.mp hkey
          exact Or.inr ⟨Or.inr ⟨h, hne⟩, hmiss⟩

theorem find_spec (h : find key rows k = some row) : row ∈ rows ∧ key row = k :=
  ⟨List.mem_of_find?_eq_some h, by simpa using List.find?_some h⟩

theorem find_eq_none : find key rows k = none ↔ ∀ row ∈ rows, key row ≠ k := by
  unfold find
  simp

theorem find_eq_some (h : (rows.map key).Nodup) :
    find key rows k = some row ↔ row ∈ rows ∧ key row = k := by
  refine ⟨find_spec, fun ⟨hrow, hkey⟩ => ?_⟩
  cases hfound : find key rows k with
  | none => exact absurd hkey (find_eq_none.mp hfound row hrow)
  | some other =>
      obtain ⟨hother, hkey'⟩ := find_spec hfound
      rw [List.inj_on_of_nodup_map h hother hrow (hkey'.trans hkey.symm)]

theorem map_eq_self {f : α → α} : rows.map f = rows ↔ ∀ row ∈ rows, f row = row := by
  constructor
  · intro h row hrow
    exact List.map_inj_left.mp (h.trans (List.map_id rows).symm) row hrow
  · intro h
    exact (List.map_congr_left h).trans (List.map_id rows)

/-- A write is found under its key, and every other row as before. -/
theorem find_put : find key (put key rows row) k
    = if k = key row then some row else find key rows k := by
  have hmap : ∀ rest : List α,
      (rest.map fun old => if key old = key row then row else old).find?
          (fun other => decide (key other = k))
        = if k = key row then (find key rest k).map fun _ => row else find key rest k := by
    intro rest
    induction rest with
    | nil => simp [find]
    | cons first rest ih =>
        by_cases hfirst : key first = key row <;> by_cases hk : k = key row <;>
          by_cases hkey : key first = k <;> simp_all [find, eq_comm]
  unfold put
  split
  · rename_i hrow
    obtain ⟨old, hold, hkey⟩ := List.mem_map.mp hrow
    refine (hmap rows).trans ?_
    split
    · rename_i hk
      cases hfound : find key rows k with
      | none => exact absurd (hkey.trans hk.symm) (find_eq_none.mp hfound old hold)
      | some other => rfl
    · rfl
  · rename_i hrow
    unfold find
    rw [List.find?_append]
    split
    · rename_i hk
      have hnone : rows.find? (fun other => decide (key other = k)) = none := by
        refine find_eq_none.mpr fun other hother hkey => hrow ?_
        exact List.mem_map.mpr ⟨other, hother, hkey.trans hk⟩
      rw [hnone, hk]
      simp
    · rename_i hk
      simp [Ne.symm hk]

/-- Rows that `f` rewrote are as before after a write exactly when the write puts back one of
them and `f` left the others. -/
theorem put_map_eq_iff {f : α → α} (h : (rows.map key).Nodup)
    (hf : ∀ other, key (f other) = key other) :
    put key (rows.map f) row = rows
      ↔ row ∈ rows ∧ ∀ other ∈ rows, key other ≠ key row → f other = other := by
  have hkeys : (rows.map f).map key = rows.map key := by
    rw [List.map_map]
    exact List.map_congr_left fun other _ => hf other
  have hput : row ∈ rows → put key (rows.map f) row
      = rows.map fun other => if key other = key row then row else f other := by
    intro hrow
    unfold put
    rw [hkeys, if_pos (List.mem_map_of_mem hrow), List.map_map]
    refine List.map_congr_left fun other _ => ?_
    simp only [Function.comp_apply, hf]
  constructor
  · intro heq
    have hrow : row ∈ rows := by
      rw [← heq]
      exact mem_put.mpr (Or.inl rfl)
    refine ⟨hrow, fun other hother hkey => ?_⟩
    have hsame := map_eq_self.mp ((hput hrow).symm.trans heq) other hother
    rwa [if_neg hkey] at hsame
  · rintro ⟨hrow, hothers⟩
    refine (hput hrow).trans (map_eq_self.mpr fun other hother => ?_)
    split
    · rename_i hkey
      exact List.inj_on_of_nodup_map h hrow hother hkey.symm
    · rename_i hkey
      exact hothers other hother hkey

/-- Writing a row that is there changes nothing. -/
theorem put_self (h : (rows.map key).Nodup) (hrow : row ∈ rows) : put key rows row = rows := by
  have hput := (put_map_eq_iff (f := id) h fun _ => rfl).mpr ⟨hrow, fun _ _ _ => rfl⟩
  rwa [List.map_id] at hput

theorem put_of_find_none (h : find key rows (key row) = none) :
    put key rows row = rows ++ [row] := by
  refine if_neg fun hrow => ?_
  obtain ⟨old, hold, hkey⟩ := List.mem_map.mp hrow
  exact find_eq_none.mp h old hold hkey

/-- A column that the write leaves as it is. -/
theorem map_put_of_find {β : Type*} {g : α → β} {old : α} (hkeys : (rows.map key).Nodup)
    (h : find key rows (key row) = some old) (hg : g row = g old) :
    (put key rows row).map g = rows.map g := by
  obtain ⟨hold, hkey⟩ := find_spec h
  have hrow : key row ∈ rows.map key := List.mem_map.mpr ⟨old, hold, hkey⟩
  unfold put
  rw [if_pos hrow, List.map_map]
  refine List.map_congr_left fun other hother => ?_
  simp only [Function.comp_apply]
  split
  · rename_i hsame
    rw [hg, List.inj_on_of_nodup_map hkeys hother hold (hsame.trans hkey.symm)]
  · rfl

/-- The row is there, and nothing else has its key. -/
def Settled (key : α → κ) (rows : List α) (row : α) : Prop :=
  row ∈ rows ∧ ∀ other ∈ rows, key other = key row → other = row

/-- Writing a settled row changes nothing. -/
theorem Settled.put_eq (h : Settled key rows row) : put key rows row = rows := by
  obtain ⟨hrow, hall⟩ := h
  unfold put
  rw [if_pos (List.mem_map_of_mem hrow)]
  refine (List.map_congr_left fun other hother => ?_).trans (List.map_id rows)
  split
  · rename_i hkey
    exact (hall other hother hkey).symm
  · rfl

theorem Settled.putAll_eq (h : ∀ row ∈ new, Settled key rows row) : putAll key rows new = rows := by
  unfold putAll
  induction new with
  | nil => rfl
  | cons first rest ih =>
      rw [List.forall_mem_cons] at h
      rw [List.foldl_cons, h.1.put_eq]
      exact ih h.2

theorem settled_put : Settled key (put key rows row) row := by
  refine ⟨mem_put.mpr (.inl rfl), fun other hother hkey => ?_⟩
  rcases mem_put.mp hother with rfl | ⟨-, hne⟩
  · rfl
  · exact absurd hkey hne

/-- A write under another key leaves it settled. -/
theorem Settled.put_of_ne {other : α} (h : Settled key rows row) (hkey : key other ≠ key row) :
    Settled key (put key rows other) row := by
  refine ⟨mem_put.mpr (.inr ⟨h.1, hkey.symm⟩), fun third hthird hsame => ?_⟩
  rcases mem_put.mp hthird with rfl | ⟨hold, -⟩
  · exact absurd hsame hkey
  · exact h.2 third hold hsame

/-- Rows written with different keys are settled afterwards. -/
theorem settled_putAll (hnew : (new.map key).Nodup) (hrow : row ∈ new) :
    Settled key (putAll key rows new) row := by
  refine ⟨(mem_putAll hnew).mpr (.inl hrow), fun other hother hkey => ?_⟩
  rcases (mem_putAll hnew).mp hother with hnewrow | ⟨-, hold⟩
  · exact List.inj_on_of_nodup_map hnew hnewrow hrow hkey
  · exact absurd (hkey ▸ List.mem_map_of_mem hrow) hold

/-- A key selects one row. -/
theorem filter_key (h : (rows.map key).Nodup) (hrow : row ∈ rows) :
    (rows.filter fun other => decide (key other = key row)) = [row] := by
  induction rows with
  | nil => cases hrow
  | cons first rest ih =>
      obtain ⟨hfirst, hrest⟩ := List.nodup_cons.mp h
      rcases List.mem_cons.mp hrow with rfl | hrow
      · rw [List.filter_cons_of_pos (by simp), List.filter_eq_nil_iff.mpr]
        intro other hother hkey
        exact hfirst (List.mem_map.mpr ⟨other, hother, of_decide_eq_true hkey⟩)
      · rw [List.filter_cons_of_neg, ih hrest hrow]
        intro hkey
        exact hfirst (List.mem_map.mpr ⟨row, hrow, (of_decide_eq_true hkey).symm⟩)

end Rows

/-! ## Locks -/

section Locks

variable {τ ρ : Type*} [DecidableEq ρ] (holds : τ → List ρ)

/-- No transaction other than number `i` holds the resource. -/
def free (txns : List τ) (i : Nat) (r : ρ) : Bool :=
  txns.zipIdx.all fun entry => entry.2 = i || r ∉ holds entry.1

/-- No resource is held by two transactions. -/
def Exclusive (txns : List τ) : Prop :=
  ∀ (i j : Nat) (s t : τ) (r : ρ), i ≠ j → txns[i]? = some s → txns[j]? = some t →
    r ∈ holds s → r ∉ holds t

variable {holds} {txns : List τ} {i : Nat} {s t : τ} {r : ρ}

theorem free_iff :
    free holds txns i r = true ↔ ∀ j t, j ≠ i → txns[j]? = some t → r ∉ holds t := by
  unfold free
  rw [List.all_eq_true]
  constructor
  · intro h j t hj ht
    have hentry := h (t, j) (List.mem_zipIdx_iff_getElem?.mpr ht)
    simpa [hj] using hentry
  · rintro h ⟨t, j⟩ hentry
    by_cases hj : j = i
    · simp [hj]
    · simp [hj, h j t hj (List.mem_zipIdx_iff_getElem?.mp hentry)]

omit [DecidableEq ρ] in
theorem exclusive_nil : Exclusive holds [] := fun _ _ _ _ _ _ h => nomatch h

/-- What a transaction holds is free for it. -/
theorem Exclusive.free (h : Exclusive holds txns) (hi : txns[i]? = some s) (hr : r ∈ holds s) :
    Transactions.free holds txns i r = true :=
  free_iff.mpr fun j t hj ht => h i j s t r (Ne.symm hj) hi ht hr

/-- A transaction that takes only what is free keeps the locks exclusive. -/
theorem Exclusive.set (h : Exclusive holds txns) (hi : txns[i]? = some s)
    (ht : ∀ r ∈ holds t, r ∈ holds s ∨ Transactions.free holds txns i r = true) :
    Exclusive holds (txns.set i t) := by
  have hfree : ∀ r ∈ holds t, ∀ j u, j ≠ i → txns[j]? = some u → r ∉ holds u := by
    intro r hr j u hj hu
    rcases ht r hr with hs | hfree
    · exact h i j s u r (Ne.symm hj) hi hu hs
    · exact free_iff.mp hfree j u hj hu
  intro a b u v r hab hu hv hr
  rw [Runs.getElem?_set_iff hi] at hu hv
  rcases hu with ⟨rfl, rfl⟩ | ⟨ha, hu⟩ <;> rcases hv with ⟨rfl, rfl⟩ | ⟨hb, hv⟩
  · exact absurd rfl hab
  · exact hfree r hr b v hb hv
  · exact fun hr' => hfree r hr' a u ha hu hr
  · exact h a b u v r hab hu hv hr

omit [DecidableEq ρ] in
/-- A new transaction holds nothing. -/
theorem Exclusive.snoc (h : Exclusive holds txns) (ht : holds t = []) :
    Exclusive holds (txns ++ [t]) := by
  intro a b u v r hab hu hv hr
  rcases Runs.getElem?_snoc_iff.mp hu with ⟨-, rfl⟩ | hu
  · rw [ht] at hr
    cases hr
  · rcases Runs.getElem?_snoc_iff.mp hv with ⟨-, rfl⟩ | hv
    · rw [ht]
      exact List.not_mem_nil
    · exact h a b u v r hab hu hv hr

end Locks

end Transactions
