import Mathlib.Data.List.Nodup

/-!
# Tables that keep old versions

A table keeps every version of a keyed value as a row of its own and marks
the one that counts as live. Rows are never deleted: a version is retired in
place and a new one is appended. With at most one live row for a key
(`UniqueLive`) the table is a partial map from keys to live rows (`current`),
and retiring and appending are updates of that map.
-/

namespace VersionedTable

variable {ρ κ : Type*} [DecidableEq κ] (key : ρ → κ) (live : ρ → Bool)

/-- The live row of a key. -/
def current (rows : List ρ) (k : κ) : Option ρ :=
  rows.find? fun row => decide (key row = k) && live row

/-- At most one live row for each key. -/
def UniqueLive (rows : List ρ) : Prop := ((rows.filter live).map key).Nodup

/-- Retire the rows that `p` selects; `out` is what becomes of one. -/
def retire (p : ρ → Bool) (out : ρ → ρ) (rows : List ρ) : List ρ :=
  rows.map fun row => if p row then out row else row

variable {key live} {rows : List ρ} {k : κ} {row : ρ}

theorem current_spec (h : current key live rows k = some row) :
    row ∈ rows ∧ key row = k ∧ live row = true := by
  have hp := List.find?_some h
  rw [Bool.and_eq_true, decide_eq_true_eq] at hp
  exact ⟨List.mem_of_find?_eq_some h, hp⟩

theorem current_eq_none :
    current key live rows k = none ↔ ∀ row ∈ rows, key row = k → live row = false := by
  unfold current
  rw [List.find?_eq_none]
  refine forall₂_congr fun row _ => ?_
  by_cases hk : key row = k <;> simp [hk]

theorem current_eq_some (h : UniqueLive key live rows) :
    current key live rows k = some row ↔ row ∈ rows ∧ key row = k ∧ live row = true := by
  refine ⟨current_spec, fun ⟨hmem, hkey, hlive⟩ => ?_⟩
  cases hfound : current key live rows k with
  | none => rw [current_eq_none.mp hfound row hmem hkey] at hlive; cases hlive
  | some other =>
      obtain ⟨hother, hkey', hlive'⟩ := current_spec hfound
      have hsame := List.inj_on_of_nodup_map h (List.mem_filter.mpr ⟨hother, hlive'⟩)
        (List.mem_filter.mpr ⟨hmem, hlive⟩) (hkey'.trans hkey.symm)
      rw [hsame]

theorem current_append (new : List ρ) :
    current key live (rows ++ new) k
      = (current key live rows k).or (current key live new k) := by
  unfold current
  exact List.find?_append

omit [DecidableEq κ] in
theorem live_keys_nodup (h : UniqueLive key live rows) (p : ρ → Bool) :
    ((rows.filter fun row => p row && live row).map key).Nodup := by
  rw [← List.filter_filter]
  exact h.sublist (List.filter_sublist.map key)

/-- What `current` looks for is there once at most. -/
theorem length_filter_live_le (h : UniqueLive key live rows) (k : κ) :
    (rows.filter fun row => decide (key row = k) && live row).length ≤ 1 := by
  have hnodup := live_keys_nodup h fun row => decide (key row = k)
  have hsame : (rows.filter fun row => decide (key row = k) && live row).map key
      = List.replicate (rows.filter fun row => decide (key row = k) && live row).length k := by
    rw [List.eq_replicate_iff]
    refine ⟨List.length_map _, fun l hl => ?_⟩
    obtain ⟨row, hrow, rfl⟩ := List.mem_map.mp hl
    have hp := (List.mem_filter.mp hrow).2
    rw [Bool.and_eq_true, decide_eq_true_eq] at hp
    exact hp.1
  rw [hsame, List.nodup_replicate] at hnodup
  exact hnodup

/-! ## Tables that are read through a function -/

section Map

variable {σ : Type*} {f : σ → ρ} {rows : List σ}

theorem current_map :
    current key live (rows.map f) k = (current (key ∘ f) (live ∘ f) rows k).map f := by
  unfold current
  rw [List.find?_map]
  rfl

omit [DecidableEq κ] in
theorem uniqueLive_map :
    UniqueLive key live (rows.map f) ↔ UniqueLive (key ∘ f) (live ∘ f) rows := by
  unfold UniqueLive
  rw [List.filter_map, List.map_map]

omit [DecidableEq κ] in
theorem retire_map {p : ρ → Bool} {out : ρ → ρ} {out' : σ → σ}
    (h : ∀ row, f (out' row) = out (f row)) :
    retire p out (rows.map f) = (retire (p ∘ f) out' rows).map f := by
  unfold retire
  rw [List.map_map, List.map_map]
  refine List.map_congr_left fun row _ => ?_
  simp only [Function.comp_apply]
  split
  · exact (h row).symm
  · rfl

end Map

/-! ## Retiring -/

section Retire

variable {p : ρ → Bool} {out : ρ → ρ}

theorem mem_retire : row ∈ retire p out rows
    ↔ (row ∈ rows ∧ p row = false) ∨ ∃ old ∈ rows, p old = true ∧ row = out old := by
  unfold retire
  rw [List.mem_map]
  constructor
  · rintro ⟨old, hold, rfl⟩
    cases hp : p old with
    | true => exact Or.inr ⟨old, hold, hp, if_pos rfl⟩
    | false => exact Or.inl ⟨by simpa using hold, by simpa using hp⟩
  · rintro (⟨hrow, hp⟩ | ⟨old, hold, hp, rfl⟩)
    · exact ⟨row, hrow, by simp [hp]⟩
    · exact ⟨old, hold, by simp [hp]⟩

theorem retire_eq_self (h : ∀ row ∈ rows, p row = false) : retire p out rows = rows := by
  unfold retire
  rw [List.map_congr_left fun row hrow => if_neg (by rw [h row hrow]; exact Bool.false_ne_true)]
  exact List.map_id' rows

theorem retire_congr {q : ρ → Bool} (h : ∀ row ∈ rows, p row = q row) :
    retire p out rows = retire q out rows := by
  unfold retire
  exact List.map_congr_left fun row hrow => by rw [h row hrow]

theorem map_retire {γ : Type*} {f : ρ → γ} (h : ∀ row, f (out row) = f row) :
    (retire p out rows).map f = rows.map f := by
  unfold retire
  rw [List.map_map]
  refine List.map_congr_left fun row _ => ?_
  simp only [Function.comp_apply]
  split
  · exact h row
  · rfl

theorem filter_live_retire (hlive : ∀ row, live (out row) = false) :
    (retire p out rows).filter live = (rows.filter live).filter fun row => !p row := by
  unfold retire
  induction rows with
  | nil => rfl
  | cons row rest ih =>
      rw [List.map_cons, List.filter_cons, List.filter_cons, ih]
      cases hp : p row with
      | true => cases hrow : live row <;> simp [hlive, hp]
      | false => cases hrow : live row <;> simp [hrow, hp]

omit [DecidableEq κ] in
theorem uniqueLive_retire (hlive : ∀ row, live (out row) = false)
    (h : UniqueLive key live rows) : UniqueLive key live (retire p out rows) := by
  unfold UniqueLive
  rw [filter_live_retire hlive]
  exact h.sublist (List.filter_sublist.map key)

/-- Retiring takes the selected rows out of the map. -/
theorem current_retire (hlive : ∀ row, live (out row) = false) (h : UniqueLive key live rows) :
    current key live (retire p out rows) k
      = (current key live rows k).filter fun row => !p row := by
  refine Option.ext fun row => ?_
  rw [current_eq_some (uniqueLive_retire hlive h), Option.filter_eq_some_iff,
    current_eq_some h, mem_retire]
  constructor
  · rintro ⟨hmem, hkey, hrow⟩
    rcases hmem with ⟨hmem, hp⟩ | ⟨old, -, -, rfl⟩
    · exact ⟨⟨hmem, hkey, hrow⟩, by simp [hp]⟩
    · rw [hlive] at hrow
      cases hrow
  · rintro ⟨⟨hmem, hkey, hrow⟩, hp⟩
    exact ⟨Or.inl ⟨hmem, by simpa using hp⟩, hkey, hrow⟩

end Retire

/-! ## Appending -/

theorem uniqueLive_append {new : List ρ} (h : UniqueLive key live rows)
    (hnew : UniqueLive key live new)
    (hfree : ∀ row ∈ new, live row = true → current key live rows (key row) = none) :
    UniqueLive key live (rows ++ new) := by
  unfold UniqueLive
  rw [List.filter_append, List.map_append, List.nodup_append]
  refine ⟨h, hnew, fun k hk l hl heq => ?_⟩
  obtain ⟨old, hold, rfl⟩ := List.mem_map.mp hk
  obtain ⟨row, hrow, rfl⟩ := List.mem_map.mp hl
  obtain ⟨hold, hlive⟩ := List.mem_filter.mp hold
  obtain ⟨hrow, hlive'⟩ := List.mem_filter.mp hrow
  rw [current_eq_none.mp (hfree row hrow hlive') old hold heq] at hlive
  cases hlive

end VersionedTable
