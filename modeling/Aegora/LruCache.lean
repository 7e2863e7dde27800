import Mathlib.Data.List.Nodup

/-!
# Bounded caches in the order of use

A cache that keeps its entries in a list, the one used last at the end. An
entry that is read or written moves to the end (`touch`); when there are too
many, the first ones go (`trim`). Against the record of all uses the list is
`Ordered`: whatever stands later has been used since. So what is evicted has
been used less recently than everything that stays.
-/

namespace LruCache

variable {κ ν : Type*} [DecidableEq κ]

/-- The value of a key. -/
def find (entries : List (κ × ν)) (k : κ) : Option ν :=
  (entries.find? fun entry => decide (entry.1 = k)).map Prod.snd

/-- The entries without a key. -/
def erase (entries : List (κ × ν)) (k : κ) : List (κ × ν) :=
  entries.filter fun entry => decide (entry.1 ≠ k)

/-- Put a key at the end, with this value. -/
def touch (entries : List (κ × ν)) (k : κ) (v : ν) : List (κ × ν) := erase entries k ++ [(k, v)]

/-- Evict from the front while there are more than `capacity` entries. -/
def trim (capacity : Nat) : List (κ × ν) → List (κ × ν)
  | [] => []
  | entry :: rest =>
      if capacity < (entry :: rest).length then trim capacity rest else entry :: rest

/-- Write an entry. -/
def set (capacity : Nat) (entries : List (κ × ν)) (k : κ) (v : ν) : List (κ × ν) :=
  trim capacity (touch entries k v)

/-- After the last use of `a` there is one of `b`. -/
def Since (uses : List κ) (a b : κ) : Prop :=
  ∃ before after, uses = before ++ after ∧ a ∉ after ∧ b ∈ after

/-- Each key once, in the order of last use. -/
structure Ordered (uses : List κ) (entries : List (κ × ν)) : Prop where
  keys : (entries.map Prod.fst).Nodup
  order : (entries.map Prod.fst).Pairwise (Since uses)

variable {uses : List κ} {entries : List (κ × ν)} {entry : κ × ν} {k : κ} {v : ν} {capacity : Nat}

theorem find_spec (h : find entries k = some v) : (k, v) ∈ entries := by
  obtain ⟨⟨k', v'⟩, hentry, rfl⟩ := Option.map_eq_some_iff.mp h
  have hkey := List.find?_some hentry
  rw [decide_eq_true_eq] at hkey
  rw [← hkey]
  exact List.mem_of_find?_eq_some hentry

theorem find_erase (entries : List (κ × ν)) (k other : κ) :
    find (erase entries k) other = if other = k then none else find entries other := by
  induction entries with
  | nil => simp [find, erase]
  | cons entry rest ih =>
      obtain ⟨k', v⟩ := entry
      unfold find erase at ih ⊢
      by_cases hk : k' = k
      · subst hk
        rw [List.filter_cons_of_neg (by simp), ih]
        by_cases hother : other = k'
        · simp [hother]
        · rw [if_neg hother, if_neg hother, List.find?_cons_of_neg (by simpa using Ne.symm hother)]
      · rw [List.filter_cons_of_pos (by simpa using hk)]
        by_cases hother : k' = other
        · subst hother
          simp [hk]
        · rw [List.find?_cons_of_neg (by simpa using hother), ih,
            List.find?_cons_of_neg (by simpa using hother)]

theorem mem_touch :
    entry ∈ touch entries k v ↔ entry = (k, v) ∨ (entry ∈ entries ∧ entry.1 ≠ k) := by
  unfold touch erase
  rw [List.mem_append, List.mem_singleton, List.mem_filter, decide_eq_true_eq, or_comm]

omit [DecidableEq κ] in
theorem trim_suffix : trim capacity entries <:+ entries := by
  induction entries with
  | nil => exact List.suffix_refl _
  | cons entry rest ih =>
      rw [trim]
      split
      · exact ih.trans (List.suffix_cons _ _)
      · exact List.suffix_refl _

omit [DecidableEq κ] in
theorem length_trim : (trim capacity entries).length ≤ capacity := by
  induction entries with
  | nil => exact Nat.zero_le _
  | cons entry rest ih =>
      rw [trim]
      split
      · exact ih
      · rename_i h
        exact Nat.le_of_not_lt h

omit [DecidableEq κ] in
/-- Nothing is evicted below the capacity. -/
theorem trim_eq_self (h : entries.length ≤ capacity) : trim capacity entries = entries := by
  cases entries with
  | nil => rfl
  | cons entry rest => exact if_neg (Nat.not_lt_of_le h)

omit [DecidableEq κ] in
/-- A cache that has evicted something is full. -/
theorem length_trim_of_lt (h : capacity < entries.length) :
    (trim capacity entries).length = capacity := by
  induction entries with
  | nil => exact absurd h (Nat.not_lt_zero _)
  | cons entry rest ih =>
      rw [trim, if_pos h]
      by_cases hrest : capacity < rest.length
      · exact ih hrest
      · rw [trim_eq_self (Nat.le_of_not_lt hrest)]
        rw [List.length_cons] at h
        omega

/-- A key that is read takes no more room. -/
theorem length_touch (h : find entries k = some v) :
    (touch entries k v).length ≤ entries.length := by
  unfold touch
  rw [List.length_append, List.length_singleton]
  refine List.length_filter_lt_length_iff_exists.mpr ⟨(k, v), find_spec h, ?_⟩
  simp

omit [DecidableEq κ] in
/-- The last entry is not evicted. -/
theorem mem_trim_concat (h : 0 < capacity) : entry ∈ trim capacity (entries ++ [entry]) := by
  induction entries with
  | nil =>
      have hself : trim capacity [entry] = [entry] := trim_eq_self h
      rw [List.nil_append, hself]
      exact List.mem_singleton.mpr rfl
  | cons first rest ih =>
      rw [List.cons_append, trim]
      split
      · exact ih
      · rw [← List.cons_append]
        exact List.mem_append_right _ (List.mem_singleton.mpr rfl)

theorem mem_set_self (h : 0 < capacity) : (k, v) ∈ set capacity entries k v := mem_trim_concat h

theorem length_set : (set capacity entries k v).length ≤ capacity := length_trim

theorem mem_set (h : entry ∈ set capacity entries k v) :
    entry = (k, v) ∨ (entry ∈ entries ∧ entry.1 ≠ k) :=
  mem_touch.mp (trim_suffix.subset h)

/-! ## The order of use -/

omit [DecidableEq κ] in
theorem Since.snoc {a b : κ} (h : Since uses a b) (hk : k ≠ a) : Since (uses ++ [k]) a b := by
  obtain ⟨before, after, rfl, ha, hb⟩ := h
  refine ⟨before, after ++ [k], by rw [List.append_assoc], ?_, List.mem_append_left _ hb⟩
  rw [List.mem_append, List.mem_singleton]
  rintro (hafter | rfl)
  · exact ha hafter
  · exact hk rfl

omit [DecidableEq κ] in
theorem since_used {a : κ} (hk : k ≠ a) : Since (uses ++ [k]) a k :=
  ⟨uses, [k], rfl, by simpa using hk.symm, List.mem_singleton.mpr rfl⟩

namespace Ordered

omit [DecidableEq κ] in
theorem nil : Ordered uses ([] : List (κ × ν)) := ⟨List.nodup_nil, List.Pairwise.nil⟩

omit [DecidableEq κ] in
theorem sublist {entries' : List (κ × ν)} (h : Ordered uses entries)
    (hsub : entries'.Sublist entries) : Ordered uses entries' :=
  ⟨h.keys.sublist (hsub.map _), h.order.sublist (hsub.map _)⟩

theorem erase (h : Ordered uses entries) (k : κ) : Ordered uses (erase entries k) :=
  h.sublist List.filter_sublist

theorem touch (h : Ordered uses entries) (k : κ) (v : ν) :
    Ordered (uses ++ [k]) (touch entries k v) := by
  have herased := h.erase k
  have hmiss : ∀ a ∈ (LruCache.erase entries k).map Prod.fst, k ≠ a := by
    rintro _ ha rfl
    obtain ⟨entry, hentry, hkey⟩ := List.mem_map.mp ha
    exact of_decide_eq_true (List.mem_filter.mp hentry).2 hkey
  constructor
  · rw [LruCache.touch, List.map_append, List.map_singleton, List.nodup_append]
    refine ⟨herased.keys, List.nodup_singleton _, fun a ha b hb hab => ?_⟩
    rw [List.mem_singleton.mp hb] at hab
    exact hmiss a ha hab.symm
  · rw [LruCache.touch, List.map_append, List.map_singleton, List.pairwise_append]
    refine ⟨herased.order.imp_of_mem fun ha _ hab => hab.snoc (hmiss _ ha),
      List.pairwise_singleton _ _, fun a ha b hb => ?_⟩
    rw [List.mem_singleton.mp hb]
    exact since_used (hmiss a ha)

theorem set (h : Ordered uses entries) (capacity : Nat) (k : κ) (v : ν) :
    Ordered (uses ++ [k]) (set capacity entries k v) :=
  (h.touch k v).sublist trim_suffix.sublist

/-- What a write evicts has been used less recently than everything that stays, and the
cache is full. -/
theorem evicted (h : Ordered uses entries) (hlength : entries.length ≤ capacity) {a : κ}
    (ha : a ∈ entries.map Prod.fst) (hgone : a ∉ (LruCache.set capacity entries k v).map Prod.fst) :
    (LruCache.set capacity entries k v).length = capacity
      ∧ ∀ b ∈ (LruCache.set capacity entries k v).map Prod.fst, Since (uses ++ [k]) a b := by
  have hk : a ≠ k := by
    rintro rfl
    have hpos : 0 < capacity := by
      refine Nat.lt_of_lt_of_le (List.length_pos_of_mem ha) ?_
      rw [List.length_map]
      exact hlength
    exact hgone (List.mem_map_of_mem (mem_set_self hpos))
  obtain ⟨first, hfirst⟩ : ∃ first, first ++ LruCache.set capacity entries k v
      = LruCache.touch entries k v := trim_suffix
  have hthere : a ∈ (LruCache.touch entries k v).map Prod.fst := by
    obtain ⟨entry, hentry, rfl⟩ := List.mem_map.mp ha
    exact List.mem_map_of_mem (mem_touch.mpr (Or.inr ⟨hentry, hk⟩))
  rw [← hfirst, List.map_append, List.mem_append] at hthere
  have hevicted : a ∈ first.map Prod.fst := hthere.resolve_right hgone
  refine ⟨?_, ?_⟩
  · by_cases hlength : capacity < (LruCache.touch entries k v).length
    · exact length_trim_of_lt hlength
    · have hself : LruCache.set capacity entries k v = LruCache.touch entries k v :=
        trim_eq_self (Nat.le_of_not_lt hlength)
      rw [hself, ← hfirst, List.map_append] at hgone
      exact absurd (List.mem_append_left _ hevicted) hgone
  · intro b hb
    have horder := (h.touch k v).order
    rw [← hfirst, List.map_append, List.pairwise_append] at horder
    exact horder.2.2 a hevicted b hb

end Ordered

end LruCache
