import Mathlib.Data.String.Basic
import Mathlib.Order.Bounds.Basic
import Aegora.RuntimeAuthz

/-!
# Scopes as sets of grants

What a scope stands for is the set of its pairs of a key and an allowed value
(`Scope.grants`), and `scope_is_subset` is inclusion of these sets. Over them
`merge_tool_scopes` is the least upper bound of the rows of each tool. Its
result is sorted at every level, so it is a function of the rows as a set.

The Control Plane has its own copies of the three functions; they only raise
another exception.
-/

namespace Aegora

open Py

/-! ## Sorted lists are determined by what is in them -/

theorem lt_of_mem_insertSorted {x y : String} {xs : List String} (hx : y < x)
    (h : ∀ z ∈ xs, y < z) : ∀ z ∈ insertSorted x xs, y < z := by
  intro z hz
  rcases mem_insertSorted.mp hz with rfl | hz
  · exact hx
  · exact h z hz

theorem pairwise_insertSorted (x : String) {xs : List String} (h : xs.Pairwise (· < ·)) :
    (insertSorted x xs).Pairwise (· < ·) := by
  induction xs with
  | nil => simp [insertSorted]
  | cons y ys ih =>
      rw [List.pairwise_cons] at h
      unfold insertSorted
      split
      · exact List.pairwise_cons.mpr h
      · rename_i hne
        split
        · rename_i hlt
          refine List.pairwise_cons.mpr ⟨?_, List.pairwise_cons.mpr h⟩
          intro z hz
          rcases List.mem_cons.mp hz with rfl | hz
          · exact hlt
          · exact hlt.trans (h.1 z hz)
        · rename_i hle
          have hyx : y < x := lt_of_le_of_ne (not_lt.mp hle) (Ne.symm hne)
          exact List.pairwise_cons.mpr ⟨lt_of_mem_insertSorted hyx h.1, ih h.2⟩

theorem pairwise_sortedSet (xs : List String) : (sortedSet xs).Pairwise (· < ·) := by
  induction xs with
  | nil => exact List.Pairwise.nil
  | cons x xs ih => exact pairwise_insertSorted x ih

/-- `sorted(set(xs))` only depends on the set. -/
theorem sortedSet_congr {xs ys : List String} (h : ∀ x, x ∈ xs ↔ x ∈ ys) :
    sortedSet xs = sortedSet ys := by
  have hnodup : ∀ zs : List String, (sortedSet zs).Nodup := fun zs =>
    (pairwise_sortedSet zs).imp ne_of_lt
  refine List.Perm.eq_of_pairwise (fun a b _ _ hab hba => absurd (hab.trans hba) (lt_irrefl a))
    (pairwise_sortedSet xs) (pairwise_sortedSet ys) ?_
  refine (List.perm_ext_iff_of_nodup (hnodup xs) (hnodup ys)).mpr fun x => ?_
  rw [mem_sortedSet, mem_sortedSet, h]

theorem pairwise_insertItem {β : Type*} (kv : String × β) {d : List (String × β)}
    (h : d.Pairwise (·.1 ≤ ·.1)) : (insertItem kv d).Pairwise (·.1 ≤ ·.1) := by
  induction d with
  | nil => simp [insertItem]
  | cons l rest ih =>
      rw [List.pairwise_cons] at h
      unfold insertItem
      split
      · rename_i hlt
        refine List.pairwise_cons.mpr ⟨?_, List.pairwise_cons.mpr h⟩
        intro z hz
        rcases List.mem_cons.mp hz with rfl | hz
        · exact hlt.le
        · exact hlt.le.trans (h.1 z hz)
      · rename_i hle
        refine List.pairwise_cons.mpr ⟨?_, ih h.2⟩
        intro z hz
        rcases List.mem_cons.mp ((insertItem_perm kv rest).mem_iff.mp hz) with rfl | hz
        · exact not_lt.mp hle
        · exact h.1 z hz

theorem pairwise_sortItems {β : Type*} (d : List (String × β)) :
    (sortItems d).Pairwise (·.1 ≤ ·.1) := by
  induction d with
  | nil => exact List.Pairwise.nil
  | cons kv rest ih => exact pairwise_insertItem kv ih

/-- A sorted dictionary only depends on what its keys read. -/
theorem sortItems_congr {β : Type*} {d e : List (String × β)} (hd : (d.map Prod.fst).Nodup)
    (he : (e.map Prod.fst).Nodup) (h : ∀ k, Dict.get? d k = Dict.get? e k) :
    sortItems d = sortItems e := by
  have hmem : ∀ kv, kv ∈ d ↔ kv ∈ e := by
    rintro ⟨k, v⟩
    rw [← lookup_eq_some_iff_mem hd, ← lookup_eq_some_iff_mem he]
    exact iff_of_eq (congrArg (· = some v) (h k))
  have hperm : (sortItems d).Perm (sortItems e) :=
    ((sortItems_perm d).trans ((List.perm_ext_iff_of_nodup hd.of_map he.of_map).mpr hmem)).trans
      (sortItems_perm e).symm
  refine List.Perm.eq_of_pairwise ?_ (pairwise_sortItems d) (pairwise_sortItems e) hperm
  rintro ⟨k, v⟩ ⟨l, w⟩ hv hw hle hge
  obtain rfl : k = l := le_antisymm hle hge
  have hread := (lookup_eq_some_iff_mem hd).mpr ((sortItems_perm d).mem_iff.mp hv)
  have hother := (lookup_eq_some_iff_mem hd).mpr ((hmem _).mpr ((sortItems_perm e).mem_iff.mp hw))
  rw [Option.some.inj (hread.symm.trans hother)]

/-! ## Grants -/

/-- The pairs of a key and a value that the scope allows. -/
def Scope.grants (scope : Scope) : Set (String × String) :=
  {kv | ∃ entry ∈ scope, entry.1 = kv.1 ∧ kv.2 ∈ entry.2}

theorem mem_grants_of_values {scope : Scope} {key value : String}
    (h : value ∈ scope.values key) : (key, value) ∈ scope.grants := by
  unfold Scope.values at h
  cases hread : Dict.get? scope key with
  | none =>
      rw [hread] at h
      cases h
  | some values =>
      rw [hread] at h
      exact ⟨(key, values), Dict.mem_of_get? hread, rfl, h⟩

/-- A dictionary has a key once, so its lookups read all it grants. -/
theorem mem_grants_iff {scope : Scope} (h : (scope.map Prod.fst).Nodup) {key value : String} :
    (key, value) ∈ scope.grants ↔ value ∈ scope.values key := by
  refine ⟨?_, mem_grants_of_values⟩
  rintro ⟨⟨l, values⟩, hentry, rfl, hvalue⟩
  unfold Scope.values Dict.get?
  rw [(lookup_eq_some_iff_mem h).mpr hentry]
  exact hvalue

theorem scopeWithin_iff {requested allowed : Scope} (h : (allowed.map Prod.fst).Nodup) :
    ScopeWithin requested allowed ↔ requested.grants ⊆ allowed.grants := by
  constructor
  · rintro hwithin ⟨key, value⟩ ⟨entry, hentry, rfl, hvalue⟩
    exact mem_grants_of_values (hwithin entry hentry value hvalue)
  · intro hsubset entry hentry value hvalue
    exact (mem_grants_iff h).mp (hsubset ⟨entry, hentry, rfl, hvalue⟩)

theorem scopeIsSubset_iff_within {requested allowed : Json} :
    scopeIsSubset requested allowed = .ok true
      ↔ ∃ a b, normalizeScope requested = .ok a ∧ normalizeScope allowed = .ok b
          ∧ ScopeWithin a b := by
  unfold scopeIsSubset
  constructor
  · intro h
    obtain ⟨a, ha, h⟩ := bind_eq_ok.mp h
    obtain ⟨b, hb, h⟩ := bind_eq_ok.mp h
    exact ⟨a, b, ha, hb, of_decide_eq_true (Except.ok.inj h)⟩
  · rintro ⟨a, b, ha, hb, hwithin⟩
    rw [ha, hb]
    exact congrArg Except.ok (decide_eq_true hwithin)

/-- The keys of a scope stay as they are when it is normalized. -/
theorem keys_normalizeScope {entries : Dict} {scope : Scope}
    (h : normalizeScope (.obj entries) = .ok scope) :
    scope.map Prod.fst = entries.map Prod.fst := by
  induction entries generalizing scope with
  | nil =>
      cases h
      rfl
  | cons kv rest ih =>
      obtain ⟨values, tail, -, htail, rfl⟩ := normalizeScope_cons h
      rw [List.map_cons, List.map_cons, ih htail]

/-- A dictionary that `normalize_scope` accepts, or nothing. -/
structure ValidScope (raw : Json) : Prop where
  accepted : ∃ scope, normalizeScope raw = .ok scope
  dict : ∀ entries, raw = .obj entries → (entries.map Prod.fst).Nodup

theorem ValidScope.nodup {raw : Json} (h : ValidScope raw) {scope : Scope}
    (hscope : normalizeScope raw = .ok scope) : (scope.map Prod.fst).Nodup := by
  cases raw with
  | obj entries =>
      rw [keys_normalizeScope hscope]
      exact h.dict entries rfl
  | _ =>
      unfold normalizeScope at hscope
      dsimp only at hscope
      split at hscope
      · cases hscope
      · cases hscope
        exact List.nodup_nil

theorem scopeIsSubset_refl {raw : Json} (h : ValidScope raw) :
    scopeIsSubset raw raw = .ok true := by
  obtain ⟨scope, hscope⟩ := h.accepted
  exact scopeIsSubset_iff_within.mpr ⟨scope, scope, hscope, hscope,
    (scopeWithin_iff (h.nodup hscope)).mpr Set.Subset.rfl⟩

theorem ScopeWithin.trans {a b c : Scope} (hab : ScopeWithin a b) (hbc : ScopeWithin b c) :
    ScopeWithin a c := by
  intro entry hentry value hvalue
  obtain ⟨other, hother, hkey, hmem⟩ := mem_grants_of_values (hab entry hentry value hvalue)
  have hc := hbc other hother value hmem
  rwa [hkey] at hc

theorem scopeIsSubset_trans {a b c : Json} (hab : scopeIsSubset a b = .ok true)
    (hbc : scopeIsSubset b c = .ok true) : scopeIsSubset a c = .ok true := by
  obtain ⟨x, y, hx, hy, hxy⟩ := scopeIsSubset_iff_within.mp hab
  obtain ⟨y', z, hy', hz, hyz⟩ := scopeIsSubset_iff_within.mp hbc
  obtain rfl := Except.ok.inj (hy.symm.trans hy')
  exact scopeIsSubset_iff_within.mpr ⟨x, z, hx, hz, hxy.trans hyz⟩

/-! ## Merging -/

/-- The row has an entry under `key`. -/
def RowHasKey (scope : Json) (key : String) : Prop :=
  ∃ normalized, normalizeScope scope = .ok normalized ∧ key ∈ normalized.map Prod.fst

theorem mem_keys_mergeScope {merged scope : Scope} {key : String} :
    key ∈ (mergeScope merged scope).map Prod.fst
      ↔ key ∈ merged.map Prod.fst ∨ key ∈ scope.map Prod.fst := by
  unfold mergeScope
  induction scope generalizing merged with
  | nil => simp
  | cons kv rest ih =>
      rw [List.foldl_cons, ih, Dict.keys_set]
      split
      · rename_i hmem
        rw [List.map_cons, List.mem_cons]
        constructor
        · rintro (h | h)
          · exact Or.inl h
          · exact Or.inr (Or.inr h)
        · rintro (h | rfl | h)
          · exact Or.inl h
          · exact Or.inl hmem
          · exact Or.inr h
      · simp only [List.mem_append, List.map_cons, List.mem_cons, List.not_mem_nil, or_assoc,
          false_or]

/-- The keys under which the rows of a tool have an entry. -/
theorem merged_keys {rows : List (String × Json)} {merged : List (String × Scope)}
    (h : rows.foldlM mergeRow [] = .ok merged) (toolId key : String) :
    key ∈ ((Dict.get? merged toolId).getD []).map Prod.fst
      ↔ ∃ row ∈ rows, row.1 = toolId ∧ RowHasKey row.2 key := by
  refine merged_induct (P := fun seen acc => key ∈ ((Dict.get? acc toolId).getD []).map Prod.fst
    ↔ ∃ row ∈ seen, row.1 = toolId ∧ RowHasKey row.2 key) (by simp) ?_ h
  rintro seen acc ⟨rowId, raw⟩ next hacc hnext
  obtain ⟨scope, hscope, hnext⟩ := bind_eq_ok.mp hnext
  cases hnext
  have hraw : RowHasKey raw key ↔ key ∈ scope.map Prod.fst := by
    constructor
    · rintro ⟨other, hother, hkey⟩
      cases hscope.symm.trans hother
      exact hkey
    · exact fun hkey => ⟨scope, hscope, hkey⟩
  rw [Dict.get?_set]
  by_cases hid : toolId = rowId
  · subst hid
    rw [if_pos rfl, Option.getD_some, mem_keys_mergeScope, hacc, ← hraw]
    simp only [List.mem_append, List.mem_singleton, or_and_right, exists_or, exists_eq_left,
      true_and]
  · rw [if_neg hid, hacc]
    simp [Ne.symm hid]

theorem mergeRows_isOk_iff {rows : List (String × Json)} {acc : List (String × Scope)} :
    (∃ merged, rows.foldlM mergeRow acc = .ok merged)
      ↔ ∀ row ∈ rows, ∃ scope, normalizeScope row.2 = .ok scope := by
  induction rows generalizing acc with
  | nil => exact iff_of_true ⟨acc, rfl⟩ fun _ h => absurd h List.not_mem_nil
  | cons row rest ih =>
      rw [List.forall_mem_cons]
      constructor
      · rintro ⟨merged, h⟩
        rw [List.foldlM_cons] at h
        obtain ⟨next, hnext, h⟩ := bind_eq_ok.mp h
        obtain ⟨scope, hscope, -⟩ := bind_eq_ok.mp hnext
        exact ⟨⟨scope, hscope⟩, ih.mp ⟨merged, h⟩⟩
      · rintro ⟨⟨scope, hscope⟩, hrest⟩
        obtain ⟨merged, h⟩ := ih.mpr hrest
        refine ⟨merged, ?_⟩
        rw [List.foldlM_cons]
        refine bind_eq_ok.mpr ⟨_, ?_, h⟩
        unfold mergeRow
        rw [hscope]
        rfl

/-- Sorting looks at the keys only. -/
theorem sortItems_map {β γ : Type*} (f : β → γ) (d : List (String × β)) :
    sortItems (d.map fun kv => (kv.1, f kv.2)) = (sortItems d).map fun kv => (kv.1, f kv.2) := by
  have hinsert : ∀ (kv : String × β) (e : List (String × β)),
      insertItem (kv.1, f kv.2) (e.map fun l => (l.1, f l.2))
        = (insertItem kv e).map fun l => (l.1, f l.2) := by
    intro kv e
    induction e with
    | nil => rfl
    | cons l rest ih =>
        rw [List.map_cons, insertItem, insertItem, ih]
        split <;> rfl
  induction d with
  | nil => rfl
  | cons kv rest ih =>
      unfold sortItems at ih ⊢
      rw [List.map_cons, List.foldr_cons, ih, hinsert]
      rfl

/-- The scope of a tool as `merge_tool_scopes` writes it. -/
def sortedScope (scope : Scope) : Scope :=
  sortItems (scope.map fun entry => (entry.1, sortedSet entry.2))

theorem sortedScope_congr {s s' : Scope} (hs : (s.map Prod.fst).Nodup)
    (hs' : (s'.map Prod.fst).Nodup)
    (hkeys : ∀ key, key ∈ s.map Prod.fst ↔ key ∈ s'.map Prod.fst)
    (hvalues : ∀ key value, value ∈ s.values key ↔ value ∈ s'.values key) :
    sortedScope s = sortedScope s' := by
  have hmap : ∀ t : Scope, (t.map Prod.fst).Nodup →
      ((t.map fun entry => (entry.1, sortedSet entry.2)).map Prod.fst).Nodup := by
    intro t ht
    simpa [List.map_map, Function.comp_def] using ht
  refine sortItems_congr (hmap s hs) (hmap s' hs') fun key => ?_
  rw [Dict.get?_map_values sortedSet, Dict.get?_map_values sortedSet]
  have hsome : (Dict.get? s key).isSome ↔ (Dict.get? s' key).isSome := by
    rw [Dict.isSome_get?_iff, Dict.isSome_get?_iff, hkeys]
  have hread := hvalues key
  unfold Scope.values at hread
  cases hfound : Dict.get? s key with
  | none =>
      rw [hfound] at hsome
      rw [Option.not_isSome_iff_eq_none.mp fun h => absurd (hsome.mpr h) (by simp)]
  | some values =>
      rw [hfound] at hsome hread
      obtain ⟨values', hfound'⟩ := Option.isSome_iff_exists.mp (hsome.mp rfl)
      rw [hfound'] at hread ⊢
      exact congrArg some (sortedSet_congr hread)

/-- What is merged is a function of the rows as a set. -/
theorem mergeToolScopes_congr {rows rows' : List (String × Json)}
    (h : ∀ row, row ∈ rows ↔ row ∈ rows') :
    (mergeToolScopes rows).toOption = (mergeToolScopes rows').toOption := by
  by_cases hall : ∀ row ∈ rows, ∃ scope, normalizeScope row.2 = .ok scope
  · have hall' : ∀ row ∈ rows', ∃ scope, normalizeScope row.2 = .ok scope :=
      fun row hrow => hall row ((h row).mpr hrow)
    obtain ⟨merged, hmerged⟩ := mergeRows_isOk_iff.mpr hall
    obtain ⟨merged', hmerged'⟩ := mergeRows_isOk_iff.mpr hall'
    have hrows := merged_rows hmerged
    have hrows' := merged_rows hmerged'
    have hsome : ∀ toolId, (Dict.get? merged toolId).isSome
        ↔ (Dict.get? merged' toolId).isSome := fun toolId => by
      simp only [hrows.granted, hrows'.granted, h]
    have hread : ∀ toolId, (Dict.get? merged toolId).map sortedScope
        = (Dict.get? merged' toolId).map sortedScope := by
      intro toolId
      have hkeys := merged_keys hmerged toolId
      have hkeys' := merged_keys hmerged' toolId
      have hvalues := hrows.values toolId
      have hvalues' := hrows'.values toolId
      cases hfound : Dict.get? merged toolId with
      | none =>
          have hnone := (hsome toolId).not.mp (by simp [hfound])
          rw [Option.not_isSome_iff_eq_none.mp hnone]
      | some scope =>
          obtain ⟨scope', hfound'⟩ :=
            Option.isSome_iff_exists.mp ((hsome toolId).mp (by simp [hfound]))
          simp only [hfound, hfound', Option.getD_some] at hkeys hkeys' hvalues hvalues'
          rw [hfound']
          refine congrArg some (sortedScope_congr (hrows.nodupScope toolId scope hfound)
            (hrows'.nodupScope toolId scope' hfound') (fun key => ?_) fun key value => ?_)
          · simp only [hkeys, hkeys', h]
          · simp only [hvalues, hvalues', h]
    unfold mergeToolScopes
    rw [hmerged, hmerged']
    refine congrArg some ?_
    change (sortItems merged).map (fun kv => (kv.1, sortedScope kv.2))
      = (sortItems merged').map fun kv => (kv.1, sortedScope kv.2)
    rw [← sortItems_map, ← sortItems_map]
    have hmap : ∀ d : List (String × Scope), (d.map Prod.fst).Nodup →
        ((d.map fun kv => (kv.1, sortedScope kv.2)).map Prod.fst).Nodup := by
      intro d hd
      simpa [List.map_map, Function.comp_def] using hd
    refine sortItems_congr (hmap _ hrows.nodup) (hmap _ hrows'.nodup) fun toolId => ?_
    rw [Dict.get?_map_values sortedScope, Dict.get?_map_values sortedScope]
    exact hread toolId
  · have hfails : ∀ others : List (String × Json), (∀ row, row ∈ rows ↔ row ∈ others) →
        (mergeToolScopes others).toOption = none := by
      intro others hothers
      cases hresult : mergeToolScopes others with
      | error e => rfl
      | ok scopes =>
          obtain ⟨merged, hmerged, -⟩ := bind_eq_ok.mp hresult
          exact absurd (fun row hrow => mergeRows_isOk_iff.mp ⟨merged, hmerged⟩ row
            ((hothers row).mp hrow)) hall
    rw [hfails rows fun _ => Iff.rfl, hfails rows' h]

theorem merged_scope_nodup {rows : List (String × Json)} {merged : List (String × Scope)}
    (h : mergeToolScopes rows = .ok merged) {toolId : String} {scope : Scope}
    (hscope : Dict.get? merged toolId = some scope) : (scope.map Prod.fst).Nodup := by
  obtain ⟨acc, hloop, h⟩ := bind_eq_ok.mp h
  cases h
  have hrows := merged_rows hloop
  change Dict.get? ((sortItems acc).map fun kv => (kv.1, sortedScope kv.2)) toolId
    = some scope at hscope
  rw [Dict.get?_map_values sortedScope, get?_sortItems hrows.nodup] at hscope
  obtain ⟨found, hfound, rfl⟩ := Option.map_eq_some_iff.mp hscope
  unfold sortedScope
  rw [((sortItems_perm _).map Prod.fst).nodup_iff]
  simpa [List.map_map, Function.comp_def] using hrows.nodupScope toolId found hfound

theorem mem_grants_merged {rows : List (String × Json)} {merged : List (String × Scope)}
    (h : mergeToolScopes rows = .ok merged) {toolId : String} {scope : Scope}
    (hscope : Dict.get? merged toolId = some scope) {key value : String} :
    (key, value) ∈ scope.grants
      ↔ ∃ row ∈ rows, row.1 = toolId ∧ RowAllows row.2 key value := by
  have hvalues := (mergeToolScopes_spec h toolId).2 key value
  rw [hscope] at hvalues
  exact (mem_grants_iff (merged_scope_nodup h hscope)).trans hvalues

/-- Of all sets, what the merged scope of a tool grants is the least that has
what each row of the tool grants. -/
theorem merged_isLUB {rows : List (String × Json)} {merged : List (String × Scope)}
    (h : mergeToolScopes rows = .ok merged) {toolId : String} {scope : Scope}
    (hscope : Dict.get? merged toolId = some scope) :
    IsLUB {granted | ∃ row ∈ rows, row.1 = toolId
        ∧ ∃ normalized, normalizeScope row.2 = .ok normalized ∧ granted = normalized.grants}
      scope.grants := by
  constructor
  · rintro _ ⟨row, hrow, hid, normalized, hnormalized, rfl⟩ ⟨key, value⟩ hmem
    exact (mem_grants_merged h hscope).mpr ⟨row, hrow, hid, normalized, hnormalized, hmem⟩
  · rintro upper hupper ⟨key, value⟩ hmem
    obtain ⟨row, hrow, hid, normalized, hnormalized, hallows⟩ :=
      (mem_grants_merged h hscope).mp hmem
    exact hupper ⟨row, hrow, hid, normalized, hnormalized, rfl⟩ hallows

theorem row_within_merged {rows : List (String × Json)} {merged : List (String × Scope)}
    (h : mergeToolScopes rows = .ok merged) {row : String × Json} (hrow : row ∈ rows) :
    ∃ scope, Dict.get? merged row.1 = some scope
      ∧ scopeIsSubset row.2 scope.toJson = .ok true := by
  obtain ⟨scope, hscope⟩ := Option.isSome_iff_exists.mp
    ((mergeToolScopes_spec h row.1).1.mpr ⟨row, hrow, rfl⟩)
  obtain ⟨acc, hloop, -⟩ := bind_eq_ok.mp h
  obtain ⟨normalized, hnormalized⟩ := mergeRows_isOk_iff.mp ⟨acc, hloop⟩ row hrow
  refine ⟨scope, hscope, scopeIsSubset_iff_within.mpr
    ⟨normalized, _, hnormalized, normalizeScope_toJson scope, ?_⟩⟩
  have hwithin : ScopeWithin normalized scope :=
    (scopeWithin_iff (merged_scope_nodup h hscope)).mpr
      ((merged_isLUB h hscope).1 ⟨row, hrow, rfl, normalized, hnormalized, rfl⟩)
  intro entry hentry value hvalue
  exact mem_values_map_sortedSet.mpr (hwithin entry hentry value hvalue)

theorem merged_within_upper {rows : List (String × Json)} {merged : List (String × Scope)}
    (h : mergeToolScopes rows = .ok merged) {toolId : String} {scope : Scope}
    (hscope : Dict.get? merged toolId = some scope) {upper : Json}
    (hupper : ∀ row ∈ rows, row.1 = toolId → scopeIsSubset row.2 upper = .ok true) :
    scopeIsSubset scope.toJson upper = .ok true := by
  obtain ⟨row, hrow, hid⟩ :=
    (mergeToolScopes_spec h toolId).1.mp (Option.isSome_iff_exists.mpr ⟨scope, hscope⟩)
  obtain ⟨-, allowed, -, hallowed, -⟩ := scopeIsSubset_iff_within.mp (hupper row hrow hid)
  refine scopeIsSubset_iff_within.mpr
    ⟨_, allowed, normalizeScope_toJson scope, hallowed, ?_⟩
  intro entry hentry value hvalue
  obtain ⟨old, hold, rfl⟩ := List.mem_map.mp hentry
  obtain ⟨other, hother, hother_id, normalized, hnormalized, granted, hgranted, hkey, hmem⟩ :=
    (mem_grants_merged h hscope).mp ⟨old, hold, rfl, mem_sortedSet.mp hvalue⟩
  obtain ⟨a, b, ha, hb, hwithin⟩ :=
    scopeIsSubset_iff_within.mp (hupper other hother hother_id)
  obtain rfl := Except.ok.inj (hnormalized.symm.trans ha)
  obtain rfl := Except.ok.inj (hallowed.symm.trans hb)
  have hallows := hwithin granted hgranted _ hmem
  rwa [hkey] at hallows

/-! ## The copies of the Control Plane -/

namespace ControlPlane

/-- `ValueError` with its message, or another Python exception. -/
inductive ScopeError where
  | value (message : String)
  | python (kind : String)
deriving DecidableEq, Repr

def scopeValue : Json → Except ScopeError String
  | .str s => .ok s
  | _ => .error (.value "scope 只支持字符串列表")

def scopeEntry (key : String) : Json → Except ScopeError (String × List String)
  | .arr values => do
      let cleanValues ← values.mapM scopeValue
      return (key, sortedSet cleanValues)
  | _ => .error (.value "scope 只支持 dict[str, list[str]]")

/-- `normalize_scope` of `authz.py`. -/
def normalizeScope : Json → Except ScopeError Scope
  | .obj entries => entries.mapM fun kv => scopeEntry kv.1 kv.2
  | scope => if scope.truthy then .error (.python "AttributeError") else .ok []

def mergeRow (merged : List (String × Scope)) (row : String × Json) :
    Except ScopeError (List (String × Scope)) := do
  let scope ← normalizeScope row.2
  return Dict.set merged row.1 (mergeScope ((Dict.get? merged row.1).getD []) scope)

/-- `merge_tool_scopes` of `authz.py`. -/
def mergeToolScopes (rows : List (String × Json)) :
    Except ScopeError (List (String × Scope)) := do
  let merged ← rows.foldlM mergeRow []
  return (sortItems merged).map fun kv =>
    (kv.1, sortItems (kv.2.map fun entry => (entry.1, sortedSet entry.2)))

/-- `scope_is_subset` of `authz.py`. -/
def scopeIsSubset (requested allowed : Json) : Except ScopeError Bool := do
  let requestedScope ← normalizeScope requested
  let allowedScope ← normalizeScope allowed
  return decide (ScopeWithin requestedScope allowedScope)

/-- What the Control Plane raises where the Runtime raises `e`. -/
def scopeError : ContextError → ScopeError
  | .runtime message _ => .value message
  | .python kind => .python kind

theorem scopeEntry_eq (key : String) (raw : Json) :
    scopeEntry key raw = (Aegora.scopeEntry key raw).mapError scopeError := by
  cases raw with
  | arr values =>
      have hvalues : values.mapM scopeValue
          = (values.mapM Aegora.scopeValue).mapError scopeError :=
        mapM_mapError scopeError fun value _ => by cases value <;> rfl
      simp only [scopeEntry, Aegora.scopeEntry, hvalues]
      cases values.mapM Aegora.scopeValue <;> rfl
  | _ => rfl

theorem normalizeScope_eq (raw : Json) :
    normalizeScope raw = (Aegora.normalizeScope raw).mapError scopeError := by
  cases raw with
  | obj entries => exact mapM_mapError scopeError fun kv _ => scopeEntry_eq kv.1 kv.2
  | _ =>
      unfold normalizeScope Aegora.normalizeScope
      dsimp only
      split <;> rfl

theorem mergeRow_eq (merged : List (String × Scope)) (row : String × Json) :
    mergeRow merged row = (Aegora.mergeRow merged row).mapError scopeError := by
  simp only [mergeRow, Aegora.mergeRow, normalizeScope_eq]
  cases Aegora.normalizeScope row.2 <;> rfl

theorem mergeToolScopes_eq (rows : List (String × Json)) :
    mergeToolScopes rows = (Aegora.mergeToolScopes rows).mapError scopeError := by
  have hloop : ∀ acc, rows.foldlM mergeRow acc
      = (rows.foldlM Aegora.mergeRow acc).mapError scopeError := by
    induction rows with
    | nil => exact fun _ => rfl
    | cons row rest ih =>
        intro acc
        rw [List.foldlM_cons, List.foldlM_cons, mergeRow_eq]
        cases Aegora.mergeRow acc row with
        | error e => rfl
        | ok next => exact ih next
  simp only [mergeToolScopes, Aegora.mergeToolScopes, hloop]
  cases rows.foldlM Aegora.mergeRow [] <;> rfl

theorem scopeIsSubset_eq (requested allowed : Json) :
    scopeIsSubset requested allowed
      = (Aegora.scopeIsSubset requested allowed).mapError scopeError := by
  simp only [scopeIsSubset, Aegora.scopeIsSubset, normalizeScope_eq]
  cases Aegora.normalizeScope requested with
  | error e => rfl
  | ok requestedScope => cases Aegora.normalizeScope allowed <;> rfl

end ControlPlane

/-- `merge_tool_scopes` joins the scopes of each tool, whatever the order and
number of its rows, in the preorder of `scope_is_subset`, and the two services
agree on it. -/
theorem merged_scopes_least {rows : List (String × Json)} {merged : List (String × Scope)}
    (h : mergeToolScopes rows = .ok merged) :
    (∀ others : List (String × Json), (∀ row, row ∈ others ↔ row ∈ rows) →
        mergeToolScopes others = .ok merged)
      ∧ (∀ row ∈ rows, ∃ scope, Dict.get? merged row.1 = some scope
          ∧ scopeIsSubset row.2 scope.toJson = .ok true)
      ∧ (∀ toolId scope upper, Dict.get? merged toolId = some scope →
          (∀ row ∈ rows, row.1 = toolId → scopeIsSubset row.2 upper = .ok true) →
          scopeIsSubset scope.toJson upper = .ok true)
      ∧ (∀ raw, ValidScope raw → scopeIsSubset raw raw = .ok true)
      ∧ (∀ a b c, scopeIsSubset a b = .ok true → scopeIsSubset b c = .ok true →
          scopeIsSubset a c = .ok true)
      ∧ ControlPlane.mergeToolScopes rows = .ok merged
      ∧ (∀ raw scope, normalizeScope raw = .ok scope →
          ControlPlane.normalizeScope raw = .ok scope)
      ∧ ∀ a b within, scopeIsSubset a b = .ok within →
          ControlPlane.scopeIsSubset a b = .ok within := by
  refine ⟨fun others hothers => ?_, fun row hrow => row_within_merged h hrow,
    fun toolId scope upper hscope hupper => merged_within_upper h hscope hupper,
    fun raw hraw => scopeIsSubset_refl hraw,
    fun a b c hab hbc => scopeIsSubset_trans hab hbc, ?_, fun raw scope hscope => ?_,
    fun a b within hwithin => ?_⟩
  · have hsame := mergeToolScopes_congr hothers
    rw [h] at hsame
    cases hresult : mergeToolScopes others with
    | error e =>
        rw [hresult] at hsame
        cases hsame
    | ok scopes =>
        rw [hresult] at hsame
        exact congrArg Except.ok (Option.some.inj hsame)
  · rw [ControlPlane.mergeToolScopes_eq, h]
    rfl
  · rw [ControlPlane.normalizeScope_eq, hscope]
    rfl
  · rw [ControlPlane.scopeIsSubset_eq, hwithin]
    rfl

/-- Two roles grant the same tool. -/
def shopRows : List (String × Json) :=
  [("orders", .obj [("shop", .arr [.str "south", .str "north"])]),
    ("mail", .obj []),
    ("orders", .obj [("shop", .arr [.str "east"]), ("kind", .arr [])])]

theorem merged_scopes_least_shop :
    mergeToolScopes (shopRows.reverse ++ shopRows)
        = .ok [("mail", []), ("orders", [("kind", []), ("shop", ["east", "north", "south"])])]
      ∧ scopeIsSubset (Scope.toJson [("kind", []), ("shop", ["east", "north", "south"])])
          (.obj [("shop", .arr [.str "north", .str "west", .str "south", .str "east"])])
        = .ok true := by
  have h : mergeToolScopes shopRows
      = .ok [("mail", []), ("orders", [("kind", []), ("shop", ["east", "north", "south"])])] := by
    decide +kernel
  obtain ⟨hsame, -, hleast, -⟩ := merged_scopes_least h
  exact ⟨hsame _ (by simp), hleast "orders" _ _ (by decide +kernel) (by decide +kernel)⟩

end Aegora
