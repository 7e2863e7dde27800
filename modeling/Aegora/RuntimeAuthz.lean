import Aegora.PyJson

/-!
# Tool scopes and the grants of roles

A scope maps keys to sets of allowed strings. `normalize_scope` checks and
sorts one, `merge_tool_scopes` joins the scopes that several roles grant for
a tool, and `scope_is_subset` compares two. What the merge stands for is the
relation `Grants`: some active role of the user grants the tool this value
under this key.
-/

namespace Aegora

open Py

/-- `RuntimeContextError` with its status code, or another Python exception. -/
inductive ContextError where
  | runtime (message : String) (statusCode : Nat)
  | python (kind : String)
deriving DecidableEq, Repr

/-! ## Sorted sets and dictionaries -/

/-- Insertion into a sorted list without duplicates. -/
def insertSorted (x : String) : List String → List String
  | [] => [x]
  | y :: ys => if x = y then y :: ys else if x < y then x :: y :: ys else y :: insertSorted x ys

/-- `sorted(set(xs))`. -/
def sortedSet (xs : List String) : List String := xs.foldr insertSorted []

theorem mem_insertSorted {x y : String} {xs : List String} :
    y ∈ insertSorted x xs ↔ y = x ∨ y ∈ xs := by
  induction xs with
  | nil => simp [insertSorted]
  | cons z zs ih =>
      unfold insertSorted
      split
      · rename_i hxz
        subst hxz
        simp
      · split
        · simp
        · simp only [List.mem_cons, ih]
          tauto

@[simp] theorem mem_sortedSet {y : String} {xs : List String} :
    y ∈ sortedSet xs ↔ y ∈ xs := by
  induction xs with
  | nil => simp [sortedSet]
  | cons x xs ih =>
      unfold sortedSet at ih ⊢
      rw [List.foldr_cons, mem_insertSorted, ih, List.mem_cons]

/-- Insertion into a list sorted by key. -/
def insertItem {β : Type*} (kv : String × β) : List (String × β) → List (String × β)
  | [] => [kv]
  | l :: rest => if kv.1 < l.1 then kv :: l :: rest else l :: insertItem kv rest

/-- `sorted(d.items())`, as a dictionary. -/
def sortItems {β : Type*} (d : List (String × β)) : List (String × β) :=
  d.foldr insertItem []

theorem insertItem_perm {β : Type*} (kv : String × β) (d : List (String × β)) :
    (insertItem kv d).Perm (kv :: d) := by
  induction d with
  | nil => exact List.Perm.refl _
  | cons l rest ih =>
      unfold insertItem
      split
      · exact List.Perm.refl _
      · exact (ih.cons l).trans (List.Perm.swap kv l rest)

theorem sortItems_perm {β : Type*} (d : List (String × β)) : (sortItems d).Perm d := by
  induction d with
  | nil => exact List.Perm.refl _
  | cons kv rest ih => exact (insertItem_perm kv _).trans (ih.cons kv)

/-- Sorting a dictionary leaves what its keys read. -/
theorem get?_sortItems {β : Type*} {d : List (String × β)} (h : (d.map Prod.fst).Nodup)
    (k : String) : Dict.get? (sortItems d) k = Dict.get? d k := by
  have hperm := sortItems_perm d
  have hsorted : ((sortItems d).map Prod.fst).Nodup :=
    (hperm.map Prod.fst).nodup_iff.mpr h
  refine Option.ext fun v => ?_
  unfold Dict.get?
  rw [lookup_eq_some_iff_mem hsorted, lookup_eq_some_iff_mem h, hperm.mem_iff]

/-! ## Scopes -/

/-- A normalized scope: a key and its sorted values. -/
abbrev Scope := List (String × List String)

/-- The values a scope allows under a key. -/
def Scope.values (scope : Scope) (key : String) : List String :=
  (Dict.get? scope key).getD []

def Scope.toJson (scope : Scope) : Json :=
  .obj (scope.map fun kv => (kv.1, .arr (kv.2.map .str)))

def scopeValue : Json → Except ContextError String
  | .str s => .ok s
  | _ => .error (.runtime "scope 只支持字符串列表" 422)

def scopeEntry (key : String) : Json → Except ContextError (String × List String)
  | .arr values => do
      let cleanValues ← values.mapM scopeValue
      return (key, sortedSet cleanValues)
  | _ => .error (.runtime "scope 只支持 dict[str, list[str]]" 422)

/-- `normalize_scope`; `scope.items()` raises on what is no dictionary. -/
def normalizeScope : Json → Except ContextError Scope
  | .obj entries => entries.mapM fun kv => scopeEntry kv.1 kv.2
  | scope => if scope.truthy then .error (.python "AttributeError") else .ok []

/-- `set(requested_values).issubset(allowed_values)` for every key. -/
def ScopeWithin (requested allowed : Scope) : Prop :=
  ∀ kv ∈ requested, ∀ value ∈ kv.2, value ∈ allowed.values kv.1

instance (requested allowed : Scope) : Decidable (ScopeWithin requested allowed) := by
  unfold ScopeWithin
  infer_instance

/-- `scope_is_subset`. -/
def scopeIsSubset (requested allowed : Json) : Except ContextError Bool := do
  let requestedScope ← normalizeScope requested
  let allowedScope ← normalizeScope allowed
  return decide (ScopeWithin requestedScope allowedScope)

/-! ### Normalizing a normalized scope -/

theorem mapM_scopeValue (values : List String) :
    (values.map Json.str).mapM scopeValue = .ok values := by
  rw [mapM_eq_ok, List.forall₂_map_left_iff]
  exact List.forall₂_same.mpr fun _ _ => rfl

theorem scopeValue_eq_ok {raw : Json} {value : String} :
    scopeValue raw = .ok value ↔ raw = .str value := by
  cases raw <;> simp [scopeValue]

/-- Only a list of texts is normalized. -/
theorem scopeEntry_ok {key : String} {raw : Json} {entry : String × List String}
    (h : scopeEntry key raw = .ok entry) :
    ∃ values : List String, raw = .arr (values.map .str) ∧ entry = (key, sortedSet values) := by
  unfold scopeEntry at h
  split at h
  · rename_i items
    obtain ⟨values, hvalues, h⟩ := bind_eq_ok.mp h
    cases h
    have hall := mapM_eq_ok.mp hvalues
    have hitems : items = values.map .str := by
      clear hvalues h
      induction hall with
      | nil => rfl
      | cons hvalue _ ih => rw [List.map_cons, ← ih, scopeValue_eq_ok.mp hvalue]
    exact ⟨values, congrArg Json.arr hitems, rfl⟩
  · cases h

theorem normalizeScope_cons {kv : String × Json} {rest : Dict} {scope : Scope}
    (h : normalizeScope (.obj (kv :: rest)) = .ok scope) :
    ∃ (values : List String) (tail : Scope), kv.2 = .arr (values.map .str)
      ∧ normalizeScope (.obj rest) = .ok tail ∧ scope = (kv.1, sortedSet values) :: tail := by
  unfold normalizeScope at h
  dsimp only at h
  rw [List.mapM_cons] at h
  obtain ⟨entry, hentry, h⟩ := bind_eq_ok.mp h
  obtain ⟨tail, htail, h⟩ := bind_eq_ok.mp h
  cases h
  obtain ⟨values, hraw, rfl⟩ := scopeEntry_ok hentry
  exact ⟨values, tail, hraw, htail, rfl⟩

/-- The scope read back has the same keys and the same sets of values. -/
theorem normalizeScope_toJson (scope : Scope) :
    normalizeScope scope.toJson = .ok (scope.map fun kv => (kv.1, sortedSet kv.2)) := by
  unfold Scope.toJson normalizeScope
  rw [mapM_eq_ok, List.forall₂_map_left_iff, List.forall₂_map_right_iff]
  refine List.forall₂_same.mpr fun kv _ => ?_
  rw [scopeEntry, mapM_scopeValue]
  rfl

theorem mem_values_map_sortedSet {scope : Scope} {key value : String} :
    value ∈ Scope.values (scope.map fun kv => (kv.1, sortedSet kv.2)) key
      ↔ value ∈ scope.values key := by
  unfold Scope.values
  rw [Dict.get?_map_values sortedSet]
  cases Dict.get? scope key <;> simp

/-- Comparing two normalized scopes never raises. -/
theorem scopeIsSubset_toJson (requested allowed : Scope) :
    scopeIsSubset requested.toJson allowed.toJson
      = .ok (decide (ScopeWithin requested allowed)) := by
  unfold scopeIsSubset
  rw [normalizeScope_toJson, normalizeScope_toJson]
  refine congrArg Except.ok (decide_eq_decide.mpr ?_)
  constructor
  · intro h kv hkv value hvalue
    exact mem_values_map_sortedSet.mp
      (h _ (List.mem_map_of_mem hkv) value (mem_sortedSet.mpr hvalue))
  · intro h kv hkv value hvalue
    obtain ⟨old, hold, rfl⟩ := List.mem_map.mp hkv
    exact mem_values_map_sortedSet.mpr (h old hold value (mem_sortedSet.mp hvalue))

/-! ## Merging the scopes of several rows -/

/-- `tool_scope.setdefault(key, set()).update(values)` for every key. -/
def mergeScope (merged scope : Scope) : Scope :=
  scope.foldl (fun acc kv => Dict.set acc kv.1 (acc.values kv.1 ++ kv.2)) merged

def mergeRow (merged : List (String × Scope)) (row : String × Json) :
    Except ContextError (List (String × Scope)) := do
  let scope ← normalizeScope row.2
  return Dict.set merged row.1 (mergeScope ((Dict.get? merged row.1).getD []) scope)

/-- `merge_tool_scopes`. -/
def mergeToolScopes (rows : List (String × Json)) :
    Except ContextError (List (String × Scope)) := do
  let merged ← rows.foldlM mergeRow []
  return (sortItems merged).map fun kv =>
    (kv.1, sortItems (kv.2.map fun entry => (entry.1, sortedSet entry.2)))

/-- The scope of a row allows `value` under `key`. -/
def RowAllows (scope : Json) (key value : String) : Prop :=
  ∃ normalized, normalizeScope scope = .ok normalized
    ∧ ∃ kv ∈ normalized, kv.1 = key ∧ value ∈ kv.2

theorem mem_values_mergeScope {merged scope : Scope} {key value : String} :
    value ∈ (mergeScope merged scope).values key
      ↔ value ∈ merged.values key ∨ ∃ kv ∈ scope, kv.1 = key ∧ value ∈ kv.2 := by
  unfold mergeScope
  induction scope generalizing merged with
  | nil => simp
  | cons kv rest ih =>
      obtain ⟨l, vs⟩ := kv
      have hset : ∀ k, value ∈ Scope.values (Dict.set merged l (merged.values l ++ vs)) k
          ↔ value ∈ merged.values k ∨ (k = l ∧ value ∈ vs) := by
        intro k
        unfold Scope.values
        rw [Dict.get?_set]
        by_cases hk : k = l
        · subst hk
          simp
        · simp [hk]
      rw [List.foldl_cons, ih, hset, or_assoc, eq_comm]
      simp only [List.mem_cons, or_and_right, exists_or, exists_eq_left]

theorem nodup_keys_mergeScope {merged : Scope} (h : (merged.map Prod.fst).Nodup)
    (scope : Scope) : ((mergeScope merged scope).map Prod.fst).Nodup := by
  unfold mergeScope
  induction scope generalizing merged with
  | nil => exact h
  | cons kv rest ih =>
      rw [List.foldl_cons]
      exact ih (Dict.nodup_keys_set h _ _)

/-- What the loop of `merge_tool_scopes` has built after some rows. -/
structure Merged (rows : List (String × Json)) (merged : List (String × Scope)) : Prop where
  nodup : (merged.map Prod.fst).Nodup
  nodupScope : ∀ toolId scope, Dict.get? merged toolId = some scope →
    (scope.map Prod.fst).Nodup
  granted : ∀ toolId, (Dict.get? merged toolId).isSome ↔ ∃ row ∈ rows, row.1 = toolId
  values : ∀ toolId key value, value ∈ Scope.values ((Dict.get? merged toolId).getD []) key
    ↔ ∃ row ∈ rows, row.1 = toolId ∧ RowAllows row.2 key value

theorem Merged.row {rows : List (String × Json)} {merged next : List (String × Scope)}
    (hmerged : Merged rows merged) {row : String × Json}
    (h : mergeRow merged row = .ok next) : Merged (rows ++ [row]) next := by
  obtain ⟨scope, hscope, h⟩ := bind_eq_ok.mp h
  cases h
  obtain ⟨rowId, raw⟩ := row
  constructor
  case nodup => exact Dict.nodup_keys_set hmerged.nodup _ _
  case nodupScope =>
    intro toolId found hfound
    rw [Dict.get?_set] at hfound
    split at hfound
    · cases hfound
      refine nodup_keys_mergeScope ?_ scope
      cases hold : Dict.get? merged rowId with
      | none => exact List.nodup_nil
      | some old => exact hmerged.nodupScope rowId old hold
    · exact hmerged.nodupScope toolId found hfound
  case granted =>
    intro toolId
    rw [Dict.get?_set]
    by_cases hid : toolId = rowId
    · simp [hid]
    · simp [hid, Ne.symm hid, hmerged.granted toolId]
  case values =>
    intro toolId key value
    have hraw : RowAllows raw key value ↔ ∃ kv ∈ scope, kv.1 = key ∧ value ∈ kv.2 := by
      constructor
      · rintro ⟨other, hother, h⟩
        cases hscope.symm.trans hother
        exact h
      · exact fun h => ⟨scope, hscope, h⟩
    rw [Dict.get?_set]
    by_cases hid : toolId = rowId
    · subst hid
      rw [if_pos rfl, Option.getD_some, mem_values_mergeScope, hmerged.values, ← hraw]
      simp only [List.mem_append, List.mem_singleton, or_and_right, exists_or,
        exists_eq_left, true_and]
    · rw [if_neg hid, hmerged.values]
      simp [Ne.symm hid]

/-- What holds of no rows and is kept by each row holds of all rows. By induction over the rows
still to read. -/
theorem merged_induct {P : List (String × Json) → List (String × Scope) → Prop} (hnil : P [] [])
    (hrow : ∀ seen acc row next, P seen acc → mergeRow acc row = .ok next →
      P (seen ++ [row]) next)
    {rows : List (String × Json)} {merged : List (String × Scope)}
    (h : rows.foldlM mergeRow [] = .ok merged) : P rows merged := by
  have go : ∀ (rest seen : List (String × Json)) (acc : List (String × Scope)),
      P seen acc → rest.foldlM mergeRow acc = .ok merged → P (seen ++ rest) merged := by
    intro rest
    induction rest with
    | nil =>
        intro seen acc hacc h
        cases h
        simpa using hacc
    | cons row rest ih =>
        intro seen acc hacc h
        rw [List.foldlM_cons] at h
        obtain ⟨next, hnext, h⟩ := bind_eq_ok.mp h
        simpa using ih (seen ++ [row]) next (hrow seen acc row next hacc hnext) h
  exact go rows [] [] hnil h

theorem merged_rows {rows : List (String × Json)} {merged : List (String × Scope)}
    (h : rows.foldlM mergeRow [] = .ok merged) : Merged rows merged :=
  merged_induct (P := Merged) ⟨List.nodup_nil, by simp, by simp, by simp [Scope.values]⟩
    (fun _ _ _ _ hmerged hnext => hmerged.row hnext) h

/-- The merged scopes: a tool is there when a row names it, and allows under a
key what one of its rows allows. -/
theorem mergeToolScopes_spec {rows : List (String × Json)} {scopes : List (String × Scope)}
    (h : mergeToolScopes rows = .ok scopes) (toolId : String) :
    ((Dict.get? scopes toolId).isSome ↔ ∃ row ∈ rows, row.1 = toolId)
      ∧ ∀ key value, value ∈ Scope.values ((Dict.get? scopes toolId).getD []) key
          ↔ ∃ row ∈ rows, row.1 = toolId ∧ RowAllows row.2 key value := by
  obtain ⟨merged, hloop, h⟩ := bind_eq_ok.mp h
  cases h
  have hmerged := merged_rows hloop
  rw [Dict.get?_map_values
    (fun scope : Scope => sortItems (scope.map fun entry => (entry.1, sortedSet entry.2))),
    get?_sortItems hmerged.nodup]
  refine ⟨by rw [Option.isSome_map, hmerged.granted], fun key value => ?_⟩
  rw [← hmerged.values]
  cases hfound : Dict.get? merged toolId with
  | none => rfl
  | some scope =>
      have hkeys : ((scope.map fun entry => (entry.1, sortedSet entry.2)).map
          Prod.fst).Nodup := by
        simpa [List.map_map, Function.comp_def] using hmerged.nodupScope toolId scope hfound
      simp only [Option.map_some, Option.getD_some]
      rw [Scope.values, get?_sortItems hkeys]
      exact mem_values_map_sortedSet

/-! ## What a role may be given -/

/-- `validate_tool_scope` of the Control Plane. -/
def validateToolScope (toolId : String) (scope : Json) (scopeSchema : Option Scope) :
    Except ContextError Scope := do
  let normalized ← normalizeScope scope
  match scopeSchema with
  | none => .error (.runtime ("工具 " ++ toolId ++ " 未声明 scope schema") 422)
  | some [] =>
      if normalized ≠ [] then .error (.runtime (toolId ++ " 工具 scope 不合法") 422) else .ok []
  | some schema =>
      if normalized = [] then .error (.runtime (toolId ++ " 工具 scope 不可为空") 422)
      else match normalized.find? fun kv => ¬ ∀ value ∈ kv.2, value ∈ schema.values kv.1 with
        | some kv => .error (.runtime (toolId ++ " 工具 scope 不合法: " ++ kv.1) 422)
        | none => .ok normalized

end Aegora
