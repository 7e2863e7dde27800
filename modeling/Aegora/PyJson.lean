import Mathlib.Algebra.Group.Nat.Defs
import Mathlib.Data.List.DropRight
import Mathlib.Data.List.Nodup

/-!
# Python values as they come out of JSON

Everything the two services exchange is a Python value read by
`json.loads` or from a `jsonb` column. This file fixes those values
(`Json`), the dictionary operations the source uses on them (`get`,
item assignment, `{**a, **b}`), truthiness (`if x`, `x or y`), and
`str`. Nothing here knows which program uses it.

A dictionary is a list of entries in insertion order. Assignment
overwrites in place and appends new keys, so the operations never
create a second entry for a key; `get?` of a list with duplicate keys
reads the first one.

A float is carried by the text of its `repr`: Python's `repr` is
injective on floats, and no code below does arithmetic on one.
-/

namespace Py

universe u

/-- A JSON value as Python holds it. -/
inductive Json where
  | null
  | bool (b : Bool)
  | int (n : Int)
  | float (repr : String)
  | str (s : String)
  | arr (items : List Json)
  | obj (entries : List (String × Json))
deriving Repr, Inhabited

/-- The entries of a dictionary, in insertion order. -/
abbrev Dict := List (String × Json)

/-! ## Decidable equality -/

mutual

def Json.decEq : (a b : Json) → Decidable (a = b)
  | .null, .null => isTrue rfl
  | .bool a, .bool b => decidable_of_iff (a = b) (by simp)
  | .int a, .int b => decidable_of_iff (a = b) (by simp)
  | .float a, .float b => decidable_of_iff (a = b) (by simp)
  | .str a, .str b => decidable_of_iff (a = b) (by simp)
  | .arr a, .arr b =>
      @decidable_of_iff _ (a = b) (by simp) (Json.decEqItems a b)
  | .obj a, .obj b =>
      @decidable_of_iff _ (a = b) (by simp) (Json.decEqEntries a b)
  | .null, .bool _ | .null, .int _ | .null, .float _ | .null, .str _
  | .null, .arr _ | .null, .obj _
  | .bool _, .null | .bool _, .int _ | .bool _, .float _ | .bool _, .str _
  | .bool _, .arr _ | .bool _, .obj _
  | .int _, .null | .int _, .bool _ | .int _, .float _ | .int _, .str _
  | .int _, .arr _ | .int _, .obj _
  | .float _, .null | .float _, .bool _ | .float _, .int _ | .float _, .str _
  | .float _, .arr _ | .float _, .obj _
  | .str _, .null | .str _, .bool _ | .str _, .int _ | .str _, .float _
  | .str _, .arr _ | .str _, .obj _
  | .arr _, .null | .arr _, .bool _ | .arr _, .int _ | .arr _, .float _
  | .arr _, .str _ | .arr _, .obj _
  | .obj _, .null | .obj _, .bool _ | .obj _, .int _ | .obj _, .float _
  | .obj _, .str _ | .obj _, .arr _ => isFalse (by simp)

def Json.decEqItems : (a b : List Json) → Decidable (a = b)
  | [], [] => isTrue rfl
  | [], _ :: _ => isFalse (by simp)
  | _ :: _, [] => isFalse (by simp)
  | x :: xs, y :: ys =>
      @decidable_of_iff _ (x = y ∧ xs = ys) (by simp)
        (@instDecidableAnd _ _ (Json.decEq x y) (Json.decEqItems xs ys))

def Json.decEqEntries : (a b : List (String × Json)) → Decidable (a = b)
  | [], [] => isTrue rfl
  | [], _ :: _ => isFalse (by simp)
  | _ :: _, [] => isFalse (by simp)
  | (k, x) :: xs, (l, y) :: ys =>
      @decidable_of_iff _ (k = l ∧ x = y ∧ xs = ys) (by simp [and_assoc])
        (@instDecidableAnd _ _ (instDecidableEqString k l)
          (@instDecidableAnd _ _ (Json.decEq x y) (Json.decEqEntries xs ys)))

end

instance : DecidableEq Json := Json.decEq

/-! ## Code that may raise -/

theorem bind_eq_ok {ε : Type*} {α β : Type u} {x : Except ε α} {f : α → Except ε β} {b : β} :
    (x >>= f) = .ok b ↔ ∃ a, x = .ok a ∧ f a = .ok b := by
  cases x <;> simp [bind, Except.bind]

theorem mapError_eq_ok {ε δ α : Type*} {x : Except ε α} {f : ε → δ} {a : α} :
    x.mapError f = .ok a ↔ x = .ok a := by
  cases x <;> simp [Except.mapError]

theorem map_eq_ok {ε : Type*} {α β : Type u} {x : Except ε α} {f : α → β} {b : β} :
    x.map f = .ok b ↔ ∃ a, x = .ok a ∧ f a = b := by
  cases x <;> simp [Except.map]

/-- A guard that raises. -/
theorem ite_error_eq_ok {ε α : Type*} {p : Prop} [Decidable p] {e : ε} {x : Except ε α}
    {a : α} : (if p then .error e else x) = .ok a ↔ ¬ p ∧ x = .ok a := by
  by_cases hp : p <;> simp [hp]

/-- A loop that may raise ends well when every step does, in order. -/
theorem mapM_eq_ok {ε : Type*} {α β : Type u} {f : α → Except ε β} {xs : List α}
    {ys : List β} : xs.mapM f = .ok ys ↔ List.Forall₂ (fun x y => f x = .ok y) xs ys := by
  induction xs generalizing ys with
  | nil =>
      rw [List.mapM_nil, List.forall₂_nil_left_iff]
      exact ⟨fun h => (Except.ok.inj h).symm, fun h => by rw [h]; rfl⟩
  | cons x xs ih =>
      rw [List.mapM_cons, bind_eq_ok, List.forall₂_cons_left_iff]
      constructor
      · rintro ⟨y, hy, h⟩
        obtain ⟨zs, hzs, h⟩ := bind_eq_ok.mp h
        cases h
        exact ⟨y, zs, hy, ih.mp hzs, rfl⟩
      · rintro ⟨y, zs, hy, hzs, rfl⟩
        exact ⟨y, hy, bind_eq_ok.mpr ⟨zs, ih.mpr hzs, rfl⟩⟩

/-- A loop over steps that raise another exception raises the other one. -/
theorem mapM_mapError {ε δ : Type*} {α β : Type u} {f : α → Except ε β} {g : α → Except δ β}
    (toError : ε → δ) {xs : List α} (h : ∀ x ∈ xs, g x = (f x).mapError toError) :
    xs.mapM g = (xs.mapM f).mapError toError := by
  induction xs with
  | nil => rfl
  | cons x xs ih =>
      rw [List.forall_mem_cons] at h
      rw [List.mapM_cons, List.mapM_cons, h.1, ih h.2]
      cases f x with
      | error e => rfl
      | ok y => cases xs.mapM f <;> rfl

/-- A loop over steps that never raise does not raise. -/
theorem exists_mapM_eq_ok {ε : Type*} {α β : Type u} {f : α → Except ε β} {xs : List α}
    (h : ∀ x ∈ xs, ∃ y, f x = .ok y) : ∃ ys, xs.mapM f = .ok ys := by
  induction xs with
  | nil => exact ⟨[], rfl⟩
  | cons x xs ih =>
      obtain ⟨y, hy⟩ := h x List.mem_cons_self
      obtain ⟨ys, hys⟩ := ih fun z hz => h z (List.mem_cons_of_mem _ hz)
      rw [mapM_eq_ok] at hys
      exact ⟨y :: ys, mapM_eq_ok.mpr (.cons hy hys)⟩

/-- A comprehension whose condition never raises is a filter. -/
theorem filterM_eq_ok {ε : Type*} {α : Type} {p : α → Except ε Bool} {q : α → Bool} {xs : List α}
    (h : ∀ x ∈ xs, p x = .ok (q x)) : xs.filterM p = .ok (xs.filter q) := by
  have haux : ∀ acc, xs.filterAuxM p acc = .ok ((xs.filter q).reverse ++ acc) := by
    induction xs with
    | nil => exact fun acc => rfl
    | cons x xs ih =>
        intro acc
        have hrest := ih (fun y hy => h y (List.mem_cons_of_mem _ hy)) (cond (q x) (x :: acc) acc)
        rw [List.filterAuxM, h x List.mem_cons_self]
        refine hrest.trans ?_
        cases hq : q x <;> simp [hq]
  unfold List.filterM
  rw [haux]
  simp [bind, Except.bind, pure, Except.pure]

theorem mem_of_mapM_eq_ok {ε : Type*} {α β : Type u} {f : α → Except ε β} {xs : List α}
    {ys : List β} (h : xs.mapM f = .ok ys) {y : β} (hy : y ∈ ys) :
    ∃ x ∈ xs, f x = .ok y := by
  have hall := mapM_eq_ok.mp h
  clear h
  induction hall with
  | nil => cases hy
  | cons hxy _ ih =>
      rcases List.mem_cons.mp hy with rfl | hy
      · exact ⟨_, List.mem_cons_self, hxy⟩
      · obtain ⟨x, hx, hxy⟩ := ih hy
        exact ⟨x, List.mem_cons_of_mem _ hx, hxy⟩

theorem mapM_eq_ok_mem {ε : Type*} {α β : Type u} {f : α → Except ε β} {xs : List α}
    {ys : List β} (h : xs.mapM f = .ok ys) {x : α} (hx : x ∈ xs) :
    ∃ y ∈ ys, f x = .ok y := by
  have hall := mapM_eq_ok.mp h
  clear h
  induction hall with
  | nil => cases hx
  | cons hxy _ ih =>
      rcases List.mem_cons.mp hx with rfl | hx
      · exact ⟨_, List.mem_cons_self, hxy⟩
      · obtain ⟨y, hy, hxy⟩ := ih hx
        exact ⟨y, List.mem_cons_of_mem _ hy, hxy⟩

/-- The inputs of a loop picked by the outcome each of them had. -/
theorem mem_zip_filter_iff {ε : Type*} {α β : Type u} [DecidableEq β]
    {f : α → Except ε β} {xs : List α} {ys : List β} (h : xs.mapM f = .ok ys) {x : α}
    {y : β} :
    x ∈ ((xs.zip ys).filter fun xy => xy.2 = y).map Prod.fst ↔ x ∈ xs ∧ f x = .ok y := by
  have hall := mapM_eq_ok.mp h
  clear h
  induction hall with
  | nil => simp
  | cons hfz _ ih =>
      rename_i a z _ _ _
      rw [List.zip_cons_cons, List.filter_cons, List.mem_cons, or_and_right]
      refine Iff.trans ?_ (or_congr Iff.rfl ih)
      by_cases hz : z = y
      · subst hz
        simp only [decide_true, if_true, List.map_cons, List.mem_cons]
        constructor
        · rintro (rfl | hx)
          · exact Or.inl ⟨rfl, hfz⟩
          · exact Or.inr hx
        · rintro (⟨rfl, -⟩ | hx)
          · exact Or.inl rfl
          · exact Or.inr hx
      · simp only [hz, decide_false, Bool.false_eq_true, if_false]
        constructor
        · exact Or.inr
        · rintro (⟨rfl, hfy⟩ | hx)
          · exact absurd (Except.ok.inj (hfz.symm.trans hfy)) hz
          · exact hx

/-! ## Truthiness and shape tests -/

namespace Json

/-- `bool(x)`. -/
def truthy : Json → Bool
  | .null => false
  | .bool b => b
  | .int n => n != 0
  | .float r => r != "0.0" && r != "-0.0"
  | .str s => s != ""
  | .arr xs => !xs.isEmpty
  | .obj es => !es.isEmpty

/-- `x or y`. -/
def orElse (x y : Json) : Json := if x.truthy then x else y

/-- `x if isinstance(x, dict) else None`. -/
def asDict? : Json → Option Dict
  | .obj es => some es
  | _ => none

/-- `x if isinstance(x, list) else None`. -/
def asList? : Json → Option (List Json)
  | .arr xs => some xs
  | _ => none

/-- `x if isinstance(x, str) else None`. -/
def asStr? : Json → Option String
  | .str s => some s
  | _ => none

/-- `x if isinstance(x, dict) else {}`. -/
def dictOrEmpty (x : Json) : Dict := x.asDict?.getD []

@[simp] theorem truthy_str (s : String) : (Json.str s).truthy = (s != "") := rfl

@[simp] theorem truthy_bool (b : Bool) : (Json.bool b).truthy = b := rfl

@[simp] theorem truthy_null : Json.null.truthy = false := rfl

end Json

/-! ## Dictionaries -/

/-- With distinct keys, looking a key up finds the entry that has it. -/
theorem lookup_eq_some_iff_mem {α β : Type*} [BEq α] [LawfulBEq α]
    {entries : List (α × β)} (h : (entries.map Prod.fst).Nodup) {k : α} {v : β} :
    entries.lookup k = some v ↔ (k, v) ∈ entries := by
  induction entries with
  | nil => simp
  | cons entry rest ih =>
      obtain ⟨l, w⟩ := entry
      obtain ⟨hl, hrest⟩ := List.nodup_cons.mp h
      by_cases hk : k = l
      · subst hk
        have hnot : (k, v) ∉ rest := fun hmem => hl (List.mem_map.mpr ⟨_, hmem, rfl⟩)
        simp [hnot, eq_comm]
      · rw [List.lookup_cons, beq_false_of_ne hk, ih hrest]
        simp [hk]

namespace Dict

/-! The operations are those of any `dict[str, β]`; `get` reads a JSON one. -/

section

variable {β : Type*}

/-- `d.get(k)`, `none` when the key is missing. -/
def get? (d : List (String × β)) (k : String) : Option β := d.lookup k

/-- `d[k] = v`. -/
def set (d : List (String × β)) (k : String) (v : β) : List (String × β) :=
  match d with
  | [] => [(k, v)]
  | (l, w) :: rest => if l = k then (l, v) :: rest else (l, w) :: set rest k v

/-- `{**d, **e}`. -/
def merge (d e : List (String × β)) : List (String × β) :=
  e.foldl (fun acc kv => set acc kv.1 kv.2) d

/-- `{k: v for k, v in entries}`: a later entry wins. -/
def ofEntries (entries : List (String × β)) : List (String × β) := merge [] entries

@[simp] theorem get?_nil (k : String) : get? ([] : List (String × β)) k = none := rfl

theorem get?_cons (l : String) (v : β) (d : List (String × β)) (k : String) :
    get? ((l, v) :: d) k = if k = l then some v else get? d k := by
  unfold get?
  rw [List.lookup_cons]
  by_cases h : k = l
  · subst h; simp
  · rw [if_neg h, beq_false_of_ne h]

theorem get?_set (d : List (String × β)) (k : String) (v : β) (l : String) :
    get? (set d k v) l = if l = k then some v else get? d l := by
  induction d with
  | nil => simp [set, get?_cons]
  | cons kv rest ih =>
      obtain ⟨m, w⟩ := kv
      unfold set
      by_cases hm : m = k
      · subst hm
        by_cases hl : l = m <;> simp [get?_cons, hl]
      · rw [if_neg hm, get?_cons, ih, get?_cons]
        by_cases hlm : l = m
        · subst hlm; simp [hm]
        · simp [hlm]

theorem mem_set {d : List (String × β)} {k : String} {v : β} {kv : String × β}
    (h : kv ∈ set d k v) : kv = (k, v) ∨ kv ∈ d := by
  induction d with
  | nil => exact Or.inl (List.mem_singleton.mp h)
  | cons entry rest ih =>
      obtain ⟨l, w⟩ := entry
      unfold set at h
      split at h
      · rename_i hl
        rcases List.mem_cons.mp h with h | h
        · exact Or.inl (by rw [h, hl])
        · exact Or.inr (List.mem_cons_of_mem _ h)
      · rcases List.mem_cons.mp h with h | h
        · exact Or.inr (h ▸ List.mem_cons_self)
        · exact (ih h).imp_right (List.mem_cons_of_mem _)

theorem mem_of_get? {d : List (String × β)} {k : String} {v : β} (h : get? d k = some v) :
    (k, v) ∈ d := by
  induction d with
  | nil => cases h
  | cons kv rest ih =>
      obtain ⟨l, w⟩ := kv
      rw [get?_cons] at h
      split at h
      · rename_i hl
        cases h
        rw [hl]
        exact List.mem_cons_self
      · exact List.mem_cons_of_mem _ (ih h)

theorem isSome_get?_iff {d : List (String × β)} {k : String} :
    (get? d k).isSome ↔ k ∈ d.map Prod.fst := by
  unfold get?
  rw [List.lookup_isSome_iff, List.mem_map]
  constructor
  · rintro ⟨kv, hkv, hk⟩
    exact ⟨kv, hkv, (beq_iff_eq.mp hk).symm⟩
  · rintro ⟨kv, hkv, hk⟩
    exact ⟨kv, hkv, beq_iff_eq.mpr hk.symm⟩

/-- Entries picked by their keys. -/
theorem get?_filter_key (p : String → Bool) (d : List (String × β)) (k : String) :
    get? (d.filter fun kv => p kv.1) k = if p k then get? d k else none := by
  induction d with
  | nil => simp
  | cons kv rest ih =>
      obtain ⟨l, v⟩ := kv
      by_cases hl : p l = true
      · rw [List.filter_cons_of_pos (by simpa using hl), get?_cons, get?_cons, ih]
        by_cases hk : k = l
        · subst hk
          simp [hl]
        · simp [hk]
      · rw [List.filter_cons_of_neg (by simpa using hl), ih, get?_cons]
        by_cases hk : k = l
        · subst hk
          simp [hl]
        · simp [hk]

theorem get?_filter_ne (d : List (String × β)) (k l : String) :
    get? (d.filter fun kv => decide (kv.1 ≠ k)) l = if l = k then none else get? d l := by
  rw [get?_filter_key (fun key => decide (key ≠ k))]
  by_cases hl : l = k <;> simp [hl]

theorem get?_append (d e : List (String × β)) (k : String) :
    get? (d ++ e) k = (get? d k).or (get? e k) := by
  induction d with
  | nil => simp
  | cons kv rest ih =>
      obtain ⟨l, v⟩ := kv
      rw [List.cons_append, get?_cons, get?_cons, ih]
      split <;> simp

/-- A key reads from the last entry of `e` that has it, else from `d`. -/
theorem get?_merge (d e : List (String × β)) (k : String) :
    get? (merge d e) k = (get? e.reverse k).or (get? d k) := by
  unfold merge
  induction e generalizing d with
  | nil => simp
  | cons kv rest ih =>
      obtain ⟨l, v⟩ := kv
      rw [List.foldl_cons, ih, get?_set, List.reverse_cons, get?_append, get?_cons]
      cases get? rest.reverse k with
      | some w => simp
      | none => split <;> simp

theorem get?_merge_of_not_mem (d : List (String × β)) {e : List (String × β)} {k : String}
    (h : k ∉ e.map Prod.fst) : get? (merge d e) k = get? d k := by
  have hnone : get? e.reverse k = none := by
    unfold get?
    rw [List.lookup_eq_none_iff]
    exact fun p hp => bne_iff_ne.mpr fun heq =>
      h (List.mem_map.mpr ⟨p, List.mem_reverse.mp hp, heq.symm⟩)
  rw [get?_merge, hnone, Option.none_or]

theorem get?_ofEntries (entries : List (String × β)) (k : String) :
    get? (ofEntries entries) k = get? entries.reverse k := by
  simp [ofEntries, get?_merge]

/-- What a dictionary with distinct keys says is what reads from it after a merge. -/
theorem get?_merge_of_mem (d : List (String × β)) {e : List (String × β)}
    (h : (e.map Prod.fst).Nodup) {k : String} {v : β} (hmem : (k, v) ∈ e) :
    get? (merge d e) k = some v := by
  have hreverse : (e.reverse.map Prod.fst).Nodup := by
    rw [List.map_reverse]
    exact List.nodup_reverse.mpr h
  have hlookup : get? e.reverse k = some v :=
    (lookup_eq_some_iff_mem hreverse).mpr (List.mem_reverse.mpr hmem)
  rw [get?_merge, hlookup]
  rfl

/-- A comprehension that changes the values only. -/
theorem get?_map_values {γ : Type*} (f : β → γ) (d : List (String × β)) (k : String) :
    get? (d.map fun kv => (kv.1, f kv.2)) k = (get? d k).map f := by
  induction d with
  | nil => rfl
  | cons kv rest ih =>
      rw [List.map_cons, get?_cons, get?_cons, ih]
      split <;> rfl

theorem get?_ofEntries_map {γ : Type*} (f : β → γ) (entries : List (String × β))
    (k : String) :
    get? (ofEntries (entries.map fun kv => (kv.1, f kv.2))) k
      = (get? (ofEntries entries) k).map f := by
  rw [get?_ofEntries, get?_ofEntries, ← List.map_reverse, get?_map_values]

theorem keys_set (d : List (String × β)) (k : String) (v : β) :
    (set d k v).map Prod.fst
      = if k ∈ d.map Prod.fst then d.map Prod.fst else d.map Prod.fst ++ [k] := by
  induction d with
  | nil => rfl
  | cons kv rest ih =>
      obtain ⟨l, w⟩ := kv
      unfold set
      by_cases hl : l = k
      · simp [hl]
      · rw [if_neg hl, List.map_cons, ih]
        by_cases hk : k ∈ rest.map Prod.fst
        · have hk' : k ∈ ((l, w) :: rest).map Prod.fst := List.mem_cons_of_mem _ hk
          rw [if_pos hk, if_pos hk', List.map_cons]
        · have hk' : k ∉ ((l, w) :: rest).map Prod.fst := by simp [Ne.symm hl, hk]
          rw [if_neg hk, if_neg hk', List.map_cons, List.cons_append]

theorem nodup_keys_set {d : List (String × β)} (h : (d.map Prod.fst).Nodup) (k : String)
    (v : β) : ((set d k v).map Prod.fst).Nodup := by
  rw [keys_set]
  split
  · exact h
  · rename_i hk
    refine List.nodup_append.mpr ⟨h, List.nodup_singleton _, ?_⟩
    rintro a ha b hb rfl
    exact hk (List.mem_singleton.mp hb ▸ ha)

/-- No operation makes a second entry for a key. -/
theorem nodup_keys_merge {d : List (String × β)} (h : (d.map Prod.fst).Nodup)
    (e : List (String × β)) : ((merge d e).map Prod.fst).Nodup := by
  unfold merge
  induction e generalizing d with
  | nil => exact h
  | cons kv rest ih =>
      rw [List.foldl_cons]
      exact ih (nodup_keys_set h kv.1 kv.2)

theorem nodup_keys_ofEntries (entries : List (String × β)) :
    ((ofEntries entries).map Prod.fst).Nodup :=
  nodup_keys_merge (d := []) List.nodup_nil entries

theorem get?_ofEntries_of_nodup {d : List (String × β)} (h : (d.map Prod.fst).Nodup)
    (k : String) : get? (ofEntries d) k = get? d k := by
  rw [get?_ofEntries]
  have hrev : (d.reverse.map Prod.fst).Nodup := by
    rw [List.map_reverse]
    exact List.nodup_reverse.mpr h
  refine Option.ext fun v => ?_
  unfold get?
  rw [lookup_eq_some_iff_mem h, lookup_eq_some_iff_mem hrev, List.mem_reverse]

theorem mem_keys_merge {d e : List (String × β)} {k : String} :
    k ∈ (merge d e).map Prod.fst ↔ k ∈ d.map Prod.fst ∨ k ∈ e.map Prod.fst := by
  unfold merge
  induction e generalizing d with
  | nil => simp
  | cons kv rest ih =>
      rw [List.foldl_cons, ih, keys_set, List.map_cons, List.mem_cons]
      split
      · rename_i hkey
        constructor
        · rintro (h | h)
          · exact Or.inl h
          · exact Or.inr (Or.inr h)
        · rintro (h | rfl | h)
          · exact Or.inl h
          · exact Or.inl hkey
          · exact Or.inr h
      · rw [List.mem_append, List.mem_singleton, or_assoc]

theorem mem_keys_ofEntries {entries : List (String × β)} {k : String} :
    k ∈ (ofEntries entries).map Prod.fst ↔ k ∈ entries.map Prod.fst := by
  rw [ofEntries, mem_keys_merge]
  simp

theorem get?_ofEntries_filter (p : String → Bool) (entries : List (String × β)) (k : String) :
    get? (ofEntries (entries.filter fun kv => p kv.1)) k
      = if p k then get? (ofEntries entries) k else none := by
  rw [get?_ofEntries, get?_ofEntries, ← List.filter_reverse, get?_filter_key p]

/-- A dictionary built by a loop over another one, key by key. -/
theorem get?_ofEntries_filterMap {γ : Type*} (f : String → β → Option γ)
    {d : List (String × β)} (h : (d.map Prod.fst).Nodup) (k : String) :
    get? (ofEntries (d.filterMap fun kv => (f kv.1 kv.2).map (kv.1, ·))) k
      = (get? d k).bind (f k) := by
  rw [← get?_ofEntries_of_nodup h, get?_ofEntries, get?_ofEntries, ← List.filterMap_reverse]
  have hrev : (d.reverse.map Prod.fst).Nodup := by
    rw [List.map_reverse]
    exact List.nodup_reverse.mpr h
  clear h
  generalize d.reverse = rev at hrev ⊢
  induction rev with
  | nil => rfl
  | cons kv rest ih =>
      obtain ⟨l, v⟩ := kv
      obtain ⟨hl, hrest⟩ := List.nodup_cons.mp hrev
      have hmiss : k = l → get? rest k = none := by
        rintro rfl
        unfold get?
        rw [List.lookup_eq_none_iff]
        exact fun p hp => bne_iff_ne.mpr fun heq => hl (List.mem_map.mpr ⟨p, hp, heq.symm⟩)
      rw [List.filterMap_cons, get?_cons]
      cases hf : f l v with
      | none =>
          rw [Option.map_none, ih hrest]
          split
          · rename_i hk
            rw [hmiss hk]
            simp [hk, hf]
          · rfl
      | some w =>
          rw [Option.map_some, get?_cons, ih hrest]
          split
          · rename_i hk
            simp [hk, hf]
          · rfl

end

/-- `d.get(k)` with Python's default `None`. -/
def get (d : Dict) (k : String) : Json := (get? d k).getD .null

/-- `d.get(k, default)`. -/
def getD (d : Dict) (k : String) (default : Json) : Json := (get? d k).getD default

theorem get_merge_of_not_mem (d : Dict) {e : Dict} {k : String}
    (h : k ∉ e.map Prod.fst) : get (merge d e) k = get d k := by
  rw [get, get, get?_merge_of_not_mem d h]

theorem get_set (d : Dict) (k : String) (v : Json) (l : String) :
    get (set d k v) l = if l = k then v else get d l := by
  unfold get
  rw [get?_set]
  split <;> rfl

end Dict

/-! ## `str` and `str.strip` -/

/-- `str.isspace` of one character. -/
def isSpace (c : Char) : Bool :=
  let n := c.toNat
  (9 ≤ n && n ≤ 13) || (28 ≤ n && n ≤ 32) || n == 0x85 || n == 0xA0
    || n == 0x1680 || (0x2000 ≤ n && n ≤ 0x200A) || n == 0x2028 || n == 0x2029
    || n == 0x202F || n == 0x205F || n == 0x3000

/-- `s.strip()` on the characters of `s`. -/
def stripChars (cs : List Char) : List Char :=
  ((cs.dropWhile isSpace).reverse.dropWhile isSpace).reverse

/-- `s.strip()`. -/
def strip (s : String) : String := String.ofList (stripChars s.toList)

/-- `text[:n]`. -/
def takeText (n : Nat) (text : String) : String := String.ofList (text.toList.take n)

/-- `text.strip(chars)`, on the characters of `text`. -/
def stripOf (chars : List Char) (text : List Char) : List Char :=
  ((text.dropWhile (· ∈ chars)).reverse.dropWhile (· ∈ chars)).reverse

/-- Stripping on the right keeps a left end that is no space. -/
theorem dropWhile_rdropWhile {α : Type*} (p : α → Bool) {xs : List α}
    (h : xs.dropWhile p = xs) : (xs.rdropWhile p).dropWhile p = xs.rdropWhile p := by
  obtain ⟨tail, htail⟩ := List.rdropWhile_prefix p (l := xs)
  cases hys : xs.rdropWhile p with
  | nil => rfl
  | cons y ys =>
      rw [hys, List.cons_append] at htail
      rw [← htail, List.dropWhile_eq_self_iff] at h
      exact List.dropWhile_eq_self_iff.mpr fun _ => h (Nat.succ_pos _)

theorem strip_strip (s : String) : strip (strip s) = strip s := by
  unfold strip
  rw [String.toList_ofList]
  refine congrArg String.ofList ?_
  change ((((s.toList.dropWhile isSpace).rdropWhile isSpace).dropWhile isSpace).rdropWhile
    isSpace) = (s.toList.dropWhile isSpace).rdropWhile isSpace
  rw [dropWhile_rdropWhile isSpace (List.dropWhile_idempotent isSpace s.toList),
    List.rdropWhile_idempotent]

theorem dropWhile_isSpace_eq_self {cs : List Char} :
    cs.dropWhile isSpace = cs ↔ ∀ c ∈ cs.head?, isSpace c = false := by
  cases cs with
  | nil => simp
  | cons c cs =>
      constructor
      · intro h d hd
        obtain rfl := Option.some.inj hd
        by_contra hspace
        have hlength := (List.dropWhile_sublist (p := isSpace) (l := cs)).length_le
        rw [List.dropWhile_cons_of_pos (by simpa using hspace)] at h
        have := congrArg List.length h
        rw [List.length_cons] at this
        omega
      · intro h
        exact List.dropWhile_cons_of_neg (by simp [h c rfl])

/-- A text that has no blank at its ends. -/
theorem strip_eq_self_iff {text : String} :
    strip text = text ↔ (∀ c ∈ text.toList.head?, isSpace c = false)
      ∧ ∀ c ∈ text.toList.getLast?, isSpace c = false := by
  rw [← List.head?_reverse, ← dropWhile_isSpace_eq_self, ← dropWhile_isSpace_eq_self]
  unfold strip stripChars
  constructor
  · intro h
    have hlist := congrArg String.toList h
    rw [String.toList_ofList] at hlist
    have hfront : text.toList.dropWhile isSpace = text.toList := by
      refine (List.dropWhile_sublist _).eq_of_length_le ?_
      have h1 := congrArg List.length hlist
      have h2 := (List.dropWhile_sublist (p := isSpace)
        (l := (text.toList.dropWhile isSpace).reverse)).length_le
      simp only [List.length_reverse] at h1 h2
      omega
    rw [hfront] at hlist
    exact ⟨hfront, List.reverse_eq_iff.mp hlist⟩
  · rintro ⟨hfront, hback⟩
    rw [hfront, hback, List.reverse_reverse, String.ofList_toList]

theorem strip_eq_self {text : String} (first last : Char) (middle : List Char)
    (htext : text.toList = first :: (middle ++ [last])) (hfirst : isSpace first = false)
    (hlast : isSpace last = false) : strip text = text := by
  refine strip_eq_self_iff.mpr ?_
  rw [htext, ← List.cons_append, List.getLast?_concat]
  simp [hfirst, hlast]

theorem strip_append {x y : String} (hx : strip x = x) (hxne : x ≠ "") (hy : strip y = y)
    (hyne : y ≠ "") : strip (x ++ y) = x ++ y := by
  have hxnil : x.toList ≠ [] := fun h => hxne (String.toList_eq_nil_iff.mp h)
  have hynil : y.toList ≠ [] := fun h => hyne (String.toList_eq_nil_iff.mp h)
  refine strip_eq_self_iff.mpr ?_
  rw [String.toList_append, List.head?_append_of_ne_nil _ hxnil,
    List.getLast?_append_of_ne_nil _ hynil]
  exact ⟨(strip_eq_self_iff.mp hx).1, (strip_eq_self_iff.mp hy).2⟩

/-- The text before a separator that it does not contain. -/
theorem append_cons_inj {c : Char} {a b x y : List Char} (ha : c ∉ a) (hb : c ∉ b)
    (h : a ++ c :: x = b ++ c :: y) : a = b ∧ x = y := by
  induction a generalizing b with
  | nil =>
      cases b with
      | nil => exact ⟨rfl, (List.cons.inj h).2⟩
      | cons d b => exact absurd (List.mem_cons.mpr (Or.inl (List.cons.inj h).1)) hb
  | cons d a ih =>
      cases b with
      | nil => exact absurd (List.mem_cons.mpr (Or.inl (List.cons.inj h).1.symm)) ha
      | cons e b =>
          obtain ⟨hde, hrest⟩ := List.cons.inj h
          have htail := ih (fun hc => ha (List.mem_cons_of_mem _ hc))
            (fun hc => hb (List.mem_cons_of_mem _ hc)) hrest
          exact ⟨by rw [hde, htail.1], htail.2⟩

/-- The text after the last separator. -/
theorem append_cons_inj_last {c : Char} {a b x y : List Char} (hx : c ∉ x) (hy : c ∉ y)
    (h : a ++ c :: x = b ++ c :: y) : a = b ∧ x = y := by
  have hreverse := congrArg List.reverse h
  simp only [List.reverse_append, List.reverse_cons, List.append_assoc, List.singleton_append]
    at hreverse
  obtain ⟨htail, hhead⟩ := append_cons_inj (by simpa using hx) (by simpa using hy) hreverse
  exact ⟨List.reverse_injective hhead, List.reverse_injective htail⟩

/-! `str(x)` is `repr(x)` except on a string. Inside a container a string
is quoted; characters outside ASCII are kept, as for every printable one. -/

def hexDigit (n : Nat) : Char := Nat.digitChar (n % 16)

def escapeChar (quote c : Char) : List Char :=
  if c = quote || c.toNat = 92 then [Char.ofNat 92, c]
  else if c.toNat = 10 then [Char.ofNat 92, 'n']
  else if c.toNat = 13 then [Char.ofNat 92, 'r']
  else if c.toNat = 9 then [Char.ofNat 92, 't']
  else if c.toNat < 32 || c.toNat = 127 then
    [Char.ofNat 92, 'x', hexDigit (c.toNat / 16), hexDigit c.toNat]
  else [c]

def reprStr (s : String) : String :=
  let single := Char.ofNat 39
  let double := Char.ofNat 34
  let quote := if single ∈ s.toList ∧ double ∉ s.toList then double else single
  String.ofList (quote :: s.toList.flatMap (escapeChar quote) ++ [quote])

mutual

def Json.pyRepr : Json → String
  | .null => "None"
  | .bool b => if b then "True" else "False"
  | .int n => toString n
  | .float r => r
  | .str s => reprStr s
  | .arr xs => "[" ++ String.intercalate ", " (Json.pyReprItems xs) ++ "]"
  | .obj es => "\x7b" ++ String.intercalate ", " (Json.pyReprEntries es) ++ "\x7d"

def Json.pyReprItems : List Json → List String
  | [] => []
  | x :: xs => x.pyRepr :: Json.pyReprItems xs

def Json.pyReprEntries : List (String × Json) → List String
  | [] => []
  | (k, v) :: es => (reprStr k ++ ": " ++ v.pyRepr) :: Json.pyReprEntries es

end

/-- `str(x)`. -/
def Json.pyStr : Json → String
  | .str s => s
  | v => v.pyRepr

@[simp] theorem Json.pyStr_str (s : String) : (Json.str s).pyStr = s := rfl

/-- `str(text or other)`. -/
theorem Json.pyStr_orElse_str (text other : String) :
    ((Json.str text).orElse (.str other)).pyStr = if text = "" then other else text := by
  unfold Json.orElse
  by_cases h : text = "" <;> simp [h]

/-! ## `int(x)`

A float is truncated, a text may have blanks around it, a sign and single
underscores between its digits. Digits outside ASCII are not covered. -/

/-- The number written by ASCII digits, at least one of them. -/
def digitsValue (digits : List Char) : Option Nat :=
  if digits.isEmpty || digits.any (fun c => !c.isDigit) then none
  else some (digits.foldl (fun n c => n * 10 + (c.toNat - 48)) 0)

/-- A sign and what follows it. -/
def splitSign : List Char → Bool × List Char
  | '-' :: rest => (true, rest)
  | '+' :: rest => (false, rest)
  | digits => (false, digits)

def signed (negative : Bool) (n : Nat) : Int := if negative then -n else n

/-- The text before the first `c`, and the one after it. -/
def splitAtChar (c : Char) (text : List Char) : List Char × Option (List Char) :=
  match text.span (· ≠ c) with
  | (before, _ :: after) => (before, some after)
  | (before, []) => (before, none)

/-- `int(text)`. -/
def intOfText (text : String) : Option Int :=
  let (negative, digits) := splitSign (stripChars text.toList)
  let groups := digits.splitOnP (· = '_')
  if groups.any List.isEmpty then none
  else (digitsValue groups.flatten).map (signed negative)

/-! ### Numbers as texts -/

theorem colon_not_mem_digits (n : Nat) : ':' ∉ (toString n).toList := by
  intro hmem
  have hdigit : (':' : Char).isDigit = true :=
    Nat.isDigit_of_mem_toDigits (b := 10) (n := n) (by decide) (by decide)
      (by simpa [toString, Nat.repr] using hmem)
  exact absurd hdigit (by decide)

theorem digitsValue_toDigits (n : ℕ) : digitsValue (Nat.toDigits 10 n) = some n := by
  have hdigits : ((Nat.toDigits 10 n).isEmpty
      || (Nat.toDigits 10 n).any fun c => !c.isDigit) = false := by
    rw [Bool.or_eq_false_iff]
    constructor
    · exact List.isEmpty_eq_false_iff.mpr Nat.toDigits_ne_nil
    · refine List.any_eq_false.mpr fun c hc => ?_
      rw [Nat.isDigit_of_mem_toDigits (by decide) (by decide) hc]
      decide
  have hvalue := Nat.ofDigitChars_ten_toDigits (n := n)
  rw [Nat.ofDigitChars_eq_foldl] at hvalue
  unfold digitsValue
  rw [hdigits, if_neg Bool.false_ne_true]
  refine congrArg some (Eq.trans ?_ hvalue)
  simp only [Nat.mul_comm]
  rfl

theorem stripChars_of_nospace {text : List Char} (h : ∀ c ∈ text, isSpace c = false) :
    stripChars text = text := by
  have hdrop : ∀ {chars : List Char}, (∀ c ∈ chars, isSpace c = false) →
      chars.dropWhile isSpace = chars := by
    intro chars hchars
    rcases chars with - | ⟨c, chars⟩
    · rfl
    · exact List.dropWhile_cons_of_neg (by rw [hchars c List.mem_cons_self]; decide)
  unfold stripChars
  rw [hdrop h, hdrop fun c hc => h c (List.mem_reverse.mp hc), List.reverse_reverse]

/-- `int(str(n)) == n`. -/
theorem intOfText_toString (n : ℕ) : intOfText (toString n) = some (n : Int) := by
  have hdigit : ∀ c ∈ Nat.toDigits 10 n, c.isDigit = true := fun c hc =>
    Nat.isDigit_of_mem_toDigits (by decide) (by decide) hc
  have hrange : ∀ c : Char, c.isDigit = true → 48 ≤ c.toNat ∧ c.toNat ≤ 57 := by
    intro c hc
    unfold Char.isDigit at hc
    simp only [Bool.and_eq_true, decide_eq_true_eq] at hc
    exact hc
  have htext : (toString n).toList = Nat.toDigits 10 n := Nat.toList_repr
  have hspace : ∀ c ∈ Nat.toDigits 10 n, isSpace c = false := by
    intro c hc
    have := hrange c (hdigit c hc)
    unfold isSpace
    simp only [Bool.or_eq_false_iff, Bool.and_eq_false_iff, decide_eq_false_iff_not,
      beq_eq_false_iff_ne]
    omega
  have hsign : splitSign (Nat.toDigits 10 n) = (false, Nat.toDigits 10 n) := by
    cases hlist : Nat.toDigits 10 n with
    | nil => rfl
    | cons c rest =>
        have hc := hrange c (hdigit c (by rw [hlist]; exact List.mem_cons_self))
        unfold splitSign
        split
        · rename_i heq
          rw [(List.cons.inj heq).1] at hc
          exact absurd hc (by decide)
        · rename_i heq
          rw [(List.cons.inj heq).1] at hc
          exact absurd hc (by decide)
        · rfl
  have hgroups : (Nat.toDigits 10 n).splitOnP (· = '_') = [Nat.toDigits 10 n] := by
    refine List.splitOnP_eq_singleton fun c hc => ?_
    have hc := hrange c (hdigit c hc)
    refine decide_eq_false fun heq => ?_
    rw [heq] at hc
    exact absurd hc (by decide)
  unfold intOfText
  rw [htext, stripChars_of_nospace hspace, hsign]
  dsimp only
  rw [hgroups]
  have hnonempty : ([Nat.toDigits 10 n].any List.isEmpty) = false := by
    rw [List.any_cons, List.any_nil, Bool.or_false]
    exact List.isEmpty_eq_false_iff.mpr Nat.toDigits_ne_nil
  rw [hnonempty, if_neg Bool.false_ne_true, List.flatten_singleton, digitsValue_toDigits]
  rfl

/-- `int(x)` of a finite float, from its `repr`: digits, a point, an exponent. -/
def truncRepr (repr : String) : Option Int := do
  let (negative, text) := splitSign repr.toList
  let (mantissa, exponent) := splitAtChar 'e' text
  let (whole, fraction) := splitAtChar '.' mantissa
  let fraction := fraction.getD []
  let digits ← digitsValue (whole ++ fraction)
  let shift ← match exponent with
    | none => some 0
    | some e => intOfText (String.ofList e)
  let scale : Int := shift - fraction.length
  return signed negative
    (if 0 ≤ scale then digits * 10 ^ scale.toNat else digits / 10 ^ (-scale).toNat)

/-- The double next to a whole number, ties to even. -/
def roundDouble (n : Nat) : Nat :=
  if n < 2 ^ 53 then n
  else
    let unit := 2 ^ (n.log2 - 52)
    let whole := n / unit
    let rest := 2 * (n % unit)
    (if unit < rest ∨ (rest = unit ∧ whole % 2 = 1) then whole + 1 else whole) * unit

/-- The whole number that a finite float is equal to, from its `repr`. -/
def floatInt? (repr : String) : Option Int := do
  let (negative, text) := splitSign repr.toList
  let (mantissa, exponent) := splitAtChar 'e' text
  let (whole, fraction) := splitAtChar '.' mantissa
  let fraction := fraction.getD []
  let digits ← digitsValue (whole ++ fraction)
  let shift ← match exponent with
    | none => some 0
    | some e => intOfText (String.ofList e)
  let scale : Int := shift - fraction.length
  if 0 ≤ scale then return signed negative (roundDouble (digits * 10 ^ scale.toNat))
  else if digits % 10 ^ (-scale).toNat = 0 then
    return signed negative (roundDouble (digits / 10 ^ (-scale).toNat))
  else none

/-- What a scalar is as a key of a dictionary: `True`, `1` and `1.0` are one key. -/
def Json.keyScalar : Json → Json
  | .bool b => .int (if b then 1 else 0)
  | .float repr => ((floatInt? repr).map .int).getD (.float repr)
  | x => x

/-- Only a text is one key with a text. -/
theorem Json.keyScalar_eq_str {k : Json} {s : String} : k.keyScalar = .str s ↔ k = .str s := by
  cases k with
  | float repr =>
      rw [show (Json.float repr).keyScalar = ((floatInt? repr).map .int).getD (.float repr)
        from rfl]
      cases floatInt? repr <;> simp
  | _ => simp [Json.keyScalar]

/-- A dictionary whose keys are any scalars, in insertion order. -/
abbrev ScalarDict := List (Json × Json)

namespace ScalarDict

/-- `d.get(k)` for a text `k`. -/
def get (d : ScalarDict) (k : String) : Json := (d.lookup (.str k)).getD .null

/-- `d[k] = v`: an equal key keeps its place and its first object. -/
def set (d : ScalarDict) (k v : Json) : ScalarDict :=
  match d with
  | [] => [(k, v)]
  | (l, w) :: rest => if l.keyScalar = k.keyScalar then (l, v) :: rest else (l, w) :: set rest k v

/-- A dictionary with text keys. -/
def ofDict (d : Dict) : ScalarDict := d.map fun kv => (.str kv.1, kv.2)

/-- The entries as `json.dumps` writes them, which names every key by a text. -/
def jsonEntries (d : ScalarDict) : Dict :=
  d.map fun kv => (match kv.1 with
    | .str s => s
    | .bool b => if b then "true" else "false"
    | .null => "null"
    | k => k.pyStr, kv.2)

theorem get_cons (l v : Json) (d : ScalarDict) (k : String) :
    get ((l, v) :: d) k = if l = .str k then v else get d k := by
  unfold get
  rw [List.lookup_cons]
  by_cases h : l = .str k
  · simp [h]
  · rw [if_neg h, beq_false_of_ne (Ne.symm h)]

theorem get_set (d : ScalarDict) (k : String) (v : Json) (l : String) :
    get (set d (.str k) v) l = if l = k then v else get d l := by
  induction d with
  | nil =>
      change get [(Json.str k, v)] l = _
      rw [get_cons]
      by_cases h : l = k
      · rw [h, if_pos rfl, if_pos rfl]
      · rw [if_neg fun heq => h (Json.str.inj heq).symm, if_neg h]
  | cons kv rest ih =>
      obtain ⟨m, w⟩ := kv
      unfold set
      change get (if m.keyScalar = .str k then _ else _) l = _
      by_cases hm : m = .str k
      · rw [if_pos (Json.keyScalar_eq_str.mpr hm), get_cons, get_cons, hm]
        by_cases hl : l = k
        · rw [hl, if_pos rfl, if_pos rfl]
        · rw [if_neg fun heq => hl (Json.str.inj heq).symm, if_neg hl,
            if_neg fun heq => hl (Json.str.inj heq).symm]
      · rw [if_neg fun h => hm (Json.keyScalar_eq_str.mp h), get_cons, ih, get_cons]
        by_cases hl : l = k
        · rw [hl, if_neg hm, if_pos rfl, if_pos rfl]
        · rw [if_neg hl, if_neg hl]

theorem set_set (d : ScalarDict) (k v w : Json) : set (set d k v) k w = set d k w := by
  induction d with
  | nil => simp [set]
  | cons kv rest ih =>
      obtain ⟨l, u⟩ := kv
      by_cases h : l.keyScalar = k.keyScalar <;> simp [set, h, ih]

end ScalarDict

/-- `int(x)`; the exception's name when it raises. -/
def Json.pyInt : Json → Except String Int
  | .int n => .ok n
  | .bool b => .ok (if b then 1 else 0)
  | .float "inf" | .float "-inf" => .error "OverflowError"
  | .float repr =>
      match truncRepr repr with
      | some n => .ok n
      | none => .error "ValueError"
  | .str text =>
      match intOfText text with
      | some n => .ok n
      | none => .error "ValueError"
  | _ => .error "TypeError"

example : [Json.float "-0.0", .float "12.0", .float "0.5", .float "1e+23"].map Json.keyScalar
    = [.int 0, .int 12, .float "0.5", .int 99999999999999991611392] := by
  decide

example : (Json.float "8000.75").pyInt = .ok 8000 := by decide

example : (Json.float "-1.5e+16").pyInt = .ok (-15000000000000000) := by decide

example : (Json.str " +1_000 ").pyInt = .ok 1000 := by decide

end Py
