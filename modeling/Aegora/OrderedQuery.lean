import Mathlib.Data.List.Sort
import Mathlib.Order.RelClasses

/-!
# Filtered, ordered and limited lists

What a query with a `WHERE`, an `ORDER BY` and a `LIMIT` selects, as a filter,
an insertion sort and a prefix. The order is given by a sort key in a linear
order; where different elements have different keys, the sorted list only
depends on which elements there are, and sorting commutes with filtering.
-/

namespace OrderedQuery

variable {α β γ κ : Type*} [LinearOrder κ] {key : α → κ} {r : α → α → Prop} [DecidableRel r]
  {l l' : List α} {p : α → Bool}

theorem pairwise_insertionSort (hr : ∀ a b, r a b ↔ key a ≤ key b) (l : List α) :
    (l.insertionSort r).Pairwise r := by
  have htotal : Std.Total r := ⟨fun a b => by rw [hr, hr]; exact le_total _ _⟩
  have htrans : IsTrans α r := ⟨fun a b c hab hbc => by
    rw [hr] at hab hbc ⊢
    exact hab.trans hbc⟩
  exact List.pairwise_insertionSort r l

/-- The same elements are sorted to the same list. -/
theorem insertionSort_eq_of_perm (hr : ∀ a b, r a b ↔ key a ≤ key b)
    (hkey : ∀ a ∈ l, ∀ b ∈ l, key a = key b → a = b) (h : l.Perm l') :
    l.insertionSort r = l'.insertionSort r := by
  refine List.Perm.eq_of_pairwise ?_ (pairwise_insertionSort hr l) (pairwise_insertionSort hr l')
    ((List.perm_insertionSort r l).trans (h.trans (List.perm_insertionSort r l').symm))
  intro a b ha hb hab hba
  rw [List.mem_insertionSort] at ha hb
  exact hkey a ha b (h.mem_iff.mpr hb) (le_antisymm ((hr a b).mp hab) ((hr b a).mp hba))

/-- Filtering keeps the order. -/
theorem filter_insertionSort (hr : ∀ a b, r a b ↔ key a ≤ key b)
    (hkey : ∀ a ∈ l, ∀ b ∈ l, key a = key b → a = b) :
    (l.insertionSort r).filter p = (l.filter p).insertionSort r := by
  refine List.Perm.eq_of_pairwise ?_ ((pairwise_insertionSort hr l).filter p)
    (pairwise_insertionSort hr _)
    (((List.perm_insertionSort r l).filter p).trans (List.perm_insertionSort r _).symm)
  intro a b ha hb hab hba
  rw [List.mem_insertionSort] at hb
  exact hkey a ((List.mem_insertionSort r).mp (List.mem_of_mem_filter ha)) b
    (List.mem_of_mem_filter hb) (le_antisymm ((hr a b).mp hab) ((hr b a).mp hba))

/-- Elements with the same key keep their order. -/
theorem filter_key_insertionSort (hr : ∀ a b, r a b ↔ key a ≤ key b) (l : List α) (k : κ) :
    (l.insertionSort r).filter (fun a => key a = k) = l.filter fun a => key a = k := by
  have htotal : Std.Total r := ⟨fun a b => by rw [hr, hr]; exact le_total _ _⟩
  have htrans : IsTrans α r := ⟨fun a b c hab hbc => by
    rw [hr] at hab hbc ⊢
    exact hab.trans hbc⟩
  have hsorted : (l.filter fun a => key a = k).Pairwise r := by
    refine List.pairwise_of_forall_mem_list fun a ha b hb => ?_
    rw [hr, of_decide_eq_true (List.mem_filter.mp ha).2,
      of_decide_eq_true (List.mem_filter.mp hb).2]
  have hsub := (List.sublist_insertionSort hsorted List.filter_sublist).filter fun a => key a = k
  rw [List.filter_filter] at hsub
  simp only [Bool.and_self] at hsub
  refine (hsub.eq_of_length ?_).symm
  exact ((List.perm_insertionSort r l).symm.filter _).length_eq

/-- What is left of a limited list is at the beginning of what is left of all. -/
theorem prefix_filter_take (n : Nat) : (l.take n).filter p <+: (l.filter p).take n := by
  refine List.prefix_take_iff.mpr ⟨(List.take_prefix n l).filter p, ?_⟩
  exact (List.length_filter_le p _).trans (List.length_take_le n l)

/-- A query that fetches as many more rows as it may have to leave out finds what
it would find among all rows. -/
theorem take_filter_take {m n : Nat} (h : (l.filter fun a => !p a).length ≤ m) :
    ((l.take (n + m)).filter p).take n = (l.filter p).take n := by
  by_cases hlength : n + m ≤ l.length
  · obtain ⟨rest, hrest⟩ := (prefix_filter_take (l := l) (p := p) (n + m)).trans
      (List.take_prefix _ _)
    have hcount : n ≤ ((l.take (n + m)).filter p).length := by
      have hsplit := List.length_eq_length_filter_add (l := l.take (n + m)) p
      have hout := (((List.take_sublist (n + m) l).filter fun a => !p a).length_le).trans h
      rw [List.length_take, min_eq_left hlength] at hsplit
      omega
    rw [← hrest, List.take_append_of_le_length hcount]
  · rw [List.take_of_length_le (l := l) (by omega)]

/-! ## Places in a strictly ordered list -/

/-- A strictly ordered list is determined by its elements. -/
theorem eq_of_pairwise_lt (h : l.Pairwise fun a b => key a < key b)
    (h' : l'.Pairwise fun a b => key a < key b) (hmem : ∀ a, a ∈ l ↔ a ∈ l') : l = l' := by
  have hnodup : ∀ {m : List α}, (m.Pairwise fun a b => key a < key b) → m.Nodup := fun hm =>
    hm.imp fun {a b} (hab : key a < key b) heq => hab.ne (congrArg key heq)
  have hperm : l.Perm l' := (List.perm_ext_iff_of_nodup (hnodup h) (hnodup h')).mpr hmem
  refine List.Perm.eq_of_pairwise ?_ h h' hperm
  intro a b _ _ hab hba
  exact absurd hba hab.asymm

/-- The place of an element is the number of elements before it. -/
theorem idxOf_eq_countP [DecidableEq α] (h : l.Pairwise fun a b => key a < key b) {a : α}
    (ha : a ∈ l) : l.idxOf a = l.countP fun b => key b < key a := by
  induction l with
  | nil => exact absurd ha List.not_mem_nil
  | cons b l ih =>
      obtain ⟨hb, hl⟩ := List.pairwise_cons.mp h
      rcases List.mem_cons.mp ha with rfl | ha
      · rw [List.idxOf_cons_self, eq_comm, List.countP_eq_zero]
        intro c hc
        rcases List.mem_cons.mp hc with rfl | hc
        · simp
        · simpa using (hb c hc).le
      · have hlt := hb a ha
        have hne : b ≠ a := fun heq => hlt.ne (congrArg key heq)
        rw [List.idxOf_cons_ne l hne, ih hl ha, List.countP_cons_of_pos (by simpa using hlt)]

/-- When no element newly comes before `a`, `a` does not move down. -/
theorem idxOf_le_idxOf [DecidableEq α] {key' : α → κ} (h : l.Pairwise fun a b => key a < key b)
    (h' : l'.Pairwise fun a b => key' a < key' b) (hmem : ∀ a, a ∈ l ↔ a ∈ l') {a : α}
    (ha : a ∈ l) (hbefore : ∀ b, key' b < key' a → key b < key a) :
    l'.idxOf a ≤ l.idxOf a := by
  have hnodup : l.Nodup := h.imp fun {a b} (hab : key a < key b) heq =>
    hab.ne (congrArg key heq)
  have hnodup' : l'.Nodup := h'.imp fun {a b} (hab : key' a < key' b) heq =>
    hab.ne (congrArg key' heq)
  have hperm : l.Perm l' := (List.perm_ext_iff_of_nodup hnodup hnodup').mpr hmem
  rw [idxOf_eq_countP h ha, idxOf_eq_countP h' ((hmem a).mp ha), ← hperm.countP_eq]
  refine List.countP_mono_left fun b _ hb => ?_
  simpa using hbefore b (by simpa using hb)

/-! ## Two lists, side by side -/

/-- Lists with the same image are the two sides of a list of pairs. -/
theorem exists_pairs {f : α → γ} {g : β → γ} {l : List α} {l' : List β}
    (h : l.map f = l'.map g) :
    ∃ z : List (α × β), l = z.map Prod.fst ∧ l' = z.map Prod.snd ∧ ∀ x ∈ z, f x.1 = g x.2 := by
  induction l generalizing l' with
  | nil =>
      rw [List.map_nil, eq_comm, List.map_eq_nil_iff] at h
      exact ⟨[], rfl, h, fun _ hx => absurd hx List.not_mem_nil⟩
  | cons a l ih =>
      obtain ⟨b, rest, rfl, hab, hrest⟩ := List.map_eq_cons_iff.mp h.symm
      obtain ⟨z, rfl, rfl, hz⟩ := ih hrest.symm
      refine ⟨(a, b) :: z, rfl, rfl, fun x hx => ?_⟩
      rcases List.mem_cons.mp hx with rfl | hx
      · exact hab.symm
      · exact hz x hx

theorem map_eq_of_pairs {f : α → γ} {g : β → γ} {z : List (α × β)}
    (h : ∀ x ∈ z, f x.1 = g x.2) : (z.map Prod.fst).map f = (z.map Prod.snd).map g := by
  rw [List.map_map, List.map_map]
  exact List.map_congr_left h

/-- Two sides that are ordered alike are sorted alike. -/
theorem exists_sorted_pairs {s : β → β → Prop} [DecidableRel s] {z : List (α × β)}
    (h : ∀ x ∈ z, ∀ y ∈ z, r x.1 y.1 ↔ s x.2 y.2) :
    ∃ w : List (α × β), w.Perm z
      ∧ (z.map Prod.fst).insertionSort r = w.map Prod.fst
      ∧ (z.map Prod.snd).insertionSort s = w.map Prod.snd := by
  refine ⟨z.insertionSort fun x y => r x.1 y.1, List.perm_insertionSort _ z, ?_, ?_⟩
  · exact (List.map_insertionSort _ r Prod.fst z fun x _ y _ => Iff.rfl).symm
  · exact (List.map_insertionSort _ s Prod.snd z h).symm

/-- Two sides that agree on what a query asks give the two sides of its answer. -/
theorem exists_query_pairs {s : β → β → Prop} [DecidableRel s] {z : List (α × β)}
    {q : β → Bool} (hp : ∀ x ∈ z, p x.1 = q x.2)
    (hr : ∀ x ∈ z, ∀ y ∈ z, r x.1 y.1 ↔ s x.2 y.2) (n : Nat) :
    ∃ w : List (α × β), w ⊆ z
      ∧ (((z.map Prod.fst).filter p).insertionSort r).take n = w.map Prod.fst
      ∧ (((z.map Prod.snd).filter q).insertionSort s).take n = w.map Prod.snd := by
  obtain ⟨w, hw, hfst, hsnd⟩ := exists_sorted_pairs (z := z.filter fun x => p x.1)
    (r := r) (s := s) fun x hx y hy =>
      hr x (List.mem_of_mem_filter hx) y (List.mem_of_mem_filter hy)
  have hsame : (z.map Prod.snd).filter q = (z.filter fun x => p x.1).map Prod.snd := by
    rw [List.filter_map]
    congr 1
    exact List.filter_congr fun x hx => (hp x hx).symm
  refine ⟨w.take n, fun x hx => ?_, ?_, ?_⟩
  · exact List.mem_of_mem_filter (hw.mem_iff.mp (List.mem_of_mem_take hx))
  · rw [List.filter_map, List.map_take, ← hfst]
    rfl
  · rw [hsame, hsnd, List.map_take]

end OrderedQuery
