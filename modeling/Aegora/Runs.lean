import Mathlib.Data.List.Basic

/-!
# Runs of a transition system

A system is a partial step function `step : σ → α → Option σ`: `none`
when the action is not enabled. A run is a list of actions. Invariants
are carried along a run by `run_invariant`, also when the steps are
only known to meet a condition (`Meets`): a defect that one kind of
step introduces is then stated as the condition that excludes it.
`run_pair` is the two-run rule: two runs that differ in actions which a
relation ignores end related.
-/

namespace Runs

variable {σ α : Type*}

/-- Perform the actions in order. -/
def run (step : σ → α → Option σ) : σ → List α → Option σ
  | s, [] => some s
  | s, a :: as => (step s a).bind fun t => run step t as

/-- Every action of the list meets `C` in the state it is performed in. -/
def Meets (step : σ → α → Option σ) (C : σ → α → Prop) : σ → List α → Prop
  | _, [] => True
  | s, a :: as => C s a ∧ ∀ t, step s a = some t → Meets step C t as

variable {step : σ → α → Option σ} {C : σ → α → Prop}

@[simp] theorem run_nil (s : σ) : run step s [] = some s := rfl

theorem run_cons_eq {s t : σ} {a : α} {as : List α} :
    run step s (a :: as) = some t
      ↔ ∃ u, step s a = some u ∧ run step u as = some t := by
  simp [run, Option.bind_eq_some_iff]

theorem run_append {s t : σ} {as bs : List α} :
    run step s (as ++ bs) = some t
      ↔ ∃ u, run step s as = some u ∧ run step u bs = some t := by
  induction as generalizing s with
  | nil => simp
  | cons a as ih =>
      simp only [List.cons_append, run_cons_eq, ih]
      constructor
      · rintro ⟨u, hu, v, hv, ht⟩
        exact ⟨v, ⟨u, hu, hv⟩, ht⟩
      · rintro ⟨v, ⟨u, hu, hv⟩, ht⟩
        exact ⟨u, hu, v, hv, ht⟩

/-- A run that meets `C` still does after each prefix. -/
theorem meets_append {s : σ} {as bs : List α}
    (h : Meets step C s (as ++ bs)) :
    Meets step C s as ∧ ∀ u, run step s as = some u → Meets step C u bs := by
  induction as generalizing s with
  | nil => exact ⟨trivial, fun u hu => by cases hu; exact h⟩
  | cons a as ih =>
      obtain ⟨hC, hrest⟩ := h
      refine ⟨⟨hC, fun t ht => (ih (hrest t ht)).1⟩, fun u hu => ?_⟩
      obtain ⟨t, ht, hu⟩ := run_cons_eq.mp hu
      exact (ih (hrest t ht)).2 u hu

/-- The condition holds at the action that follows a prefix. -/
theorem meets_at {s u : σ} {as bs : List α} {a : α}
    (h : Meets step C s (as ++ a :: bs)) (hu : run step s as = some u) : C u a :=
  ((meets_append h).2 u hu).1

/-- `Meets`, read over the prefixes of the run. -/
theorem meets_iff {s : σ} {as : List α} :
    Meets step C s as
      ↔ ∀ pre a post u, as = pre ++ a :: post → run step s pre = some u → C u a := by
  constructor
  · rintro h pre a post u rfl hu
    exact meets_at h hu
  · intro h
    induction as generalizing s with
    | nil => trivial
    | cons a as ih =>
        refine ⟨h [] a as s rfl rfl, fun t ht => ih fun pre b post u has hu => ?_⟩
        exact h (a :: pre) b post u (by rw [has, List.cons_append])
          (run_cons_eq.mpr ⟨t, ht, hu⟩)

theorem meets_true (s : σ) (as : List α) :
    Meets step (fun _ _ => True) s as := by
  induction as generalizing s with
  | nil => trivial
  | cons a as ih => exact ⟨trivial, fun t _ => ih t⟩

/-- Steps that never get stuck, and a property of a step that keeps an invariant and that, on
runs that meet `N`, a condition on the step's start decides: it holds of every step exactly when
the run meets the condition. -/
theorem steps_iff_meets_under {I : σ → Prop} {N : σ → α → Prop} {P : σ → α → σ → Prop}
    (htotal : ∀ s a, ∃ t, step s a = some t)
    (hstep : ∀ s a t, I s → N s a → step s a = some t → (P s a t ↔ C s a))
    (hkeep : ∀ s a t, I s → P s a t → I t) {s : σ} {as : List α} (hI : I s)
    (hN : Meets step N s as) :
    (∀ pre a post u v, as = pre ++ a :: post → run step s pre = some u → step u a = some v →
      P u a v) ↔ Meets step C s as := by
  induction as generalizing s with
  | nil => simp [Meets]
  | cons a as ih =>
      obtain ⟨t, ht⟩ := htotal s a
      constructor
      · intro h
        have hP : P s a t := h [] a as s t rfl rfl ht
        refine ⟨(hstep s a t hI hN.1 ht).mp hP, fun t' ht' => ?_⟩
        cases ht.symm.trans ht'
        refine (ih (hkeep s a t hI hP) (hN.2 t ht)).mp fun pre b post u v has hu hv => ?_
        exact h (a :: pre) b post u v (by rw [has, List.cons_append])
          (run_cons_eq.mpr ⟨t, ht, hu⟩) hv
      · rintro ⟨hC, hrest⟩ pre b post u v has hu hv
        have hP : P s a t := (hstep s a t hI hN.1 ht).mpr hC
        cases pre with
        | nil =>
            cases has
            cases hu
            cases ht.symm.trans hv
            exact hP
        | cons first pre =>
            obtain ⟨rfl, hrest'⟩ := List.cons_eq_cons.mp has
            obtain ⟨t', ht', hu⟩ := run_cons_eq.mp hu
            cases ht.symm.trans ht'
            exact (ih (hkeep s a t hI hP) (hN.2 t ht)).mpr (hrest t ht) pre b post u v hrest' hu hv

/-- `steps_iff_meets_under` without an invariant, on all runs. -/
theorem steps_iff_meets {P : σ → α → σ → Prop} (htotal : ∀ s a, ∃ t, step s a = some t)
    (hstep : ∀ s a t, step s a = some t → (P s a t ↔ C s a)) {s : σ} {as : List α} :
    (∀ pre a post u v, as = pre ++ a :: post → run step s pre = some u → step u a = some v →
      P u a v) ↔ Meets step C s as := by
  exact steps_iff_meets_under (I := fun _ => True) htotal (fun s a t _ _ => hstep s a t)
    (fun _ _ _ _ _ => trivial) trivial (meets_true s as)

/-- A condition on the actions alone adds to what the run meets. -/
theorem meets_and {P : α → Prop} {s : σ} {as : List α} (h : Meets step C s as)
    (hP : ∀ a ∈ as, P a) : Meets step (fun s a => C s a ∧ P a) s as := by
  rw [meets_iff] at h ⊢
  intro pre a post u has hu
  exact ⟨h pre a post u has hu, hP a (by rw [has]; simp)⟩

/-- Actions that make the same step in every state make the same run. -/
theorem run_congr {R : α → α → Prop} (h : ∀ s a b, R a b → step s a = step s b) {as bs : List α}
    (hsame : List.Forall₂ R as bs) (s : σ) : run step s as = run step s bs := by
  induction hsame generalizing s with
  | nil => rfl
  | cons hab _ ih =>
      rw [run, run, h s _ _ hab]
      exact congrArg _ (funext ih)

/-- What every step meeting `C` preserves holds after a run that meets `C`. -/
theorem run_invariant {I : σ → Prop}
    (hstep : ∀ s a t, I s → C s a → step s a = some t → I t)
    {s t : σ} {as : List α} (hI : I s) (hC : Meets step C s as)
    (hrun : run step s as = some t) : I t := by
  induction as generalizing s with
  | nil => cases hrun; exact hI
  | cons a as ih =>
      obtain ⟨u, hu, hrun⟩ := run_cons_eq.mp hrun
      exact ih (hstep s a u hI hC.1 hu) (hC.2 u hu) hrun

/-- A property that an invariant implies, and that only a step meeting `C` leaves intact:
it holds in every state of a run exactly when the run meets `C`. -/
theorem states_iff_meets {I P : σ → Prop} (himp : ∀ s, I s → P s)
    (hkeep : ∀ s a t, I s → C s a → step s a = some t → I t)
    (hmeets : ∀ s a, I s → (∀ t, step s a = some t → P t) → C s a)
    {s : σ} {as : List α} (hI : I s) :
    (∀ pre post t, as = pre ++ post → run step s pre = some t → P t) ↔ Meets step C s as := by
  constructor
  · intro h
    induction as generalizing s with
    | nil => trivial
    | cons a as ih =>
        have hC : C s a := hmeets s a hI fun t ht =>
          h [a] as t rfl (run_cons_eq.mpr ⟨t, ht, rfl⟩)
        refine ⟨hC, fun t ht => ih (hkeep s a t hI hC ht) fun pre post u has hu => ?_⟩
        exact h (a :: pre) post u (by rw [has, List.cons_append]) (run_cons_eq.mpr ⟨t, ht, hu⟩)
  · rintro h pre post t rfl ht
    exact himp t (run_invariant hkeep hI (meets_append h).1 ht)

/-- The unconditional form of `run_invariant`. -/
theorem run_invariant' {I : σ → Prop}
    (hstep : ∀ s a t, I s → step s a = some t → I t)
    {s t : σ} {as : List α} (hI : I s) (hrun : run step s as = some t) : I t :=
  run_invariant (C := fun _ _ => True) (fun s a t hs _ => hstep s a t hs) hI
    (meets_true s as) hrun

section TwoRuns

variable {R : σ → σ → Prop} {keep : α → Bool}

/-- Actions that are ignored on the right leave the states related. -/
theorem run_ignored
    (hright : ∀ s t a t', R s t → C t a → keep a = false → step t a = some t' → R s t')
    {s t t' : σ} {as : List α} (hR : R s t) (hC : Meets step C t as)
    (hignored : ∀ a ∈ as, keep a = false) (hrun : run step t as = some t') : R s t' := by
  refine (run_invariant (I := R s) (C := fun u a => C u a ∧ keep a = false) ?_ hR
    (meets_and hC hignored) hrun)
  exact fun u a v hu hCa hv => hright s u a v hu hCa.1 hCa.2 hv

/-- Two runs with the same kept actions. A step both take preserves `R`, and so
does a step that only one of them takes; then they end related. -/
theorem run_pair
    (hkeep : ∀ s t a s' t', R s t → C s a → C t a → keep a = true →
      step s a = some s' → step t a = some t' → R s' t')
    (hleft : ∀ s t a s', R s t → C s a → keep a = false → step s a = some s' → R s' t)
    (hright : ∀ s t a t', R s t → C t a → keep a = false → step t a = some t' → R s t')
    {s t s' t' : σ} {as bs : List α} (hR : R s t) (hsame : as.filter keep = bs.filter keep)
    (hCs : Meets step C s as) (hCt : Meets step C t bs)
    (hrun : run step s as = some s') (hrun' : run step t bs = some t') : R s' t' := by
  induction as generalizing s t bs with
  | nil =>
      cases hrun
      refine run_ignored hright hR hCt (fun b hb => ?_) hrun'
      exact Bool.eq_false_iff.mpr (List.filter_eq_nil_iff.mp hsame.symm b hb)
  | cons a as ih =>
      obtain ⟨u, hu, hrun⟩ := run_cons_eq.mp hrun
      cases hk : keep a with
      | false =>
          rw [List.filter_cons_of_neg (by simp [hk])] at hsame
          exact ih (hleft s t a u hR hCs.1 hk hu) hsame (hCs.2 u hu) hCt hrun hrun'
      | true =>
          rw [List.filter_cons_of_pos hk] at hsame
          obtain ⟨before, after, rfl, hbefore, -, hafter⟩ := List.filter_eq_cons_iff.mp hsame.symm
          obtain ⟨v, hv, hrun'⟩ := run_append.mp hrun'
          obtain ⟨w, hw, hrun'⟩ := run_cons_eq.mp hrun'
          obtain ⟨hCbefore, hCafter⟩ := meets_append hCt
          obtain ⟨hCa, hCw⟩ := hCafter v hv
          have hRv : R s v := run_ignored hright hR hCbefore
            (fun b hb => Bool.eq_false_iff.mpr (hbefore b hb)) hv
          exact ih (hkeep s v a u w hRv hCs.1 hCa hk hu hw) hafter.symm (hCs.2 u hu) (hCw w hw)
            hrun hrun'

end TwoRuns

instance decidableMeets [∀ s a, Decidable (C s a)] :
    ∀ (s : σ) (as : List α), Decidable (Meets step C s as)
  | _, [] => isTrue trivial
  | s, a :: as =>
      match h : step s a with
      | none => decidable_of_iff (C s a) (by simp [Meets, h])
      | some t =>
          have : Decidable (Meets step C t as) := decidableMeets t as
          decidable_of_iff (C s a ∧ Meets step C t as) (by simp [Meets, h])

/-! ## Pools of processes

A state that keeps its processes in a list changes one of them by
`List.set`. -/

/-- The processes after number `i` has moved from `x` to `y`. -/
theorem getElem?_set_iff {procs : List α} {i j : Nat} {x y p : α}
    (h : procs[i]? = some x) :
    (procs.set i y)[j]? = some p ↔ (j = i ∧ p = y) ∨ (j ≠ i ∧ procs[j]? = some p) := by
  obtain ⟨hi, -⟩ := List.getElem?_eq_some_iff.mp h
  rw [List.getElem?_set]
  by_cases hij : i = j
  · subst hij
    simp [hi, eq_comm]
  · simp [hij, Ne.symm hij]

/-- A newly started process is the last one. -/
theorem getElem?_snoc_iff {procs : List α} {j : Nat} {x p : α} :
    (procs ++ [x])[j]? = some p
      ↔ (j = procs.length ∧ p = x) ∨ procs[j]? = some p := by
  rw [List.getElem?_append]
  split
  · rename_i hj
    constructor
    · exact Or.inr
    · rintro (⟨rfl, -⟩ | h)
      · exact absurd hj (Nat.lt_irrefl _)
      · exact h
  · rename_i hj
    have hnone : procs[j]? = none := List.getElem?_eq_none (Nat.le_of_not_lt hj)
    rw [hnone, List.getElem?_singleton]
    by_cases h : j = procs.length
    · simp [h, eq_comm]
    · have hpos : j - procs.length ≠ 0 := by omega
      simp [h, hpos]

/-- How many processes satisfy `p` after number `i` has moved from `x` to `y`. -/
theorem countP_set_add {procs : List α} {i : Nat} {x y : α} (h : procs[i]? = some x)
    (p : α → Bool) :
    (procs.set i y).countP p + (if p x then 1 else 0)
      = procs.countP p + (if p y then 1 else 0) := by
  obtain ⟨hi, hx⟩ := List.getElem?_eq_some_iff.mp h
  have hpos : (if p x then 1 else 0) ≤ procs.countP p := by
    split
    · rename_i hp
      exact List.countP_pos_iff.mpr ⟨x, List.mem_of_getElem? h, hp⟩
    · exact Nat.zero_le _
  rw [List.countP_set hi, hx]
  omega

end Runs
