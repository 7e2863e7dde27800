import Mathlib.Data.Option.Basic

/-!
# Flows of nodes

A flow visits one node after another. A visit works on the state and says
what comes next: another node, the end, a suspension, or an exception
(`Visit`). `run` follows the visits for a number of steps. The rules below
compare two flows visit by visit (`run_lockstep`), bound the number of
visits by a rank (`run_of_rank`), and carry an invariant along the nodes a
run reaches (`Reaches.invariant`).
-/

namespace Flows

variable {ν ν' σ σ' ε : Type*}

/-- What one visit of a node leads to. -/
inductive Visit (ν σ ε : Type*) where
  | goto (node : ν) (state : σ)
  | finish (state : σ)
  | suspend (state : σ)
  | raise (error : ε)

/-- How a run ends. -/
inductive Outcome (σ ε : Type*) where
  | finished (state : σ)
  | suspended (state : σ)
  | raised (error : ε)

/-- Visit at most `fuel` nodes; `none` when another one is still due. -/
def run (visit : ν → σ → Visit ν σ ε) : Nat → ν → σ → Option (Outcome σ ε)
  | 0, _, _ => none
  | fuel + 1, node, s =>
      match visit node s with
      | .goto node' s' => run visit fuel node' s'
      | .finish s' => some (.finished s')
      | .suspend s' => some (.suspended s')
      | .raise e => some (.raised e)

section

variable {visit : ν → σ → Visit ν σ ε}

/-- More steps than a run needs do not change its outcome. -/
theorem run_le {fuel fuel' : Nat} {node : ν} {s : σ} {out : Outcome σ ε}
    (h : run visit fuel node s = some out) (hle : fuel ≤ fuel') :
    run visit fuel' node s = some out := by
  induction fuel generalizing fuel' node s with
  | zero => cases h
  | succ fuel ih =>
      obtain ⟨more, rfl⟩ : ∃ more, fuel' = more + 1 := ⟨fuel' - 1, by omega⟩
      unfold run at h ⊢
      cases hv : visit node s with
      | goto node' s' =>
          rw [hv] at h
          exact ih h (by omega)
      | finish s' => rw [hv] at h; exact h
      | suspend s' => rw [hv] at h; exact h
      | raise e => rw [hv] at h; exact h

/-- A run has one outcome, whatever number of steps it is given. -/
theorem run_unique {fuel fuel' : Nat} {node : ν} {s : σ} {out out' : Outcome σ ε}
    (h : run visit fuel node s = some out) (h' : run visit fuel' node s = some out') :
    out = out' := by
  have hout := run_le h (Nat.le_max_left fuel fuel')
  have hout' := run_le h' (Nat.le_max_right fuel fuel')
  exact Option.some.inj (hout.symm.trans hout')

/-- A rank that every visit lowers bounds the number of visits. -/
theorem run_of_rank (rank : ν → σ → Nat)
    (hrank : ∀ node s node' s', visit node s = .goto node' s' → rank node' s' < rank node s)
    (node : ν) (s : σ) : ∃ out, run visit (rank node s + 1) node s = some out := by
  induction h : rank node s using Nat.strongRecOn generalizing node s with
  | ind n ih =>
      unfold run
      cases hv : visit node s with
      | goto node' s' =>
          have hlt : rank node' s' < n := h ▸ hrank node s node' s' hv
          obtain ⟨out, hout⟩ := ih _ hlt node' s' rfl
          exact ⟨out, run_le hout hlt⟩
      | finish s' => exact ⟨_, rfl⟩
      | suspend s' => exact ⟨_, rfl⟩
      | raise e => exact ⟨_, rfl⟩

/-- The nodes a run comes to, with the states it comes to them in. -/
inductive Reaches (visit : ν → σ → Visit ν σ ε) (node : ν) (s : σ) : ν → σ → Prop where
  | here : Reaches visit node s node s
  | step {node' node'' : ν} {s' s'' : σ} (before : Reaches visit node s node' s')
      (last : visit node' s' = .goto node'' s'') : Reaches visit node s node'' s''

/-- What holds at the start and is kept by every visit holds at every visit. -/
theorem Reaches.invariant {I : ν → σ → Prop}
    (hstep : ∀ node s node' s', I node s → visit node s = .goto node' s' → I node' s')
    {node node' : ν} {s s' : σ} (h : Reaches visit node s node' s') (hI : I node s) :
    I node' s' := by
  induction h with
  | here => exact hI
  | step _ last ih => exact hstep _ _ _ _ ih last

/-- The run raised, or left a state with this property. -/
def Outcome.Leaves (P : σ → Prop) : Outcome σ ε → Prop
  | .finished s | .suspended s => P s
  | .raised _ => True

/-- What holds at the start and is kept by every visit holds of the state a run leaves. -/
theorem run_leaves {I : ν → σ → Prop} {P : σ → Prop}
    (hgoto : ∀ node s node' s', I node s → visit node s = .goto node' s' → I node' s')
    (hend : ∀ node s s', I node s →
      visit node s = .finish s' ∨ visit node s = .suspend s' → P s')
    {fuel : Nat} {node : ν} {s : σ} {out : Outcome σ ε} (hI : I node s)
    (h : run visit fuel node s = some out) : out.Leaves P := by
  induction fuel generalizing node s with
  | zero => cases h
  | succ fuel ih =>
      unfold run at h
      cases hv : visit node s with
      | goto node' s' =>
          rw [hv] at h
          exact ih (hgoto node s node' s' hI hv) h
      | finish s' =>
          rw [hv] at h
          cases h
          exact hend node s s' hI (.inl hv)
      | suspend s' =>
          rw [hv] at h
          cases h
          exact hend node s s' hI (.inr hv)
      | raise e =>
          rw [hv] at h
          cases h
          trivial

end

/-! ## Two flows in lockstep -/

/-- Two visits lead to related ends. -/
def Visit.Alike (R : ν → σ → ν' → σ' → Prop) (S : σ → σ' → Prop) :
    Visit ν σ ε → Visit ν' σ' ε → Prop
  | .goto node s, .goto node' s' => R node s node' s'
  | .finish s, .finish s' => S s s'
  | .suspend s, .suspend s' => S s s'
  | .raise e, .raise e' => e = e'
  | _, _ => False

/-- Two runs end alike. -/
def Outcome.Alike (S : σ → σ' → Prop) : Outcome σ ε → Outcome σ' ε → Prop
  | .finished s, .finished s' => S s s'
  | .suspended s, .suspended s' => S s s'
  | .raised e, .raised e' => e = e'
  | _, _ => False

/-- Flows whose related nodes lead to related ends run alike, visit for visit. -/
theorem run_lockstep {visit : ν → σ → Visit ν σ ε} {visit' : ν' → σ' → Visit ν' σ' ε}
    {R : ν → σ → ν' → σ' → Prop} {S : σ → σ' → Prop}
    (hstep : ∀ node s node' s', R node s node' s' →
      (visit node s).Alike R S (visit' node' s'))
    {node : ν} {s : σ} {node' : ν'} {s' : σ'} (hR : R node s node' s') (fuel : Nat) :
    (run visit fuel node s = none ∧ run visit' fuel node' s' = none)
      ∨ ∃ out out', run visit fuel node s = some out ∧ run visit' fuel node' s' = some out'
          ∧ out.Alike S out' := by
  induction fuel generalizing node s node' s' with
  | zero => exact Or.inl ⟨rfl, rfl⟩
  | succ fuel ih =>
      have h := hstep node s node' s' hR
      unfold run
      cases hv : visit node s <;> cases hv' : visit' node' s' <;>
        rw [hv, hv'] at h <;> try exact absurd h not_false
      case goto.goto => exact ih h
      all_goals exact Or.inr ⟨_, _, rfl, rfl, h⟩

end Flows
