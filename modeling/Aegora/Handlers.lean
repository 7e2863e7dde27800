import Mathlib.Data.List.Basic

/-!
# Programs whose writes outlive their exceptions

A `Handler` reads and writes a state and may raise. What it wrote before it
raised stays. `Frame` is a relation that a program may leave between the
states before and after it: reflexive, transitive, and not destroying the
invariant it is stated under. `Keeps` says that a program stays inside such a
frame, with one rule for each way to build programs. A program that raises
blocks what follows it (`after_bind_of_stops`).
-/

namespace Handlers

variable {σ ε α β : Type}

/-- A program over the state `σ` that may raise an `ε`. -/
abbrev Handler (σ ε α : Type) := ExceptT ε (StateM σ) α

/-- What the program returns or raises. -/
def outcome (m : Handler σ ε α) (s : σ) : Except ε α := (m.run.run s).1

/-- The state that the program leaves. -/
def after (m : Handler σ ε α) (s : σ) : σ := (m.run.run s).2

/-- Go on only under a condition. -/
def demand (c : Prop) [Decidable c] (failure : ε) : Handler σ ε Unit :=
  if c then pure () else throw failure

/-! ## Evaluation -/

section Evaluation

variable {m : Handler σ ε α} {f : α → Handler σ ε β} {s : σ}

@[simp] theorem after_pure (a : α) (s : σ) : after (pure a : Handler σ ε α) s = s := rfl

@[simp] theorem after_throw (e : ε) (s : σ) : after (throw e : Handler σ ε α) s = s := rfl

@[simp] theorem after_get (s : σ) : after (get : Handler σ ε σ) s = s := rfl

@[simp] theorem after_modify (g : σ → σ) (s : σ) :
    after (modify g : Handler σ ε Unit) s = g s := rfl

@[simp] theorem outcome_pure (a : α) (s : σ) : outcome (pure a : Handler σ ε α) s = .ok a := rfl

@[simp] theorem outcome_throw (e : ε) (s : σ) :
    outcome (throw e : Handler σ ε α) s = .error e := rfl

@[simp] theorem outcome_get (s : σ) : outcome (get : Handler σ ε σ) s = .ok s := rfl

@[simp] theorem outcome_modify (g : σ → σ) (s : σ) :
    outcome (modify g : Handler σ ε Unit) s = .ok () := rfl

theorem run_bind (m : Handler σ ε α) (f : α → Handler σ ε β) (s : σ) :
    (m >>= f).run.run s = match outcome m s with
      | .ok a => (f a).run.run (after m s)
      | .error e => (.error e, after m s) := by
  show (ExceptT.bindCont f (m.run.run s).1).run (m.run.run s).2 = _
  unfold outcome after
  rcases (m.run.run s).1 with e | a <;> rfl

theorem after_bind_ok {a : α} (h : outcome m s = .ok a) :
    after (m >>= f) s = after (f a) (after m s) := by
  unfold after
  rw [run_bind, h]
  rfl

theorem outcome_bind_ok {a : α} (h : outcome m s = .ok a) :
    outcome (m >>= f) s = outcome (f a) (after m s) := by
  unfold outcome
  rw [run_bind, h]

/-- The program raises in this state. -/
def Stops (m : Handler σ ε α) (s : σ) : Prop := ∃ e, outcome m s = .error e

/-- What raises blocks what follows. -/
theorem after_bind_of_stops (h : Stops m s) (f : α → Handler σ ε β) :
    after (m >>= f) s = after m s := by
  obtain ⟨e, he⟩ := h
  show ((m >>= f).run.run s).2 = _
  rw [run_bind, he]

theorem stops_bind (h : Stops m s) (f : α → Handler σ ε β) : Stops (m >>= f) s := by
  obtain ⟨e, he⟩ := h
  refine ⟨e, ?_⟩
  show ((m >>= f).run.run s).1 = _
  rw [run_bind, he]

theorem stops_bind_right {a : α} (hm : outcome m s = .ok a) (h : Stops (f a) (after m s)) :
    Stops (m >>= f) s := by
  obtain ⟨e, he⟩ := h
  exact ⟨e, (outcome_bind_ok hm).trans he⟩

/-- What returned had a first part that returned. -/
theorem bind_returned {b : β} (h : outcome (m >>= f) s = .ok b) :
    ∃ a, outcome m s = .ok a ∧ outcome (f a) (after m s) = .ok b
      ∧ after (m >>= f) s = after (f a) (after m s) := by
  cases hm : outcome m s with
  | error e =>
      obtain ⟨e', he'⟩ := stops_bind (f := f) ⟨e, hm⟩
      rw [he'] at h
      cases h
  | ok a => exact ⟨a, rfl, (outcome_bind_ok hm).symm.trans h, after_bind_ok hm⟩

theorem demand_of {c : Prop} [Decidable c] (h : c) (failure : ε) :
    (demand c failure : Handler σ ε Unit) = pure () :=
  if_pos h

theorem stops_demand {c : Prop} [Decidable c] (h : ¬ c) (failure : ε) :
    Stops (demand c failure : Handler σ ε Unit) s := by
  unfold demand
  rw [if_neg h]
  exact ⟨failure, rfl⟩

@[simp] theorem after_demand {c : Prop} [Decidable c] (failure : ε) (s : σ) :
    after (demand c failure : Handler σ ε Unit) s = s := by
  unfold demand
  split <;> rfl

end Evaluation

/-! ## Runs that return -/

section Returns

variable {m : Handler σ ε α} {f : α → Handler σ ε β} {s t u : σ} {a : α} {b : β} {e : ε}

/-- From `s` the program returns `a` and leaves `t`. -/
def Returns (m : Handler σ ε α) (s : σ) (a : α) (t : σ) : Prop :=
  outcome m s = .ok a ∧ after m s = t

/-- From `s` the program raises `e` and leaves `t`. -/
def Raises (m : Handler σ ε α) (s : σ) (e : ε) (t : σ) : Prop :=
  outcome m s = .error e ∧ after m s = t

theorem returns_pure (a : α) (s : σ) : Returns (pure a : Handler σ ε α) s a s := ⟨rfl, rfl⟩

theorem returns_get (s : σ) : Returns (get : Handler σ ε σ) s s s := ⟨rfl, rfl⟩

theorem returns_modify (g : σ → σ) (s : σ) :
    Returns (modify g : Handler σ ε Unit) s () (g s) := ⟨rfl, rfl⟩

theorem raises_throw (e : ε) (s : σ) : Raises (throw e : Handler σ ε α) s e s := ⟨rfl, rfl⟩

theorem raises_demand {c : Prop} [Decidable c] (h : ¬ c) (failure : ε) (s : σ) :
    Raises (demand c failure : Handler σ ε Unit) s failure s := by
  unfold demand
  rw [if_neg h]
  exact raises_throw failure s

theorem Returns.bind (hm : Returns m s a t) (hf : Returns (f a) t b u) :
    Returns (m >>= f) s b u := by
  obtain ⟨hout, rfl⟩ := hm
  exact ⟨(outcome_bind_ok hout).trans hf.1, (after_bind_ok hout).trans hf.2⟩

theorem Returns.bind_raises (hm : Returns m s a t) (hf : Raises (f a) t e u) :
    Raises (m >>= f) s e u := by
  obtain ⟨hout, rfl⟩ := hm
  exact ⟨(outcome_bind_ok hout).trans hf.1, (after_bind_ok hout).trans hf.2⟩

theorem Raises.bind (hm : Raises m s e t) (f : α → Handler σ ε β) : Raises (m >>= f) s e t := by
  obtain ⟨hout, rfl⟩ := hm
  refine ⟨?_, after_bind_of_stops ⟨e, hout⟩ f⟩
  show ((m >>= f).run.run s).1 = _
  rw [run_bind, hout]

theorem returns_forM {γ : Type} {g : γ → Handler σ ε Unit} {next : σ → γ → σ} {cs : List γ}
    (h : ∀ c ∈ cs, ∀ s, Returns (g c) s () (next s c)) (s : σ) :
    Returns (cs.forM g) s () (cs.foldl next s) := by
  induction cs generalizing s with
  | nil => exact returns_pure () s
  | cons c cs ih =>
      rw [List.forall_mem_cons] at h
      exact (h.1 s).bind (ih h.2 (next s c))

end Returns

/-! ## Loops and exception handlers -/

section Loops

variable {f : α → Handler σ ε Unit} {s : σ}

/-- Run the program, and the handler on what it raises. -/
def rescue (m : Handler σ ε Unit) (handler : ε → Handler σ ε Unit) : Handler σ ε Unit :=
  ExceptT.mk fun s => match outcome m s with
    | .ok a => (.ok a, after m s)
    | .error e => (handler e).run.run (after m s)

theorem run_rescue (m : Handler σ ε Unit) (handler : ε → Handler σ ε Unit) (s : σ) :
    (rescue m handler).run.run s = match outcome m s with
      | .ok a => (.ok a, after m s)
      | .error e => (handler e).run.run (after m s) := rfl

theorem after_rescue_ok {m : Handler σ ε Unit} {handler : ε → Handler σ ε Unit}
    (h : outcome m s = .ok ()) : after (rescue m handler) s = after m s := by
  show ((rescue m handler).run.run s).2 = _
  rw [run_rescue, h]

theorem after_rescue_error {m : Handler σ ε Unit} {handler : ε → Handler σ ε Unit} {e : ε}
    (h : outcome m s = .error e) :
    after (rescue m handler) s = after (handler e) (after m s) := by
  show ((rescue m handler).run.run s).2 = _
  rw [run_rescue, h]
  rfl

theorem Returns.rescue {m : Handler σ ε Unit} {t : σ} (h : Returns m s () t)
    (handler : ε → Handler σ ε Unit) : Returns (Handlers.rescue m handler) s () t := by
  refine ⟨?_, (after_rescue_ok h.1).trans h.2⟩
  show ((Handlers.rescue m handler).run.run s).1 = _
  rw [run_rescue, h.1]

theorem Raises.rescue {m : Handler σ ε Unit} {handler : ε → Handler σ ε Unit} {e : ε} {t u : σ}
    (h : Raises m s e t) (hhandler : Returns (handler e) t () u) :
    Returns (Handlers.rescue m handler) s () u := by
  obtain ⟨hout, rfl⟩ := h
  refine ⟨?_, (after_rescue_error hout).trans hhandler.2⟩
  show ((Handlers.rescue m handler).run.run s).1 = _
  rw [run_rescue, hout]
  exact hhandler.1

/-- `for x in xs`. -/
def each (f : α → Handler σ ε Unit) : List α → Handler σ ε Unit
  | [] => pure ()
  | x :: xs => do
      f x
      each f xs

/-- Each pass of the loop meets `C` in the state it begins in. -/
def Along (C : σ → α → Prop) (f : α → Handler σ ε Unit) : σ → List α → Prop
  | _, [] => True
  | s, x :: xs => C s x ∧ (outcome (f x) s = .ok () → Along C f (after (f x) s) xs)

/-- What each pass under `C` keeps, the loop keeps, also when a pass raises. -/
theorem each_invariant {I : σ → Prop} {C : σ → α → Prop}
    (h : ∀ s x, I s → C s x → I (after (f x) s)) {xs : List α} (hs : I s) (hxs : Along C f s xs) :
    I (after (each f xs) s) := by
  induction xs generalizing s with
  | nil => exact hs
  | cons x xs ih =>
      obtain ⟨hx, hrest⟩ := hxs
      have hnext := h s x hs hx
      cases hout : outcome (f x) s with
      | error e =>
          rw [each, after_bind_of_stops ⟨e, hout⟩]
          exact hnext
      | ok =>
          rw [each, after_bind_ok hout]
          exact ih hnext (hrest hout)

end Loops

/-! ## Frames -/

/-- What a program may change under the invariant `I`. -/
structure Frame (I : σ → Prop) (R : σ → σ → Prop) : Prop where
  refl : ∀ s, R s s
  trans : ∀ s t u, R s t → R t u → R s u
  inv : ∀ s t, I s → R s t → I t

/-- From a state with the invariant, the program stays inside the frame. -/
def Keeps (I : σ → Prop) (R : σ → σ → Prop) (m : Handler σ ε α) : Prop :=
  ∀ s, I s → R s (after m s)

section Keeps

variable {I : σ → Prop} {R : σ → σ → Prop} (frame : Frame I R) {m : Handler σ ε α}
  {f : α → Handler σ ε β}

include frame

theorem keeps_pure (a : α) : Keeps I R (pure a : Handler σ ε α) := fun s _ => frame.refl s

theorem keeps_throw (e : ε) : Keeps I R (throw e : Handler σ ε α) := fun s _ => frame.refl s

theorem keeps_get : Keeps I R (get : Handler σ ε σ) := fun s _ => frame.refl s

theorem keeps_demand (c : Prop) [Decidable c] (failure : ε) :
    Keeps I R (demand c failure : Handler σ ε Unit) := by
  intro s _
  rw [after_demand]
  exact frame.refl s

theorem keeps_bind (hm : Keeps I R m) (hf : ∀ a, Keeps I R (f a)) : Keeps I R (m >>= f) := by
  intro s hs
  have hfirst := hm s hs
  cases hout : outcome m s with
  | error e =>
      rw [after_bind_of_stops ⟨e, hout⟩]
      exact hfirst
  | ok a =>
      rw [after_bind_ok hout]
      exact frame.trans _ _ _ hfirst (hf a _ (frame.inv _ _ hs hfirst))

theorem keeps_forM {γ : Type} {g : γ → Handler σ ε Unit} (h : ∀ c, Keeps I R (g c))
    (cs : List γ) : Keeps I R (cs.forM g) := by
  induction cs with
  | nil => exact keeps_pure frame ()
  | cons c cs ih => exact keeps_bind frame (h c) fun _ => ih

end Keeps

end Handlers
