import Mathlib.Data.List.Induction
import Mathlib.Data.List.Perm.Basic
import Mathlib.Data.Set.Insert
import Aegora.Runs

/-!
# Handlers whose calls interleave

A `Task` makes its calls to a shared state one at a time, and those of other tasks run in
between. `Always` says what each of its writes meets, in terms of the states that have been
`seen` until then, with one rule for each way to build tasks. `pool_always` carries an invariant,
and what the tasks meet, over every order of the calls of any number of tasks; `pool_met` says it
of a result in terms of the states that the calls of its own task met.
-/

namespace Interleaved

variable {σ ε α β ρ ω : Type}

/-- A program, by the call that it makes next. -/
inductive Task (σ ε α : Type) where
  | returned (a : α)
  | raised (e : ε)
  | reads (next : σ → Task σ ε α)
  | writes (write : σ → Except ε σ) (next : Task σ ε α)

namespace Task

def bind : Task σ ε α → (α → Task σ ε β) → Task σ ε β
  | returned a, f => f a
  | raised e, _ => raised e
  | reads next, f => reads fun s => (next s).bind f
  | writes write next, f => writes write (next.bind f)

instance : Monad (Task σ ε) where
  pure := returned
  bind := bind

/-- One query. -/
def read (f : σ → β) : Task σ ε β := reads fun s => returned (f s)

/-- One transaction, which may abort. -/
def write (f : σ → Except ε σ) : Task σ ε Unit := writes f (returned ())

/-- Go on only under a condition. -/
def demand (c : Prop) [Decidable c] (failure : ε) : Task σ ε Unit :=
  if c then returned () else raised failure

def ofExcept : Except ε α → Task σ ε α
  | .ok a => returned a
  | .error e => raised e

/-- The next call, on the state that it meets. -/
def turn : Task σ ε α → σ → Option (σ × Task σ ε α)
  | returned _, _ => none
  | raised _, _ => none
  | reads next, s => some (s, next s)
  | writes write next, s => match write s with
      | .ok s' => some (s', next)
      | .error e => some (s, raised e)

/-- What a task has returned. -/
def result? : Task σ ε α → Option α
  | returned a => some a
  | _ => none

theorem result?_eq_some {task : Task σ ε α} {a : α} (h : task.result? = some a) :
    task = returned a := by
  cases task with
  | returned b =>
      cases h
      rfl
  | raised e => cases h
  | reads next => cases h
  | writes write next => cases h

/-! ## What every write meets -/

/-- Whatever states the calls meet, a write meets `W` and a result meets `Q`, of the states
seen until then. -/
def Always (W : Set σ → σ → σ → Prop) (Q : Set σ → α → Prop) : Set σ → Task σ ε α → Prop
  | seen, returned a => Q seen a
  | _, raised _ => True
  | seen, reads next => ∀ s, (next s).Always W Q (insert s seen)
  | seen, writes write next => ∀ s s', write s = .ok s' →
      W (insert s seen) s s' ∧ next.Always W Q (insert s' (insert s seen))

section Rules

variable {W : Set σ → σ → σ → Prop} {Q : Set σ → α → Prop} {R : Set σ → β → Prop}
  {seen more : Set σ}

theorem Always.mono (hW : ∀ seen more s s', seen ⊆ more → W seen s s' → W more s s')
    (hQ : ∀ seen more a, seen ⊆ more → Q seen a → Q more a) (hsub : seen ⊆ more)
    {task : Task σ ε α} (h : task.Always W Q seen) : task.Always W Q more := by
  induction task generalizing seen more with
  | returned a => exact hQ seen more a hsub h
  | raised e => trivial
  | reads next ih =>
      intro s
      exact ih s (Set.insert_subset_insert hsub) (h s)
  | writes write next ih =>
      intro s s' hs
      obtain ⟨hwrite, hnext⟩ := h s s' hs
      exact ⟨hW _ _ _ _ (Set.insert_subset_insert hsub) hwrite,
        ih (Set.insert_subset_insert (Set.insert_subset_insert hsub)) hnext⟩

/-- The result meets what follows from what it met. -/
theorem Always.imp {P : Set σ → α → Prop} {task : Task σ ε α}
    (hPQ : ∀ more a, seen ⊆ more → P more a → Q more a) (h : task.Always W P seen) :
    task.Always W Q seen := by
  induction task generalizing seen with
  | returned a => exact hPQ seen a (fun _ h => h) h
  | raised e => trivial
  | reads next ih =>
      intro s
      refine ih s (fun more a hsub => hPQ more a ?_) (h s)
      exact (Set.subset_insert s seen).trans hsub
  | writes write next ih =>
      intro s s' hs
      obtain ⟨hwrite, hnext⟩ := h s s' hs
      refine ⟨hwrite, ih (fun more a hsub => hPQ more a ?_) hnext⟩
      exact ((Set.subset_insert s seen).trans (Set.subset_insert s' _)).trans hsub

/-- One call. -/
theorem Always.turn (hW : ∀ seen more s s', seen ⊆ more → W seen s s' → W more s s')
    (hQ : ∀ seen more a, seen ⊆ more → Q seen a → Q more a) {task rest : Task σ ε α} {s s' : σ}
    (h : task.Always W Q seen) (hturn : task.turn s = some (s', rest)) :
    (s' = s ∨ W (insert s seen) s s') ∧ rest.Always W Q (insert s' (insert s seen)) := by
  cases task with
  | returned a => cases hturn
  | raised e => cases hturn
  | reads next =>
      cases hturn
      exact ⟨.inl rfl, (h s).mono hW hQ (Set.subset_insert s _)⟩
  | writes write next =>
      simp only [Task.turn] at hturn
      split at hturn
      · rename_i state hwrite
        cases hturn
        exact (h s s' hwrite).imp_left .inr
      · cases hturn
        exact ⟨.inl rfl, trivial⟩

theorem always_pure {a : α} (h : Q seen a) : (pure a : Task σ ε α).Always W Q seen := h

theorem always_bind {task : Task σ ε α} {f : α → Task σ ε β} (htask : task.Always W Q seen)
    (hf : ∀ more a, seen ⊆ more → Q more a → (f a).Always W R more) :
    (task >>= f).Always W R seen := by
  induction task generalizing seen with
  | returned a => exact hf seen a (fun _ h => h) htask
  | raised e => trivial
  | reads next ih =>
      intro s
      refine ih s (htask s) fun more a hsub => hf more a ?_
      exact (Set.subset_insert s seen).trans hsub
  | writes write next ih =>
      intro s s' hs
      obtain ⟨hwrite, hnext⟩ := htask s s' hs
      refine ⟨hwrite, ih hnext fun more a hsub => hf more a ?_⟩
      exact ((Set.subset_insert s seen).trans (Set.subset_insert s' _)).trans hsub

theorem always_read {f : σ → α} (h : ∀ s, Q (insert s seen) (f s)) :
    (read f : Task σ ε α).Always W Q seen := h

/-- What a query answers is read of a state. -/
theorem always_read_seen (f : σ → α) :
    (read f : Task σ ε α).Always W (fun seen a => ∃ s ∈ seen, f s = a) seen :=
  always_read fun s => ⟨s, Set.mem_insert s seen, rfl⟩

theorem always_write_seen {f : σ → Except ε σ} {Q : Set σ → Unit → Prop}
    (h : ∀ s s', f s = .ok s' → W (insert s seen) s s' ∧ Q (insert s' (insert s seen)) ()) :
    (write f).Always W Q seen := h

theorem always_write {f : σ → Except ε σ}
    (h : ∀ s s', f s = .ok s' → W (insert s seen) s s') :
    (write f).Always W (fun _ _ => True) seen :=
  always_write_seen fun s s' hs => ⟨h s s' hs, trivial⟩

theorem always_demand {c : Prop} [Decidable c] {e : ε} {Q : Set σ → Unit → Prop}
    (h : c → Q seen ()) : (demand c e : Task σ ε Unit).Always W Q seen := by
  unfold demand
  split
  · rename_i hc
    exact h hc
  · trivial

theorem always_ofExcept {result : Except ε α} (h : ∀ a, result = .ok a → Q seen a) :
    (ofExcept result : Task σ ε α).Always W Q seen := by
  cases result with
  | ok a => exact h a rfl
  | error e => trivial

end Rules

end Task

/-! ## Any number of tasks -/

/-- The shared state, and the tasks that have arrived. -/
structure Pool (σ ε α : Type) where
  state : σ
  tasks : List (Task σ ε α) := []

inductive Turn (ρ ω : Type) where
  | arrive (request : ρ)
  | turn (i : Nat)
  | other (change : ω)

section Pool

variable (start : ρ → Task σ ε α) (other : σ → ω → Option σ)

/-- A request arrives, a task makes its next call, or something else changes the state. -/
def Pool.step (p : Pool σ ε α) : Turn ρ ω → Option (Pool σ ε α)
  | .arrive request => some { p with tasks := p.tasks ++ [start request] }
  | .turn i => do
      let task ← p.tasks[i]?
      let (state, rest) ← task.turn p.state
      return { state := state, tasks := p.tasks.set i rest }
  | .other change => do
      let state ← other p.state change
      return { p with state := state }

/-- The states that a run goes through. -/
def Seen (p : Pool σ ε α) (turns : List (Turn ρ ω)) : Set σ :=
  {s | ∃ pre post q, turns = pre ++ post ∧ Runs.run (Pool.step start other) p pre = some q
    ∧ q.state = s}

/-- The states that the calls of one task met, and those that they left. -/
def Met (p : Pool σ ε α) (turns : List (Turn ρ ω)) (i : Nat) : Set σ :=
  {s | ∃ pre post q r, turns = pre ++ .turn i :: post
    ∧ Runs.run (Pool.step start other) p pre = some q
    ∧ Pool.step start other q (.turn i) = some r ∧ (q.state = s ∨ r.state = s)}

variable {start other} {p q : Pool σ ε α} {turns more : List (Turn ρ ω)}

theorem seen_last (h : Runs.run (Pool.step start other) p turns = some q) :
    q.state ∈ Seen start other p turns :=
  ⟨turns, [], q, (List.append_nil turns).symm, h, rfl⟩

theorem seen_nil : Seen start other p [] = {p.state} := by
  ext s
  constructor
  · rintro ⟨pre, post, q, hsplit, hpre, rfl⟩
    obtain ⟨rfl, rfl⟩ := List.append_eq_nil_iff.mp hsplit.symm
    cases hpre
    exact rfl
  · rintro rfl
    exact seen_last rfl

theorem seen_concat {turn : Turn ρ ω}
    (h : Runs.run (Pool.step start other) p (turns ++ [turn]) = some q) :
    Seen start other p (turns ++ [turn]) = insert q.state (Seen start other p turns) := by
  ext s
  constructor
  · rintro ⟨pre, post, r, hsplit, hpre, rfl⟩
    rcases List.eq_nil_or_concat post with rfl | ⟨front, last, rfl⟩
    · rw [List.append_nil] at hsplit
      rw [← hsplit, h] at hpre
      cases hpre
      exact Set.mem_insert _ _
    · rw [List.concat_eq_append, ← List.append_assoc] at hsplit
      obtain ⟨rfl, -⟩ := List.append_inj' hsplit rfl
      exact Set.mem_insert_of_mem _ ⟨pre, front, r, rfl, hpre, rfl⟩
  · rintro (rfl | ⟨pre, post, r, rfl, hpre, rfl⟩)
    · exact seen_last h
    · exact ⟨pre, post ++ [turn], r, List.append_assoc _ _ _, hpre, rfl⟩

variable {I : Set σ → σ → Prop} {W : Set σ → σ → σ → Prop} {Q : Set σ → α → Prop}

/-- What the writes of the tasks and the other changes preserve holds after every run, and the
tasks still meet what they met when they arrived. -/
theorem pool_always
    (hW : ∀ seen more s s', seen ⊆ more → W seen s s' → W more s s')
    (hQ : ∀ seen more a, seen ⊆ more → Q seen a → Q more a)
    (hstart : ∀ seen request, (start request).Always W Q seen)
    (hwrite : ∀ {seen s s'}, I seen s → W seen s s' → I (insert s' seen) s')
    (hother : ∀ {seen s change s'}, I seen s → other s change = some s' → I (insert s' seen) s')
    {s : σ} (hI : I {s} s) (h : Runs.run (Pool.step start other) ⟨s, []⟩ turns = some p) :
    I (Seen start other ⟨s, []⟩ turns) p.state
      ∧ ∀ task ∈ p.tasks, task.Always W Q (Seen start other ⟨s, []⟩ turns) := by
  induction turns using List.reverseRecOn generalizing p with
  | nil =>
      cases h
      rw [seen_nil]
      exact ⟨hI, fun task htask => (nomatch htask)⟩
  | append_singleton turns turn ih =>
      rw [seen_concat h]
      obtain ⟨q, hq, hturn⟩ := Runs.run_append.mp h
      obtain ⟨next, hnext, hnil⟩ := Runs.run_cons_eq.mp hturn
      cases hnil
      obtain ⟨hstate, htasks⟩ := ih hq
      have hhere := seen_last hq
      revert hstate htasks hhere
      generalize Seen start other ⟨s, []⟩ turns = seen
      intro hstate htasks hhere
      have hcarried : ∀ state, ∀ task ∈ q.tasks,
          task.Always W Q (insert state seen) := fun state task htask =>
        (htasks task htask).mono hW hQ (Set.subset_insert state seen)
      cases turn with
      | arrive request =>
          cases hnext
          refine ⟨by rwa [Set.insert_eq_of_mem hhere], fun task htask => ?_⟩
          rcases List.mem_append.mp htask with hold | hnew
          · exact hcarried q.state task hold
          · obtain rfl := List.mem_singleton.mp hnew
            exact hstart _ request
      | turn i =>
          obtain ⟨task, htask, hnext⟩ := Option.bind_eq_some_iff.mp hnext
          obtain ⟨⟨state, rest⟩, hmoved, hnext⟩ := Option.bind_eq_some_iff.mp hnext
          cases hnext
          obtain ⟨hmove, hrest⟩ := (htasks task (List.mem_of_getElem? htask)).turn hW hQ hmoved
          rw [Set.insert_eq_of_mem hhere] at hmove hrest
          have hnow : I (insert state seen) state := by
            rcases hmove with rfl | hwrote
            · rwa [Set.insert_eq_of_mem hhere]
            · exact hwrite hstate hwrote
          refine ⟨hnow, fun other hother => ?_⟩
          rcases List.mem_or_eq_of_mem_set hother with hold | rfl
          · exact hcarried state other hold
          · exact hrest
      | other change =>
          obtain ⟨state, hchange, hnext⟩ := Option.bind_eq_some_iff.mp hnext
          cases hnext
          exact ⟨hother hstate hchange, hcarried state⟩

theorem met_subset {i : Nat} :
    Met start other p turns i ⊆ Met start other p (turns ++ more) i := by
  rintro s ⟨pre, post, q, r, rfl, hq, hr, hs⟩
  exact ⟨pre, post ++ more, q, r, by rw [List.append_assoc, List.cons_append], hq, hr, hs⟩

theorem met_turn {i : Nat} {r : Pool σ ε α}
    (hq : Runs.run (Pool.step start other) p turns = some q)
    (hr : Pool.step start other q (.turn i) = some r) :
    insert r.state (insert q.state (Met start other p turns i))
      ⊆ Met start other p (turns ++ [.turn i]) i := by
  rintro s (rfl | rfl | hs)
  · exact ⟨turns, [], q, r, rfl, hq, hr, .inr rfl⟩
  · exact ⟨turns, [], q, r, rfl, hq, hr, .inl rfl⟩
  · exact met_subset hs

/-- A result meets what it does of the states that the calls of its own task met. -/
theorem pool_met
    (hW : ∀ seen more s s', seen ⊆ more → W seen s s' → W more s s')
    (hQ : ∀ seen more a, seen ⊆ more → Q seen a → Q more a)
    (hstart : ∀ seen request, (start request).Always W Q seen) {s : σ}
    (h : Runs.run (Pool.step start other) ⟨s, []⟩ turns = some p) {i : Nat} {task : Task σ ε α}
    (htask : p.tasks[i]? = some task) :
    task.Always W Q (Met start other ⟨s, []⟩ turns i) := by
  induction turns using List.reverseRecOn generalizing p i task with
  | nil =>
      cases h
      cases htask
  | append_singleton turns turn ih =>
      obtain ⟨q, hq, hturn⟩ := Runs.run_append.mp h
      obtain ⟨next, hnext, hnil⟩ := Runs.run_cons_eq.mp hturn
      cases hnil
      have hcarried : ∀ {j : Nat} {task : Task σ ε α}, q.tasks[j]? = some task →
          task.Always W Q (Met start other ⟨s, []⟩ (turns ++ [turn]) j) := fun hold =>
        (ih hq hold).mono hW hQ met_subset
      have hstep := hnext
      cases turn with
      | arrive request =>
          cases hnext
          rcases Runs.getElem?_snoc_iff.mp htask with ⟨-, rfl⟩ | hold
          · exact hstart _ request
          · exact hcarried hold
      | turn j =>
          obtain ⟨before, hbefore, hnext⟩ := Option.bind_eq_some_iff.mp hnext
          obtain ⟨⟨state, rest⟩, hmoved, hnext⟩ := Option.bind_eq_some_iff.mp hnext
          cases hnext
          rcases (Runs.getElem?_set_iff hbefore).mp htask with ⟨rfl, rfl⟩ | ⟨-, hold⟩
          · exact ((ih hq hbefore).turn hW hQ hmoved).2.mono hW hQ (met_turn hq hstep)
          · exact hcarried hold
      | other change =>
          obtain ⟨state, -, hnext⟩ := Option.bind_eq_some_iff.mp hnext
          cases hnext
          exact hcarried htask

theorem pool_invariant
    (hW : ∀ seen more s s', seen ⊆ more → W seen s s' → W more s s')
    (hstart : ∀ seen request, (start request).Always W (fun _ _ => True) seen)
    (hwrite : ∀ {seen s s'}, I seen s → W seen s s' → I (insert s' seen) s')
    (hother : ∀ {seen s change s'}, I seen s → other s change = some s' → I (insert s' seen) s')
    {s : σ} (hI : I {s} s) (h : Runs.run (Pool.step start other) ⟨s, []⟩ turns = some p) :
    I (Seen start other ⟨s, []⟩ turns) p.state :=
  (pool_always hW (fun _ _ _ _ _ => trivial) hstart hwrite hother hI h).1

end Pool

/-! ## Lists of tasks -/

/-- One of the tasks gives more than before. -/
theorem perm_flatMap_set {α β : Type*} {f : α → List β} {xs : List α} {i : Nat} {x y : α}
    {more : List β} (hx : xs[i]? = some x) (hy : f y = f x ++ more) :
    ((xs.set i y).flatMap f).Perm (xs.flatMap f ++ more) := by
  induction xs generalizing i with
  | nil => cases hx
  | cons first xs ih =>
      cases i with
      | zero =>
          cases hx
          rw [List.set_cons_zero, List.flatMap_cons, List.flatMap_cons, hy, List.append_assoc,
            List.append_assoc]
          exact List.Perm.append_left _ List.perm_append_comm
      | succ i =>
          rw [List.set_cons_succ, List.flatMap_cons, List.flatMap_cons, List.append_assoc]
          exact (ih hx).append_left _

theorem map_set_of_eq {α β : Type*} {f : α → β} {xs : List α} {i : Nat} {x y : α}
    (hx : xs[i]? = some x) (hy : f y = f x) : (xs.set i y).map f = xs.map f := by
  induction xs generalizing i with
  | nil => rfl
  | cons first xs ih =>
      cases i with
      | zero =>
          cases hx
          exact congrArg (· :: xs.map f) hy
      | succ i => exact congrArg (f first :: ·) (ih hx)

end Interleaved
