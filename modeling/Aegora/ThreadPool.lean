import Mathlib.Data.List.Forall2
import Mathlib.Logic.Hydra

/-!
# A pool of threads over a shared world

A job acts on a shared world, one action at a time, and ends with a result.
`Returns` collects the results it can have whatever happens to the world in
between. A pool works on its jobs in the order in which they were submitted,
as many at a time as it has workers; a schedule says whose action is next.

Every result of a complete schedule is one that its job can have
(`results_returns`), no schedule goes on forever (`step_wellFounded`), and one
that is not complete can go on (`exists_step`).
-/

namespace ThreadPool

universe u v

variable {W : Type u} {R S : Type v}

/-! ## Jobs -/

inductive Job (W : Type u) (R : Type v) where
  | done (result : R)
  | act (effect : W → W) (next : W → Job W R)

namespace Job

/-- The job alone in the world. -/
def run : Job W R → W → R × W
  | .done result, w => (result, w)
  | .act effect next, w => (next w).run (effect w)

def bind (f : R → Job W S) : Job W R → Job W S
  | .done result => f result
  | .act effect next => .act effect fun w => (next w).bind f

def result? : Job W R → Option R
  | .done result => some result
  | .act _ _ => none

/-- A result of the job when others change the world between its actions. -/
inductive Returns : Job W R → R → Prop
  | done (result : R) : Returns (.done result) result
  | act {effect : W → W} {next : W → Job W R} {result : R} (w : W)
      (h : Returns (next w) result) : Returns (.act effect next) result

theorem returns_done {result r : R} : Returns (.done result : Job W R) r ↔ r = result := by
  constructor
  · rintro ⟨⟩
    rfl
  · rintro rfl
    exact .done r

theorem returns_act {effect : W → W} {next : W → Job W R} {result : R} :
    Returns (.act effect next) result ↔ ∃ w, Returns (next w) result := by
  constructor
  · rintro (_ | ⟨w, h⟩)
    exact ⟨w, h⟩
  · rintro ⟨w, h⟩
    exact .act w h

theorem returns_run (job : Job W R) (w : W) : job.Returns (job.run w).1 := by
  induction job generalizing w with
  | done result => exact .done result
  | act effect next ih => exact .act w (ih w (effect w))

theorem returns_bind {job : Job W R} {f : R → Job W S} {result : S} :
    (job.bind f).Returns result ↔ ∃ r, job.Returns r ∧ (f r).Returns result := by
  induction job with
  | done r => simp [bind, returns_done]
  | act effect next ih =>
      simp only [bind, returns_act, ih]
      constructor
      · rintro ⟨w, r, hr, h⟩
        exact ⟨r, ⟨w, hr⟩, h⟩
      · rintro ⟨r, ⟨w, hr⟩, h⟩
        exact ⟨w, r, hr, h⟩

theorem result?_eq_some {job : Job W R} {result : R} :
    job.result? = some result ↔ job = .done result := by
  cases job <;> simp [result?]

/-- What an action leaves to do. -/
def After (job' job : Job W R) : Prop := ∃ effect next w, job = .act effect next ∧ job' = next w

theorem after_wellFounded : WellFounded (After : Job W R → Job W R → Prop) := by
  refine ⟨fun job => ?_⟩
  induction job with
  | done result =>
      refine ⟨_, ?_⟩
      rintro _ ⟨effect, next, w, h, -⟩
      cases h
  | act effect next ih =>
      refine ⟨_, ?_⟩
      rintro _ ⟨_, _, w, h, rfl⟩
      cases h
      exact ih w

end Job

/-- The jobs one after the other. -/
def runAll : List (Job W R) → W → List R × W
  | [], w => ([], w)
  | job :: jobs, w =>
      let (result, w) := job.run w
      let (results, w) := runAll jobs w
      (result :: results, w)

theorem runAll_returns (jobs : List (Job W R)) (w : W) :
    List.Forall₂ Job.Returns jobs (runAll jobs w).1 := by
  induction jobs generalizing w with
  | nil => exact .nil
  | cons job jobs ih => exact .cons (job.returns_run w) (ih _)

/-! ## The pool -/

/-- The jobs in the order of their submission, each as far as it has come. -/
structure Pool (W : Type u) (R : Type v) where
  jobs : List (Job W R)
  world : W

namespace Pool

variable {workers : ℕ} {p p' : Pool W R}

/-- The unfinished jobs that were submitted before number `i`. -/
def ahead (p : Pool W R) (i : ℕ) : ℕ := (p.jobs.take i).countP fun job => job.result?.isNone

/-- The next action of job number `i`, where a worker has taken it. -/
def step (workers : ℕ) (p : Pool W R) (i : ℕ) : Option (Pool W R) :=
  match p.jobs[i]? with
  | some (.act effect next) =>
      if p.ahead i < workers then some ⟨p.jobs.set i (next p.world), effect p.world⟩ else none
  | _ => none

def run (workers : ℕ) (p : Pool W R) (schedule : List ℕ) : Option (Pool W R) :=
  schedule.foldlM (step workers) p

/-- The results, in the order of submission, when all jobs have ended. -/
def results (p : Pool W R) : Option (List R) := p.jobs.mapM Job.result?

theorem step_eq_some {i : ℕ} : p.step workers i = some p'
    ↔ ∃ effect next, p.jobs[i]? = some (.act effect next) ∧ p.ahead i < workers
      ∧ p' = ⟨p.jobs.set i (next p.world), effect p.world⟩ := by
  unfold step
  constructor
  · intro h
    split at h
    · rename_i effect next hjob
      split at h
      · rename_i hworkers
        exact ⟨effect, next, hjob, hworkers, (Option.some.inj h).symm⟩
      · cases h
    · cases h
  · rintro ⟨effect, next, hjob, hworkers, rfl⟩
    simp only [hjob, if_pos hworkers]

theorem run_cons {i : ℕ} {schedule : List ℕ} :
    p.run workers (i :: schedule) = (p.step workers i).bind fun p => p.run workers schedule := rfl

/-- A step takes no result from a job that it did not have, and gives none. -/
theorem step_returns {i : ℕ} (h : p.step workers i = some p') {results : List R}
    (hresults : List.Forall₂ Job.Returns p'.jobs results) :
    List.Forall₂ Job.Returns p.jobs results := by
  obtain ⟨effect, next, hjob, -, rfl⟩ := step_eq_some.mp h
  obtain ⟨hi, hjob⟩ := List.getElem?_eq_some_iff.mp hjob
  rw [List.forall₂_iff_get] at hresults ⊢
  obtain ⟨hlength, hget⟩ := hresults
  rw [List.length_set] at hlength
  refine ⟨hlength, fun j hj hj' => ?_⟩
  have hj'' := hget j (by rwa [List.length_set]) hj'
  simp only [List.get_eq_getElem, List.getElem_set] at hj'' ⊢
  split at hj''
  · rename_i heq
    subst heq
    rw [hjob]
    exact .act p.world hj''
  · exact hj''

theorem run_returns {schedule : List ℕ} (h : p.run workers schedule = some p') {results : List R}
    (hresults : List.Forall₂ Job.Returns p'.jobs results) :
    List.Forall₂ Job.Returns p.jobs results := by
  induction schedule generalizing p with
  | nil =>
      obtain rfl := Option.some.inj h
      exact hresults
  | cons i schedule ih =>
      rw [run_cons, Option.bind_eq_some_iff] at h
      obtain ⟨q, hstep, h⟩ := h
      exact step_returns hstep (ih h)

theorem results_eq_some {results : List R} :
    p.results = some results ↔ p.jobs = results.map Job.done := by
  obtain ⟨jobs, world⟩ := p
  unfold Pool.results
  dsimp only
  induction jobs generalizing results with
  | nil =>
      constructor
      · intro h
        obtain rfl := Option.some.inj h
        rfl
      · intro h
        rw [List.map_eq_nil_iff.mp h.symm]
        rfl
  | cons job jobs ih =>
      simp only [List.mapM_cons, Option.bind_eq_bind, Option.bind_eq_some_iff, ih,
        Job.result?_eq_some, Option.pure_def, Option.some.injEq]
      constructor
      · rintro ⟨r, rfl, rs, rfl, rfl⟩
        rfl
      · intro h
        obtain ⟨r, rs, rfl, hjob, hrest⟩ := List.map_eq_cons_iff.mp h.symm
        exact ⟨r, hjob.symm, rs, hrest.symm, rfl⟩

/-- What a complete schedule returns. -/
theorem results_returns {schedule : List ℕ} (h : p.run workers schedule = some p')
    {results : List R} (hresults : p'.results = some results) :
    List.Forall₂ Job.Returns p.jobs results := by
  refine run_returns h ?_
  rw [results_eq_some.mp hresults, List.forall₂_map_left_iff]
  exact List.forall₂_same.mpr fun r _ => .done r

/-- A pool that has not ended has a worker with something to do. -/
theorem exists_step (hworkers : 1 ≤ workers) (h : p.results = none) :
    ∃ i p', p.step workers i = some p' := by
  have hfirst : ∀ jobs : List (Job W R), jobs.mapM Job.result? = none →
      ∃ i effect next, jobs[i]? = some (.act effect next)
        ∧ (jobs.take i).countP (fun job => job.result?.isNone) = 0 := by
    intro jobs
    induction jobs with
    | nil => exact fun h => by cases h
    | cons job jobs ih =>
        intro h
        cases job with
        | act effect next => exact ⟨0, effect, next, rfl, rfl⟩
        | done result =>
            have hrest : jobs.mapM Job.result? = none := by
              cases hrest : jobs.mapM Job.result? with
              | none => rfl
              | some results => simp [Job.result?, hrest] at h
            obtain ⟨i, effect, next, hjob, hcount⟩ := ih hrest
            refine ⟨i + 1, effect, next, hjob, ?_⟩
            rw [List.take_succ_cons, List.countP_cons, hcount]
            rfl
  obtain ⟨i, effect, next, hjob, hcount⟩ := hfirst p.jobs h
  refine ⟨i, _, step_eq_some.mpr ⟨effect, next, hjob, ?_, rfl⟩⟩
  unfold ahead
  omega

/-- Every schedule ends. -/
theorem step_wellFounded (workers : ℕ) :
    WellFounded fun p' p : Pool W R => ∃ i, p.step workers i = some p' := by
  have hirrefl : Std.Irrefl (Job.After : Job W R → Job W R → Prop) :=
    ⟨fun job => Job.after_wellFounded.irrefl.irrefl job⟩
  refine Subrelation.wf (r := InvImage (Relation.CutExpand Job.After)
    fun p : Pool W R => (p.jobs : Multiset (Job W R))) ?_
    (InvImage.wf _ Job.after_wellFounded.cutExpand)
  rintro p' p ⟨i, h⟩
  obtain ⟨effect, next, hjob, -, rfl⟩ := step_eq_some.mp h
  obtain ⟨hi, hjob⟩ := List.getElem?_eq_some_iff.mp hjob
  have hold : p.jobs = p.jobs.take i ++ .act effect next :: p.jobs.drop (i + 1) := by
    rw [← hjob, ← List.drop_eq_getElem_cons hi, List.take_append_drop]
  have hnew : p.jobs.set i (next p.world)
      = p.jobs.take i ++ next p.world :: p.jobs.drop (i + 1) :=
    List.set_eq_take_append_cons_drop.trans (if_pos hi)
  refine ⟨{next p.world}, .act effect next, ?_, ?_⟩
  · intro job hmem
    rw [Multiset.mem_singleton.mp hmem]
    exact ⟨effect, next, p.world, rfl, rfl⟩
  · change ((p.jobs.set i (next p.world) : List (Job W R)) : Multiset (Job W R))
      + {.act effect next} = (p.jobs : Multiset (Job W R)) + {next p.world}
    rw [hnew]
    conv_rhs => rw [hold]
    rw [← Multiset.coe_singleton, ← Multiset.coe_singleton, Multiset.coe_add, Multiset.coe_add,
      Multiset.coe_eq_coe]
    refine ((List.perm_append_singleton _ _).trans (List.perm_middle.cons _)).trans
      ((List.Perm.swap _ _ _).trans ?_)
    exact ((List.perm_append_singleton _ _).trans (List.perm_middle.cons _)).symm

/-- A pool can always be run to its end. -/
theorem exists_run (hworkers : 1 ≤ workers) (p : Pool W R) :
    ∃ schedule p' results, p.run workers schedule = some p' ∧ p'.results = some results := by
  induction p using (step_wellFounded (W := W) (R := R) workers).induction with
  | _ p ih =>
      cases hresults : p.results with
      | some results => exact ⟨[], p, results, rfl, hresults⟩
      | none =>
          obtain ⟨i, q, hstep⟩ := exists_step hworkers hresults
          obtain ⟨schedule, p', results, hrun, hend⟩ := ih q ⟨i, hstep⟩
          refine ⟨i :: schedule, p', results, ?_, hend⟩
          rw [run_cons, hstep]
          exact hrun

end Pool

end ThreadPool
