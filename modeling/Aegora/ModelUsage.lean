import Aegora.PyJson
import Mathlib.Algebra.BigOperators.Group.List.Basic
import Mathlib.Algebra.Ring.Int.Defs
import Mathlib.Data.List.Chain
import Mathlib.Data.List.Dedup
import Mathlib.Data.List.Sort
import Mathlib.Order.Lattice

/-!
# The model usage a turn reports

The chat client counts its calls, in total and for each model. A turn
takes a snapshot of these counters before and after and reports their
difference: `run_agent` with `diff_model_usage`, the LangGraph engine
with `diff_usage`.
-/

namespace Aegora

open Py

/-- The counters of one model, an item of `by_model`. -/
abbrev Counters := List (String × Int)

/-- What `usage_snapshot` returns. A key that the dictionary lacks is `none`. -/
structure UsageSnapshot where
  totalCalls : Option Int
  failedCalls : Option Int
  byModel : Option (List (String × Counters))
deriving DecidableEq

def usageCounters : List String :=
  ["calls", "failed_calls", "prompt_tokens", "completion_tokens", "total_tokens"]

/-- `(by_model or {}).get(model, {}).get(key) or 0`. -/
def counterOf (byModel : Option (List (String × Counters))) (model key : String) : Int :=
  (Dict.get? ((Dict.get? (byModel.getD []) model).getD []) key).getD 0

/-! ## `diff_model_usage` -/

/-- What `run_agent` reports. -/
structure ModelUsage where
  totalCalls : Int
  failedCalls : Int
  byModel : List (String × Counters)
deriving DecidableEq

def usageModels (before after : UsageSnapshot) : List String :=
  let models := (before.byModel.getD []).map Prod.fst ++ (after.byModel.getD []).map Prod.fst
  models.dedup.insertionSort (· ≤ ·)

def counterDeltas (before after : UsageSnapshot) (model : String) : Counters :=
  usageCounters.map fun key =>
    (key, counterOf after.byModel model key - counterOf before.byModel model key)

def diffModelUsage (before after : UsageSnapshot) : ModelUsage where
  totalCalls := after.totalCalls.getD 0 - before.totalCalls.getD 0
  failedCalls := after.failedCalls.getD 0 - before.failedCalls.getD 0
  byModel := (usageModels before after).filterMap fun model =>
    let delta := counterDeltas before after model
    if delta.any fun entry => entry.2 ≠ 0 then some (model, delta) else none

/-! ## `diff_usage` -/

/-- Equality of two dictionaries, whose entries are in no particular order. -/
def dictEq {β : Type} (eq : β → β → Bool) (d e : List (String × β)) : Bool :=
  (d.map Prod.fst ++ e.map Prod.fst).all fun key =>
    match Dict.get? d key, Dict.get? e key with
    | some left, some right => eq left right
    | none, none => true
    | _, _ => false

def sameByModel : (left right : Option (List (String × Counters))) → Bool
  | some left, some right => dictEq (dictEq fun m n => decide (m = n)) left right
  | none, none => true
  | _, _ => false

/-- What the engine reports. The outer `none` is a key the result lacks, the inner one `None`. -/
structure EngineUsage where
  totalCalls : Option (Option Int)
  failedCalls : Option (Option Int)
  byModel : Option (Option (List (String × Counters)))
deriving DecidableEq

/-- The loop body of `diff_usage` at a key with numbers. -/
def diffNumber : (left right : Option Int) → Option (Option Int)
  | some left, some right => some (some (right - left))
  | left, right => if right ≠ left then some right else none

/-- `diff_usage`. Dictionaries are no numbers: the later one is reported as it is. -/
def diffUsage (before after : UsageSnapshot) : EngineUsage where
  totalCalls := diffNumber before.totalCalls after.totalCalls
  failedCalls := diffNumber before.failedCalls after.failedCalls
  byModel := if sameByModel before.byModel after.byModel then none else some after.byModel

/-! ## What a report says -/

/-- The number under a key of the engine's report, a missing one read as 0. -/
def reportedNumber (value : Option (Option Int)) : Int := value.join.getD 0

def EngineUsage.counter (usage : EngineUsage) (model key : String) : Int :=
  counterOf usage.byModel.join model key

def ModelUsage.counter (usage : ModelUsage) (model key : String) : Int :=
  counterOf (some usage.byModel) model key

/-- The engine's report of a turn says what `run_agent`'s does. -/
structure ReportsAgree (before after : UsageSnapshot) : Prop where
  total : reportedNumber (diffUsage before after).totalCalls
    = (diffModelUsage before after).totalCalls
  failed : reportedNumber (diffUsage before after).failedCalls
    = (diffModelUsage before after).failedCalls
  counter : ∀ model, ∀ key ∈ usageCounters, (diffUsage before after).counter model key
    = (diffModelUsage before after).counter model key

/-- The turns of one client: each starts from the snapshot the one before it ended with. -/
def turns (snapshots : List UsageSnapshot) : List (UsageSnapshot × UsageSnapshot) :=
  snapshots.zip snapshots.tail

/-- What the turns of the client report adds up to its last snapshot less its first. -/
def AddsUp (reported : UsageSnapshot × UsageSnapshot → Int) (value : UsageSnapshot → Int)
    (snapshots : List UsageSnapshot) : Prop :=
  ∀ first ∈ snapshots.head?, ∀ last ∈ snapshots.getLast?,
    ((turns snapshots).map reported).sum = value last - value first

structure EngineAddsUp (snapshots : List UsageSnapshot) : Prop where
  total : AddsUp (fun t => reportedNumber (diffUsage t.1 t.2).totalCalls)
    (fun s => s.totalCalls.getD 0) snapshots
  failed : AddsUp (fun t => reportedNumber (diffUsage t.1 t.2).failedCalls)
    (fun s => s.failedCalls.getD 0) snapshots
  counter : ∀ model, ∀ key ∈ usageCounters,
    AddsUp (fun t => (diffUsage t.1 t.2).counter model key)
      (fun s => counterOf s.byModel model key) snapshots

/-! ## `diff_model_usage` reports differences -/

theorem get?_filterMap_keys {β : Type} (p : String → Bool) (f : String → β) (names : List String)
    (k : String) :
    Dict.get? (names.filterMap fun m => if p m then some (m, f m) else none) k
      = if k ∈ names ∧ p k then some (f k) else none := by
  induction names with
  | nil => simp
  | cons m ms ih =>
      rw [List.filterMap_cons]
      by_cases hm : p m
      · simp only [hm, if_true, Dict.get?_cons, ih, List.mem_cons]
        by_cases hk : k = m
        · subst hk
          simp [hm]
        · simp [hk]
      · simp only [hm, Bool.false_eq_true, if_false, ih, List.mem_cons]
        by_cases hk : k = m
        · subst hk
          simp [hm]
        · simp [hk]

theorem counterOf_of_not_mem {byModel : Option (List (String × Counters))} {model : String}
    (h : model ∉ (byModel.getD []).map Prod.fst) (key : String) :
    counterOf byModel model key = 0 := by
  have hnone : Dict.get? (byModel.getD []) model = none := by
    rw [← Option.not_isSome_iff_eq_none, Dict.isSome_get?_iff]
    exact h
  simp [counterOf, hnone]

theorem get?_counterDeltas (before after : UsageSnapshot) (model : String) {key : String}
    (hkey : key ∈ usageCounters) : Dict.get? (counterDeltas before after model) key
      = some (counterOf after.byModel model key - counterOf before.byModel model key) := by
  simp only [usageCounters, List.mem_cons, List.not_mem_nil, or_false] at hkey
  rcases hkey with rfl | rfl | rfl | rfl | rfl <;> rfl

/-- A model or a counter that the report leaves out did not change. -/
theorem counter_diffModelUsage (before after : UsageSnapshot) (model : String) {key : String}
    (hkey : key ∈ usageCounters) : (diffModelUsage before after).counter model key
      = counterOf after.byModel model key - counterOf before.byModel model key := by
  have hdelta := get?_counterDeltas before after model hkey
  simp only [ModelUsage.counter, counterOf, diffModelUsage, Option.getD_some]
  rw [get?_filterMap_keys]
  by_cases hchanged : (counterDeltas before after model).any fun entry => entry.2 ≠ 0
  · by_cases hmodel : model ∈ usageModels before after
    · rw [if_pos ⟨hmodel, hchanged⟩, Option.getD_some, hdelta]
      rfl
    · have hnot : ∀ byModel ∈ [before.byModel, after.byModel],
          model ∉ (byModel.getD []).map Prod.fst := by
        intro byModel hmem hin
        refine hmodel ((List.mem_insertionSort _).mpr (List.mem_dedup.mpr ?_))
        rw [List.mem_append]
        simp only [List.mem_cons, List.not_mem_nil, or_false] at hmem
        rcases hmem with rfl | rfl
        · exact .inl hin
        · exact .inr hin
      rw [if_neg (fun h => hmodel h.1)]
      have hafter := counterOf_of_not_mem (hnot after.byModel (by simp)) key
      have hbefore := counterOf_of_not_mem (hnot before.byModel (by simp)) key
      simp only [counterOf] at hafter hbefore
      simp [hafter, hbefore]
  · have hzero : counterOf after.byModel model key - counterOf before.byModel model key = 0 := by
      have hmem := Dict.mem_of_get? hdelta
      by_contra hne
      exact hchanged (List.any_eq_true.mpr ⟨_, hmem, by simpa using hne⟩)
    rw [if_neg (fun h => hchanged h.2)]
    simp only [counterOf] at hzero
    simp [hzero]

/-! ## What `diff_usage` reports -/

theorem reportedNumber_diffNumber (left right : Option Int) :
    reportedNumber (diffNumber left right)
      = if right = none then 0 else right.getD 0 - left.getD 0 := by
  cases left with
  | none =>
      cases right with
      | none => rfl
      | some n => simp [diffNumber, reportedNumber]
  | some m =>
      cases right with
      | none => simp [diffNumber, reportedNumber]
      | some n => simp [diffNumber, reportedNumber]

theorem get?_of_dictEq {β : Type} {eq : β → β → Bool} {d e : List (String × β)}
    (h : dictEq eq d e = true) (key : String) :
    (Dict.get? d key = none ∧ Dict.get? e key = none)
      ∨ ∃ x y, Dict.get? d key = some x ∧ Dict.get? e key = some y ∧ eq x y = true := by
  by_cases hkey : key ∈ d.map Prod.fst ++ e.map Prod.fst
  · have hat := List.all_eq_true.mp h key hkey
    cases hd : Dict.get? d key with
    | none =>
        cases he : Dict.get? e key with
        | none => exact .inl ⟨rfl, rfl⟩
        | some y => simp [hd, he] at hat
    | some x =>
        cases he : Dict.get? e key with
        | none => simp [hd, he] at hat
        | some y => exact .inr ⟨x, y, rfl, rfl, by simpa [hd, he] using hat⟩
  · left
    rw [List.mem_append, ← Dict.isSome_get?_iff, ← Dict.isSome_get?_iff] at hkey
    simpa using hkey

theorem counterOf_of_sameByModel {left right : Option (List (String × Counters))}
    (h : sameByModel left right = true) (model key : String) :
    counterOf left model key = counterOf right model key := by
  have hget : ∀ {d e : List (String × Counters)},
      dictEq (dictEq fun m n => decide (m = n)) d e = true →
        counterOf (some d) model key = counterOf (some e) model key := by
    intro d e hde
    simp only [counterOf, Option.getD_some]
    rcases get?_of_dictEq hde model with ⟨hd, he⟩ | ⟨x, y, hd, he, hxy⟩
    · rw [hd, he]
    · rw [hd, he, Option.getD_some, Option.getD_some]
      rcases get?_of_dictEq hxy key with ⟨hx, hy⟩ | ⟨m, n, hx, hy, hmn⟩
      · rw [hx, hy]
      · rw [hx, hy, of_decide_eq_true hmn]
  cases left with
  | none =>
      cases right with
      | none => rfl
      | some e => cases h
  | some d =>
      cases right with
      | none => cases h
      | some e => exact hget h

theorem counter_diffUsage (before after : UsageSnapshot) (model key : String) :
    (diffUsage before after).counter model key
      = if sameByModel before.byModel after.byModel then 0
        else counterOf after.byModel model key := by
  by_cases h : sameByModel before.byModel after.byModel
  · simp [EngineUsage.counter, diffUsage, h, counterOf]
  · simp [EngineUsage.counter, diffUsage, h]

/-! ## When the reports agree -/

/-- No number gets lost, and if the model counters changed, all of them were 0 before. -/
structure FreshOrQuiet (before after : UsageSnapshot) : Prop where
  total : after.totalCalls = none → before.totalCalls.getD 0 = 0
  failed : after.failedCalls = none → before.failedCalls.getD 0 = 0
  models : sameByModel before.byModel after.byModel = true
    ∨ ∀ model, ∀ key ∈ usageCounters, counterOf before.byModel model key = 0

theorem reportedNumber_eq_iff (left right : Option Int) :
    reportedNumber (diffNumber left right) = right.getD 0 - left.getD 0
      ↔ (right = none → left.getD 0 = 0) := by
  rw [reportedNumber_diffNumber]
  cases right with
  | none =>
      rw [if_pos rfl, Option.getD_none]
      constructor
      · intro h _
        omega
      · intro h
        have := h rfl
        omega
  | some n => simp

theorem reportsAgree_iff (before after : UsageSnapshot) :
    ReportsAgree before after ↔ FreshOrQuiet before after := by
  constructor
  · rintro ⟨htotal, hfailed, hcounter⟩
    refine ⟨(reportedNumber_eq_iff _ _).mp htotal, (reportedNumber_eq_iff _ _).mp hfailed, ?_⟩
    by_cases hsame : sameByModel before.byModel after.byModel = true
    · exact .inl hsame
    · right
      intro model key hkey
      have hat := hcounter model key hkey
      rw [counter_diffUsage, if_neg hsame, counter_diffModelUsage _ _ _ hkey] at hat
      omega
  · rintro ⟨htotal, hfailed, hmodels⟩
    refine ⟨(reportedNumber_eq_iff _ _).mpr htotal, (reportedNumber_eq_iff _ _).mpr hfailed, ?_⟩
    intro model key hkey
    rw [counter_diffUsage, counter_diffModelUsage _ _ _ hkey]
    by_cases hsame : sameByModel before.byModel after.byModel = true
    · rw [if_pos hsame, counterOf_of_sameByModel hsame]
      omega
    · have hzero := (hmodels.resolve_left hsame) model key hkey
      rw [if_neg hsame, hzero, Int.sub_zero]

/-! ## Turns of one client -/

theorem turns_cons_cons (s t : UsageSnapshot) (rest : List UsageSnapshot) :
    turns (s :: t :: rest) = (s, t) :: turns (t :: rest) := rfl

/-- If each turn reports a difference, the reports of all turns add up. -/
theorem addsUp_of_difference {reported : UsageSnapshot × UsageSnapshot → Int}
    {value : UsageSnapshot → Int} {snapshots : List UsageSnapshot}
    (h : ∀ turn ∈ turns snapshots, reported turn = value turn.2 - value turn.1) :
    AddsUp reported value snapshots := by
  induction snapshots with
  | nil =>
      intro first hfirst
      cases hfirst
  | cons s rest ih =>
      intro first hfirst last hlast
      obtain rfl : s = first := by simpa using hfirst
      cases rest with
      | nil =>
          obtain rfl : s = last := by simpa using hlast
          simp [turns]
      | cons t rest =>
          rw [turns_cons_cons] at h ⊢
          have hrest := ih (fun turn hturn => h turn (List.mem_cons_of_mem _ hturn)) t (by simp)
            last (by simpa using hlast)
          have hhead : reported (s, t) = value t - value s := h (s, t) List.mem_cons_self
          rw [List.map_cons, List.sum_cons, hrest, hhead]
          omega

theorem engineAddsUp_of_agree {snapshots : List UsageSnapshot}
    (h : ∀ turn ∈ turns snapshots, ReportsAgree turn.1 turn.2) : EngineAddsUp snapshots where
  total := addsUp_of_difference fun turn hturn => (h turn hturn).total
  failed := addsUp_of_difference fun turn hturn => (h turn hturn).failed
  counter model key hkey := addsUp_of_difference fun turn hturn =>
    ((h turn hturn).counter model key hkey).trans (counter_diffModelUsage _ _ _ hkey)

/-- The engine's reports agree with `run_agent`'s and add up over the turns of a client exactly
if in each turn the model counters stay as they are or start from 0. One of the two functions
subtracts the snapshots of the single models, the other reports the later one. -/
theorem usage_reports_agree_iff (snapshots : List UsageSnapshot) :
    ((∀ turn ∈ turns snapshots, ReportsAgree turn.1 turn.2) ∧ EngineAddsUp snapshots)
      ↔ ∀ turn ∈ turns snapshots, FreshOrQuiet turn.1 turn.2 := by
  constructor
  · rintro ⟨hagree, _⟩ turn hturn
    exact (reportsAgree_iff _ _).mp (hagree turn hturn)
  · intro h
    have hagree : ∀ turn ∈ turns snapshots, ReportsAgree turn.1 turn.2 :=
      fun turn hturn => (reportsAgree_iff _ _).mpr (h turn hturn)
    exact ⟨hagree, engineAddsUp_of_agree hagree⟩

/-- The snapshot of a client after `n` calls of one model. -/
def callsSnapshot (n : Nat) : UsageSnapshot where
  totalCalls := some n
  failedCalls := some 0
  byModel := some ((List.replicate (min n 1) "deepseek-v4-pro").map fun model =>
    (model, usageCounters.map fun key => (key, if key = "calls" then (n : Int) else 0)))

/-- In the second turn the engine reports both calls for the model and one in total. -/
theorem usage_counted_again :
    (diffUsage (callsSnapshot 1) (callsSnapshot 2)).totalCalls = some (some 1)
      ∧ (diffUsage (callsSnapshot 1) (callsSnapshot 2)).counter "deepseek-v4-pro" "calls" = 2
      ∧ (diffModelUsage (callsSnapshot 1) (callsSnapshot 2)).counter "deepseek-v4-pro" "calls" = 1
      ∧ ¬ ReportsAgree (callsSnapshot 1) (callsSnapshot 2)
      ∧ ¬ EngineAddsUp [callsSnapshot 0, callsSnapshot 1, callsSnapshot 2] := by
  refine ⟨rfl, by decide +kernel, by decide +kernel, ?_, ?_⟩
  · intro h
    have := h.counter "deepseek-v4-pro" "calls" (by decide)
    revert this
    decide +kernel
  · intro h
    have := h.counter "deepseek-v4-pro" "calls" (by decide) (callsSnapshot 0) rfl
      (callsSnapshot 2) rfl
    revert this
    decide +kernel

end Aegora
