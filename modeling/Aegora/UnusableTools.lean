import Mathlib.Order.Bounds.Basic
import Aegora.RuntimeAuthz
import Aegora.ToolGate

/-!
# Tools that return nothing usable

A configured turn stops planning again after two observations in a row without
usable output. Whether an output has content is asked of the whole JSON value:
`output_has_content` looks under `result` and `results` first and then under
every key but two, the first of which says only how long the call took.

`HasContent` is the purpose of it, a value that can be reached without these
two keys; the looks ahead make no difference (`outputHasContent_iff`).
-/

namespace Aegora

open Py

namespace UnusableTools

/-! ## The content of an output -/

/-- The keys that are not looked under. -/
def metadataKeys : List String := ["elapsed_ms", "mcp_tool"]

mutual

/-- `output_has_content`. -/
def outputHasContent : Json → Bool
  | .null => false
  | .str s => strip s ≠ ""
  | .bool _ | .int _ | .float _ => true
  | .arr items => anyHasContent items
  | .obj entries =>
      fieldHasContent "result" entries || fieldHasContent "results" entries
        || entriesHaveContent entries

/-- `any(output_has_content(item) for item in value)`. -/
def anyHasContent : List Json → Bool
  | [] => false
  | item :: rest => outputHasContent item || anyHasContent rest

/-- `field in value and output_has_content(value.get(field))`. -/
def fieldHasContent (field : String) : List (String × Json) → Bool
  | [] => false
  | (key, item) :: rest =>
      if key = field then outputHasContent item else fieldHasContent field rest

/-- The last look at a dictionary, under all keys but the two. -/
def entriesHaveContent : List (String × Json) → Bool
  | [] => false
  | (key, item) :: rest =>
      (decide (key ∉ metadataKeys) && outputHasContent item) || entriesHaveContent rest

end

/-- `leaf` is the value itself or inside it, not under one of the two keys. -/
inductive Reaches : Json → Json → Prop
  | here (value : Json) : Reaches value value
  | item {items : List Json} {item leaf : Json} (hitem : item ∈ items)
      (h : Reaches item leaf) : Reaches (.arr items) leaf
  | entry {entries : List (String × Json)} {key : String} {item leaf : Json}
      (hkey : key ∉ metadataKeys) (hentry : (key, item) ∈ entries) (h : Reaches item leaf) :
      Reaches (.obj entries) leaf

/-- A number, a boolean or a text that is not blank. -/
def IsContent : Json → Prop
  | .bool _ | .int _ | .float _ => True
  | .str s => strip s ≠ ""
  | .null | .arr _ | .obj _ => False

def HasContent (value : Json) : Prop := ∃ leaf, Reaches value leaf ∧ IsContent leaf

theorem hasContent_arr {items : List Json} :
    HasContent (.arr items) ↔ ∃ item ∈ items, HasContent item := by
  constructor
  · rintro ⟨leaf, hreach, hleaf⟩
    cases hreach with
    | here => exact absurd hleaf id
    | item hitem h => exact ⟨_, hitem, leaf, h, hleaf⟩
  · rintro ⟨item, hitem, leaf, h, hleaf⟩
    exact ⟨leaf, .item hitem h, hleaf⟩

theorem hasContent_obj {entries : List (String × Json)} :
    HasContent (.obj entries)
      ↔ ∃ entry ∈ entries, entry.1 ∉ metadataKeys ∧ HasContent entry.2 := by
  constructor
  · rintro ⟨leaf, hreach, hleaf⟩
    cases hreach with
    | here => exact absurd hleaf id
    | entry hkey hentry h => exact ⟨_, hentry, hkey, leaf, h, hleaf⟩
  · rintro ⟨⟨key, item⟩, hentry, hkey, leaf, h, hleaf⟩
    exact ⟨leaf, .entry hkey hentry h, hleaf⟩

/-- Nothing is inside a value that is no list and no dictionary. -/
theorem hasContent_scalar (value : Json) (harr : ∀ items, value ≠ .arr items)
    (hobj : ∀ entries, value ≠ .obj entries) : HasContent value ↔ IsContent value := by
  constructor
  · rintro ⟨leaf, hreach, hleaf⟩
    cases hreach with
    | here => exact hleaf
    | item hitem h => exact absurd rfl (harr _)
    | entry hkey hentry h => exact absurd rfl (hobj _)
  · exact fun h => ⟨value, .here value, h⟩

/-- What the looks under `result` and `results` find, the last look finds. -/
theorem entriesHaveContent_of_field {field : String} (hfield : field ∉ metadataKeys)
    {entries : List (String × Json)} (h : fieldHasContent field entries = true) :
    entriesHaveContent entries = true := by
  induction entries with
  | nil => cases h
  | cons entry rest ih =>
      obtain ⟨key, item⟩ := entry
      unfold fieldHasContent at h
      unfold entriesHaveContent
      rw [Bool.or_eq_true, Bool.and_eq_true]
      split at h
      · rename_i hkey
        exact Or.inl ⟨decide_eq_true (hkey ▸ hfield), h⟩
      · exact Or.inr (ih h)

theorem outputHasContent_obj (entries : List (String × Json)) :
    outputHasContent (.obj entries) = entriesHaveContent entries := by
  unfold outputHasContent
  rw [Bool.eq_iff_iff, Bool.or_eq_true, Bool.or_eq_true]
  constructor
  · rintro ((h | h) | h)
    · exact entriesHaveContent_of_field (by decide) h
    · exact entriesHaveContent_of_field (by decide) h
    · exact h
  · exact Or.inr

mutual

theorem outputHasContent_iff (value : Json) : outputHasContent value = true ↔ HasContent value := by
  match value with
  | .null =>
      rw [hasContent_scalar .null (fun _ h => nomatch h) (fun _ h => nomatch h)]
      exact ⟨fun h => (nomatch h), fun h => absurd h id⟩
  | .bool b => exact ⟨fun _ => ⟨_, .here _, trivial⟩, fun _ => rfl⟩
  | .int n => exact ⟨fun _ => ⟨_, .here _, trivial⟩, fun _ => rfl⟩
  | .float repr => exact ⟨fun _ => ⟨_, .here _, trivial⟩, fun _ => rfl⟩
  | .str s =>
      rw [hasContent_scalar (.str s) (fun _ h => nomatch h) (fun _ h => nomatch h),
        outputHasContent, decide_eq_true_iff]
      rfl
  | .arr items =>
      rw [hasContent_arr, outputHasContent]
      exact anyHasContent_iff items
  | .obj entries =>
      rw [hasContent_obj, outputHasContent_obj]
      exact entriesHaveContent_iff entries

theorem anyHasContent_iff (items : List Json) :
    anyHasContent items = true ↔ ∃ item ∈ items, HasContent item := by
  match items with
  | [] => exact ⟨fun h => (nomatch h), fun ⟨_, h, _⟩ => (nomatch h)⟩
  | item :: rest =>
      rw [anyHasContent, Bool.or_eq_true, outputHasContent_iff item, anyHasContent_iff rest,
        List.exists_mem_cons_iff]

theorem entriesHaveContent_iff (entries : List (String × Json)) :
    entriesHaveContent entries = true
      ↔ ∃ entry ∈ entries, entry.1 ∉ metadataKeys ∧ HasContent entry.2 := by
  match entries with
  | [] => exact ⟨fun h => (nomatch h), fun ⟨_, h, _⟩ => (nomatch h)⟩
  | (key, item) :: rest =>
      rw [entriesHaveContent, Bool.or_eq_true, Bool.and_eq_true, decide_eq_true_iff,
        outputHasContent_iff item, entriesHaveContent_iff rest, List.exists_mem_cons_iff]

end

/-! ## Observations without one -/

/-- `tool_observation_has_usable_output`. -/
def toolObservationHasUsableOutput (observation : Dict) : Bool :=
  if Dict.get observation "status" ≠ .str "ok" then false
  else outputHasContent (Dict.get observation "output")

/-- The loop of `trailing_unusable_tool_count`, over the observations in reverse. -/
def countUnusable : List Json → ℕ
  | [] => 0
  | item :: rest =>
      match item with
      | .obj observation =>
          if toolObservationHasUsableOutput observation then 0 else countUnusable rest + 1
      | _ => 0

/-- `trailing_unusable_tool_count`. -/
def trailingUnusableToolCount (observations : List Json) : ℕ := countUnusable observations.reverse

/-- `state.get("tool_observations")`, if it is a list. -/
def observationsOf (state : Dict) : List Json :=
  (Dict.get state "tool_observations").asList?.getD []

/-- `int(state.get("loop_count") or 0)`. -/
def loopCountOf (state : Dict) : Except String Int :=
  ((Dict.get state "loop_count").orElse (.int 0)).pyInt

/-- The tools of the last four observations, as the answer names them. -/
def unusableToolNames (observations : List Json) : List String :=
  sortedSet ((observations.drop (observations.length - 4)).filterMap fun item =>
    item.asDict?.bind fun observation =>
      let name := Dict.get observation "tool_name"
      if name.truthy then some name.pyStr else none)

/-- The decision that ends the planning. -/
def unusableToolsDecision (observations : List Json) : AgentDecision :=
  let toolNames := unusableToolNames observations
  let joined := if toolNames = [] then "外部工具" else "、".intercalate toolNames
  { route := "answer"
    answer := some
      (joined ++ " 连续没有返回可用结果，暂时无法继续完成该操作。请稍后重试或补充更精确的信息。")
    reason := some "tool_unusable_replanning_stopped" }

/-- `stop_replanning_after_unusable_tools`. -/
def stopReplanningAfterUnusableTools (state : Dict) : Except String (Option AgentDecision) := do
  let observations := observationsOf state
  let loopCount ← loopCountOf state
  if loopCount < 2 ∨ trailingUnusableToolCount observations < 2 then return none
  return some (unusableToolsDecision observations)

/-- The same tool has failed twice, the second time with a text that is blank. -/
example : (stopReplanningAfterUnusableTools [("loop_count", .int 2), ("tool_observations", .arr [
    .obj [("tool_name", .str "maps"), ("status", .str "error")],
    .obj [("tool_name", .str "maps"), ("status", .str "ok"),
      ("output", .obj [("elapsed_ms", .int 7), ("result", .str " ")])]])]).map
      (·.bind AgentDecision.reason) = .ok (some "tool_unusable_replanning_stopped") := by
  decide +kernel

/-- A dictionary that does not have status `ok` together with content in its output. -/
def Unusable (item : Json) : Prop :=
  ∃ observation, item = .obj observation
    ∧ ¬ (Dict.get observation "status" = .str "ok" ∧ HasContent (Dict.get observation "output"))

theorem usableOutput_iff (observation : Dict) :
    toolObservationHasUsableOutput observation = true
      ↔ Dict.get observation "status" = .str "ok"
        ∧ HasContent (Dict.get observation "output") := by
  unfold toolObservationHasUsableOutput
  split
  · rename_i hstatus
    exact ⟨fun h => (nomatch h), fun h => absurd h.1 hstatus⟩
  · rename_i hstatus
    rw [outputHasContent_iff]
    exact (and_iff_right (not_not.mp hstatus)).symm

theorem countUnusable_cons (item : Json) (rest : List Json) :
    (Unusable item ∧ countUnusable (item :: rest) = countUnusable rest + 1)
      ∨ (¬ Unusable item ∧ countUnusable (item :: rest) = 0) := by
  cases item with
  | obj observation =>
      by_cases husable : toolObservationHasUsableOutput observation = true
      · refine Or.inr ⟨?_, if_pos husable⟩
        rintro ⟨_, heq, hnot⟩
        obtain rfl := Json.obj.inj heq
        exact hnot ((usableOutput_iff _).mp husable)
      · exact Or.inl ⟨⟨observation, rfl, fun h => husable ((usableOutput_iff _).mpr h)⟩,
          if_neg husable⟩
  | null => exact Or.inr ⟨fun ⟨_, heq, _⟩ => (nomatch heq), rfl⟩
  | bool b => exact Or.inr ⟨fun ⟨_, heq, _⟩ => (nomatch heq), rfl⟩
  | int n => exact Or.inr ⟨fun ⟨_, heq, _⟩ => (nomatch heq), rfl⟩
  | float repr => exact Or.inr ⟨fun ⟨_, heq, _⟩ => (nomatch heq), rfl⟩
  | str s => exact Or.inr ⟨fun ⟨_, heq, _⟩ => (nomatch heq), rfl⟩
  | arr items => exact Or.inr ⟨fun ⟨_, heq, _⟩ => (nomatch heq), rfl⟩

/-- The loop goes through as many items at the front as are unusable. -/
theorem countUnusable_spec (items : List Json) :
    (∃ front, front <+: items ∧ (∀ item ∈ front, Unusable item)
        ∧ front.length = countUnusable items)
      ∧ ∀ front, front <+: items → (∀ item ∈ front, Unusable item) →
        front.length ≤ countUnusable items := by
  induction items with
  | nil =>
      refine ⟨⟨[], List.nil_prefix, fun _ h => absurd h List.not_mem_nil, rfl⟩, ?_⟩
      intro front hfront _
      rw [List.prefix_nil.mp hfront]
      exact Nat.le_refl _
  | cons item rest ih =>
      obtain ⟨⟨longest, hlongest, hall, hlength⟩, hmost⟩ := ih
      rcases countUnusable_cons item rest with ⟨hitem, hcount⟩ | ⟨hitem, hcount⟩
      · refine ⟨⟨item :: longest, (List.cons_prefix_cons).mpr ⟨rfl, hlongest⟩, ?_, ?_⟩, ?_⟩
        · exact List.forall_mem_cons.mpr ⟨hitem, hall⟩
        · rw [hcount, List.length_cons, hlength]
        · intro front hfront hunusable
          cases front with
          | nil => exact Nat.zero_le _
          | cons first front =>
              rw [hcount, List.length_cons]
              have hle := hmost front ((List.cons_prefix_cons).mp hfront).2
                fun x hx => hunusable x (List.mem_cons_of_mem first hx)
              omega
      · refine ⟨⟨[], List.nil_prefix, fun _ h => absurd h List.not_mem_nil, hcount.symm⟩, ?_⟩
        intro front hfront hunusable
        cases front with
        | nil => exact Nat.zero_le _
        | cons first front =>
            obtain ⟨rfl, -⟩ := (List.cons_prefix_cons).mp hfront
            exact absurd (hunusable first List.mem_cons_self) hitem

/-- The lengths of the endings of a list that have unusable items only. -/
def UnusableEndings (observations : List Json) : Set ℕ :=
  {n | ∃ ending, ending <:+ observations ∧ (∀ item ∈ ending, Unusable item) ∧ ending.length = n}

theorem trailingUnusableToolCount_isGreatest (observations : List Json) :
    IsGreatest (UnusableEndings observations) (trailingUnusableToolCount observations) := by
  obtain ⟨⟨longest, hlongest, hall, hlength⟩, hmost⟩ := countUnusable_spec observations.reverse
  constructor
  · refine ⟨longest.reverse, ?_, fun item hitem => hall item (List.mem_reverse.mp hitem), ?_⟩
    · rw [← List.reverse_prefix, List.reverse_reverse]
      exact hlongest
    · rw [List.length_reverse]
      exact hlength
  · rintro n ⟨ending, hending, hunusable, rfl⟩
    have hle := hmost ending.reverse (List.reverse_prefix.mpr hending)
      fun item hitem => hunusable item (List.mem_reverse.mp hitem)
    rwa [List.length_reverse] at hle

theorem stopReplanning_iff (state : Dict) :
    (∃ decision, stopReplanningAfterUnusableTools state = .ok (some decision))
      ↔ ∃ n, loopCountOf state = .ok n ∧ 2 ≤ n
        ∧ 2 ≤ trailingUnusableToolCount (observationsOf state) := by
  cases hcount : loopCountOf state with
  | error e =>
      have hraises : stopReplanningAfterUnusableTools state = .error e := by
        unfold stopReplanningAfterUnusableTools
        rw [hcount]
        rfl
      rw [hraises]
      exact ⟨fun ⟨_, h⟩ => (nomatch h), fun ⟨_, h, _⟩ => (nomatch h)⟩
  | ok n =>
      by_cases hearly : n < 2 ∨ trailingUnusableToolCount (observationsOf state) < 2
      · have hgoes : stopReplanningAfterUnusableTools state = .ok none := by
          unfold stopReplanningAfterUnusableTools
          rw [hcount]
          exact if_pos hearly
        rw [hgoes]
        refine ⟨fun ⟨_, h⟩ => (nomatch h), fun ⟨m, hm, htwo, hlong⟩ => ?_⟩
        obtain rfl := Except.ok.inj hm
        omega
      · refine ⟨fun _ => ⟨n, rfl, by omega, by omega⟩, fun _ =>
          ⟨unusableToolsDecision (observationsOf state), ?_⟩⟩
        unfold stopReplanningAfterUnusableTools
        rw [hcount]
        exact if_neg hearly

end UnusableTools

open UnusableTools

/-- When an output has content, how many observations at the end have none that is usable, and
when planning stops for it. The looks ahead into `result` and `results` make no difference to
the first. -/
theorem unusable_tools_counted :
    (∀ value, outputHasContent value = true ↔ ∃ leaf, Reaches value leaf ∧ IsContent leaf)
      ∧ (∀ observations,
        IsGreatest (UnusableEndings observations) (trailingUnusableToolCount observations))
      ∧ ∀ state, (∃ decision, stopReplanningAfterUnusableTools state = .ok (some decision))
        ↔ ∃ n, loopCountOf state = .ok n ∧ 2 ≤ n
          ∧ 2 ≤ trailingUnusableToolCount (observationsOf state) :=
  ⟨outputHasContent_iff, trailingUnusableToolCount_isGreatest, stopReplanning_iff⟩

end Aegora
