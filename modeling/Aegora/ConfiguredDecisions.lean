import Aegora.AgentLoop

/-!
# The shape of a configured decision

`parse_configured_decision` of `configured_runner.py` reads an untyped
object three times over: the route, the list form of the calls and, when
that form yields nothing, the single call of `tool_name`. Whatever the
object is, what comes out is one of two things: a batch of at most eight
calls of allowed tools whose first call the decision repeats, or an answer
(`parseConfiguredDecision_wellFormed`).
-/

namespace Aegora

open Py

/-! ## The two shapes -/

/-- A `tool_call` decision of allowed tools; its arguments are dictionaries
by their type. -/
structure CallsTools (allowed : List String) (d : AgentDecision) : Prop where
  route : d.route = "tool_call"
  someCall : 1 ≤ d.toolCalls.length
  atMostEight : d.toolCalls.length ≤ 8
  allowed : ∀ call ∈ d.toolCalls, call.toolName ∈ allowed
  first : ∃ first ∈ d.toolCalls.head?,
    d.toolName = some first.toolName ∧ d.toolArgs = first.toolArgs

/-- The routes that end a turn. -/
def answerRoutes : List String := ["answer", "clarify", "handoff", "chat"]

/-- A decision that ends the turn with its answer and calls nothing. -/
structure Answers (d : AgentDecision) : Prop where
  route : d.route ∈ answerRoutes
  answer : ∃ answer, d.answer = some answer ∧ answer ≠ "" ∧ strip answer = answer
  noCall : decisionToolCalls d = []

/-! ## Texts without blanks at their ends -/

/-- The refusal names the tool between two full words. -/
theorem strip_unauthorised (name : String) :
    strip ("工具 " ++ name ++ " 未获授权，无法执行该操作。")
      = "工具 " ++ name ++ " 未获授权，无法执行该操作。" := by
  refine strip_eq_self '工' '。'
    (['具', ' '] ++ name.toList ++ " 未获授权，无法执行该操作".toList) ?_
    (by decide) (by decide)
  rw [String.toList_append, String.toList_append]
  have hend : " 未获授权，无法执行该操作。".toList
      = " 未获授权，无法执行该操作".toList ++ ['。'] := by decide +kernel
  rw [hend]
  simp

/-! ## The calls -/

theorem parseRuntimeToolItems_length {allowed : List String} {items : List Json} {index : Nat}
    {calls : List ToolCall} (h : parseRuntimeToolItems allowed items index = some calls) :
    calls.length ≤ items.length := by
  induction items generalizing index calls with
  | nil => cases h; simp
  | cons item rest ih =>
      cases item with
      | obj entries =>
          simp only [parseRuntimeToolItems] at h
          split at h
          · obtain ⟨tail, htail, rfl⟩ := Option.map_eq_some_iff.mp h
            exact Nat.succ_le_succ (ih htail)
          · cases h
      | _ => exact (ih h).trans (Nat.le_succ _)

theorem parseRuntimeToolCalls_length (value : Json) (allowed : List String) :
    (parseRuntimeToolCalls value allowed).length ≤ 8 := by
  cases value with
  | arr items =>
      unfold parseRuntimeToolCalls
      cases hcalls : parseRuntimeToolItems allowed (items.take 8) 0 with
      | none => simp [hcalls]
      | some calls =>
          have hlength := parseRuntimeToolItems_length hcalls
          rw [List.length_take] at hlength
          simp only [hcalls, Option.getD_some]
          exact hlength.trans (Nat.min_le_left _ _)
  | _ => simp [parseRuntimeToolCalls]

theorem configuredToolCalls_length {data : Dict} {allowed : List String}
    {calls : List ToolCall} (h : configuredToolCalls data allowed = .ok calls) :
    calls.length ≤ 8 := by
  unfold configuredToolCalls at h
  dsimp only at h
  split at h
  · split at h
    · obtain rfl := Except.ok.inj h
      simp
    · cases h
  · obtain rfl := Except.ok.inj h
    exact parseRuntimeToolCalls_length _ _

/-- The refusal of a tool that is not allowed is an answer. -/
theorem configuredToolCalls_refused {data : Dict} {allowed : List String}
    {refused : AgentDecision} (h : configuredToolCalls data allowed = .error refused) :
    Answers refused := by
  unfold configuredToolCalls at h
  dsimp only at h
  split at h
  · rename_i name _ hname
    split at h
    · cases h
    · obtain rfl := Except.error.inj h
      refine ⟨(by decide : "answer" ∈ answerRoutes), ⟨_, rfl, ?_, strip_unauthorised name⟩, rfl⟩
      intro hempty
      have hchars := congrArg String.toList hempty
      rw [String.toList_append, String.toList_append] at hchars
      simp at hchars
  · cases h

/-! ## Every decision has one of the shapes -/

theorem configuredRoute_mem (data : Dict) : configuredRoute data ∈ configuredRoutes := by
  have hanswer : "answer" ∈ configuredRoutes := by decide
  unfold configuredRoute
  dsimp only
  split_ifs <;> assumption

/-- Whatever object the model returned, the decision calls allowed tools or answers. The three
readings of the object are followed one after the other, and each yields a call only of an
allowed name. -/
theorem parseConfiguredDecision_wellFormed (data : Dict) (allowed : List String) :
    CallsTools allowed (parseConfiguredDecision data allowed)
      ∨ Answers (parseConfiguredDecision data allowed) := by
  have hknown := parseConfiguredDecision_allowed data allowed
  unfold parseConfiguredDecision at hknown ⊢
  dsimp only at hknown ⊢
  by_cases hroute : configuredRoute data = "tool_call"
  · rw [if_pos hroute] at hknown ⊢
    cases hcalls : configuredToolCalls data allowed with
    | error refused => exact Or.inr (configuredToolCalls_refused hcalls)
    | ok calls =>
        rw [hcalls] at hknown
        have hlength := configuredToolCalls_length hcalls
        cases calls with
        | nil =>
            exact Or.inr ⟨(by decide : "answer" ∈ answerRoutes),
              ⟨_, rfl, by decide, by decide +kernel⟩, rfl⟩
        | cons first rest =>
            exact Or.inl ⟨rfl, Nat.succ_le_succ (Nat.zero_le _), hlength, hknown,
              first, rfl, rfl, rfl⟩
  · rw [if_neg hroute]
    refine Or.inr ?_
    by_cases hblank : strip (((Dict.get data "answer").asStr?).getD "") = ""
    · rw [if_pos hblank]
      exact ⟨(by decide : "clarify" ∈ answerRoutes),
        ⟨_, rfl, by decide, by decide +kernel⟩, rfl⟩
    · rw [if_neg hblank]
      refine ⟨?_, ⟨_, rfl, hblank, strip_strip _⟩, rfl⟩
      have hmem := configuredRoute_mem data
      unfold configuredRoutes at hmem
      rw [List.mem_cons] at hmem
      exact hmem.resolve_left hroute

example :
    (parseConfiguredDecision [("route", .str "tool_call"), ("tool_name", .str "delete_database")]
      ["calculator"]).reason = some "unknown_tool_requested:delete_database" := by
  decide +kernel

end Aegora
