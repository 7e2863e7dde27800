import Aegora.ToolExecutor

/-!
# When a handler is invoked again

The `after_call` hooks of `RuntimeToolExecutor.run` are fired inside the `try`
of the handler. One that raises is taken for a failure of the handler: the
`on_error` hooks are fired, and a tool that has attempts left is invoked once
more, although it returned. The hook that writes the tool log does raise, when
the database does.

A handler is thus invoked again only after a failure of its own, and what it
returns is reported, exactly when no hook raises after the attempt at which it
returns (`retries_only_failures_iff`).
-/

namespace Aegora

open Py

variable {hooks : ToolLifecycleHooks} {spec : ToolSpec} {args : Dict} {callId : Option String}

/-! ## Invocations and what the call answers -/

/-- What a call of the tool invoked, in order, and what it answered. -/
abbrev ToolRun := List Invocation × Except ToolError Observation

/-- Of the invocations from number `first` on, one that returned is the last, and it is reported
with its output. -/
def ReportsReturn (spec : ToolSpec) (args : Dict) (first : Nat) (run : ToolRun) : Prop :=
  ∀ n output, first ≤ n → n < first + run.1.length → spec.handler args n = .ok output →
    n + 1 = first + run.1.length
      ∧ ∃ observation, run.2 = .ok observation ∧ observation.status = "ok"
        ∧ observation.output = some output

/-- A handler is invoked again only if its last invocation raised, and one that returned is
reported with status ok and its output. -/
structure RetriesOnlyFailures (spec : ToolSpec) (args : Dict) (run : ToolRun) : Prop where
  retried : ∀ n, 1 ≤ n → n < run.1.length → ∃ error, spec.handler args n = .error error
  reported : ReportsReturn spec args 1 run

/-- No hook raises after the first attempt at which the handler returns, if it comes to it: the
attempts before raise, and no hook raises on their errors. -/
def LogsReturn (hooks : ToolLifecycleHooks) (spec : ToolSpec) (args : Dict)
    (callId : Option String) (first left : Nat) : Prop :=
  ∀ n output, first ≤ n → n < first + left → spec.handler args n = .ok output →
    (∀ k, first ≤ k → k < n → ∃ error, spec.handler args k = .error error
      ∧ fire hooks.onError (.error spec.name (safeArgs args) callId k error) = .ok ()) →
    fire hooks.afterCall (.after spec.name (safeArgs args) callId n output) = .ok ()

/-! ## The attempts -/

/-- What stands in the `try` of attempt number `n`. -/
def attempted (hooks : ToolLifecycleHooks) (spec : ToolSpec) (args : Dict)
    (callId : Option String) (n : Nat) : Except String Json := do
  let output ← spec.handler args n
  fire hooks.afterCall (.after spec.name (safeArgs args) callId n output)
  return output

theorem attempted_eq_ok {n : Nat} {output : Json} :
    attempted hooks spec args callId n = .ok output
      ↔ spec.handler args n = .ok output
        ∧ fire hooks.afterCall (.after spec.name (safeArgs args) callId n output) = .ok () := by
  unfold attempted
  constructor
  · intro h
    obtain ⟨returned, hreturned, h⟩ := bind_eq_ok.mp h
    obtain ⟨⟨⟩, hlog, h⟩ := bind_eq_ok.mp h
    cases h
    exact ⟨hreturned, hlog⟩
  · rintro ⟨hreturned, hlog⟩
    simp [hreturned, hlog, bind, Except.bind, pure, Except.pure]

variable {first left : Nat} {last : Option String}

theorem runAttempts_of_ok {output : Json}
    (h : attempted hooks spec args callId first = .ok output) :
    runAttempts hooks spec args callId first last (left + 1)
      = ([⟨spec.name, args⟩],
          .ok { callId := callId, toolName := spec.name, args := safeArgs args,
                status := "ok", output := some output, attempt := some first }) := by
  unfold attempted at h
  simp only [runAttempts, h]

/-- A handler or a hook raised: whichever it was, the attempts go on. -/
theorem runAttempts_of_error {error : String}
    (h : attempted hooks spec args callId first = .error error) :
    runAttempts hooks spec args callId first last (left + 1)
      = match fire hooks.onError (.error spec.name (safeArgs args) callId first error) with
        | .error hookExc => ([⟨spec.name, args⟩], .error (.hook hookExc))
        | .ok () =>
            (⟨spec.name, args⟩ ::
                (runAttempts hooks spec args callId (first + 1) (some error) left).1,
              (runAttempts hooks spec args callId (first + 1) (some error) left).2) := by
  unfold attempted at h
  cases hfire : fire hooks.onError (.error spec.name (safeArgs args) callId first error) with
  | error hookExc => simp only [runAttempts, h, hfire]
  | ok _ => simp only [runAttempts, h, hfire]

/-- Without an invocation nothing is reported. -/
theorem runAttempts_silent {observation : Observation}
    (h : (runAttempts hooks spec args callId first last left).2 = .ok observation) :
    (runAttempts hooks spec args callId first last left).1 ≠ [] := by
  cases left with
  | zero => cases h
  | succ left =>
      cases hattempt : attempted hooks spec args callId first with
      | ok output =>
          rw [runAttempts_of_ok hattempt]
          exact List.cons_ne_nil _ _
      | error error =>
          rw [runAttempts_of_error hattempt]
          split <;> exact List.cons_ne_nil _ _

/-- The later attempts report what they return exactly when all of them do, the first one having
raised. -/
theorem reportsReturn_cons {error : String} {run : ToolRun} {inv : Invocation}
    (h : spec.handler args first = .error error) :
    ReportsReturn spec args first (inv :: run.1, run.2)
      ↔ ReportsReturn spec args (first + 1) run := by
  have hlength : first + (inv :: run.1).length = first + 1 + run.1.length := by
    simp only [List.length_cons]
    omega
  unfold ReportsReturn
  simp only [hlength]
  constructor
  · intro hall n output hfirst hn
    exact hall n output (by omega) hn
  · intro hall n output hfirst hn hreturned
    have hne : n ≠ first := by
      rintro rfl
      rw [h] at hreturned
      cases hreturned
    exact hall n output (by omega) hn hreturned

/-- The error of the first attempt ends the call: no attempt returned, and none is reached. -/
theorem reportsReturn_iff_of_hook {error hookExc : String}
    (hhandler : spec.handler args first = .error error)
    (hfire : fire hooks.onError (.error spec.name (safeArgs args) callId first error)
      = .error hookExc) :
    ReportsReturn spec args first ([⟨spec.name, args⟩], .error (.hook hookExc))
      ↔ LogsReturn hooks spec args callId first (left + 1) := by
  constructor
  · intro _ n output hfirst _ hreturned hreached
    have hne : first ≠ n := by
      rintro rfl
      rw [hhandler] at hreturned
      cases hreturned
    obtain ⟨error', herror', hfire'⟩ := hreached first le_rfl (by omega)
    cases hhandler.symm.trans herror'
    rw [hfire] at hfire'
    cases hfire'
  · intro _ n output hfirst hn hreturned
    obtain rfl : n = first := by
      simp only [List.length_singleton] at hn
      omega
    rw [hhandler] at hreturned
    cases hreturned

/-- An attempt that raises, no hook raising on its error, leaves the matter to the later ones. -/
theorem logsReturn_succ {error : String} (hhandler : spec.handler args first = .error error)
    (hfire : fire hooks.onError (.error spec.name (safeArgs args) callId first error) = .ok ()) :
    LogsReturn hooks spec args callId (first + 1) left
      ↔ LogsReturn hooks spec args callId first (left + 1) := by
  constructor
  · intro hlogs n output hfirst hn hreturned hreached
    have hne : first ≠ n := by
      rintro rfl
      rw [hhandler] at hreturned
      cases hreturned
    exact hlogs n output (by omega) (by omega) hreturned fun k hk => hreached k (by omega)
  · intro hlogs n output hfirst hn hreturned hreached
    refine hlogs n output (by omega) (by omega) hreturned fun k hk hkn => ?_
    by_cases hkf : k = first
    · exact ⟨error, hkf ▸ hhandler, hkf ▸ hfire⟩
    · exact hreached k (by omega) hkn

/-- Where the first attempt returns, only the hooks after it matter. -/
theorem logsReturn_of_ok {output : Json} (hhandler : spec.handler args first = .ok output) :
    LogsReturn hooks spec args callId first (left + 1)
      ↔ fire hooks.afterCall (.after spec.name (safeArgs args) callId first output) = .ok () := by
  constructor
  · intro h
    exact h first output le_rfl (by omega) hhandler fun k hk hkn => by omega
  · intro h n output' hfirst _ hreturned hreached
    by_cases hne : n = first
    · subst hne
      cases hhandler.symm.trans hreturned
      exact h
    · obtain ⟨error, herror, -⟩ := hreached first le_rfl (by omega)
      rw [hhandler] at herror
      cases herror

/-- An output whose hook raises is lost: what the call answers, if anything, is of a later
attempt. -/
theorem not_reportsReturn_of_hook {output : Json} {error : String}
    (hhandler : spec.handler args first = .ok output)
    (hattempt : attempted hooks spec args callId first = .error error) :
    ¬ ReportsReturn spec args first
      (runAttempts hooks spec args callId first last (left + 1)) := by
  intro h
  rw [runAttempts_of_error hattempt] at h
  cases hfire : fire hooks.onError (.error spec.name (safeArgs args) callId first error) with
  | error hookExc =>
      rw [hfire] at h
      obtain ⟨-, observation, hreport, -⟩ := h first output le_rfl (by simp) hhandler
      cases hreport
  | ok =>
      rw [hfire] at h
      obtain ⟨hlast, observation, hreport, -⟩ := h first output le_rfl (by simp) hhandler
      refine runAttempts_silent hreport (List.length_eq_zero_iff.mp ?_)
      simp only [List.length_cons] at hlast
      omega

theorem reportsReturn_of_ok {output : Json}
    (hattempt : attempted hooks spec args callId first = .ok output) :
    ReportsReturn spec args first
      (runAttempts hooks spec args callId first last (left + 1)) := by
  intro n output' hfirst hn hreturned'
  rw [runAttempts_of_ok hattempt] at hn ⊢
  obtain rfl : n = first := by
    simp only [List.length_singleton] at hn
    omega
  cases (attempted_eq_ok.mp hattempt).1.symm.trans hreturned'
  exact ⟨rfl, _, rfl, rfl, rfl⟩

/-- The attempts report what the handler returns exactly when no hook raises on it. -/
theorem reportsReturn_iff :
    ReportsReturn spec args first (runAttempts hooks spec args callId first last left)
      ↔ LogsReturn hooks spec args callId first left := by
  induction left generalizing first last with
  | zero =>
      constructor
      · intro _ n output hfirst hn
        omega
      · intro _ n output hfirst hn
        simp only [runAttempts, List.length_nil] at hn
        omega
  | succ left ih =>
      cases hhandler : spec.handler args first with
      | error error =>
          have hattempt : attempted hooks spec args callId first = .error error := by
            rw [attempted, hhandler]
            rfl
          rw [runAttempts_of_error hattempt]
          cases hfire : fire hooks.onError
              (.error spec.name (safeArgs args) callId first error) with
          | error hookExc => exact reportsReturn_iff_of_hook hhandler hfire
          | ok =>
              exact (reportsReturn_cons hhandler).trans (ih.trans (logsReturn_succ hhandler hfire))
      | ok output =>
          rw [logsReturn_of_ok hhandler]
          cases hattempt : attempted hooks spec args callId first with
          | ok returned =>
              exact iff_of_true (reportsReturn_of_ok hattempt) <| by
                obtain ⟨hreturned, hlog⟩ := attempted_eq_ok.mp hattempt
                cases hhandler.symm.trans hreturned
                exact hlog
          | error error =>
              refine iff_of_false (not_reportsReturn_of_hook hhandler hattempt) fun hlog => ?_
              have hok := attempted_eq_ok.mpr ⟨hhandler, hlog⟩
              rw [hattempt] at hok
              cases hok

/-! ## The call -/

/-- A handler that is last when it returned is invoked again only after it raised. -/
theorem retriesOnlyFailures_iff {run : ToolRun} :
    RetriesOnlyFailures spec args run ↔ ReportsReturn spec args 1 run := by
  refine ⟨RetriesOnlyFailures.reported, fun h => ⟨fun n hn hlast => ?_, h⟩⟩
  cases hhandler : spec.handler args n with
  | error error => exact ⟨error, rfl⟩
  | ok output =>
      have hend := (h n output hn (by omega) hhandler).1
      omega

/-- `run` invokes a handler again only after it raised, and reports what it returned, exactly
when, the arguments being valid and the call begun, no hook raises after it returned. The
induction is on the attempts that are left: one that raises leaves the matter to the later
ones, one that returns ends it or is lost. -/
theorem retries_only_failures_iff (tools : List ToolSpec) (hooks : ToolLifecycleHooks)
    (name : String) (spec : ToolSpec) (args : Dict) (callId : Option String)
    (hget : getTool tools name = some spec) :
    RetriesOnlyFailures spec args (runTool tools hooks name args callId)
      ↔ (validateArgs spec args = .ok () →
          fire hooks.beforeCall (.before name (safeArgs args) callId) = .ok () →
          LogsReturn hooks spec args callId 1 spec.maxRetries) := by
  have hnone : ∀ error, RetriesOnlyFailures spec args ([], .error error) := by
    intro error
    refine ⟨fun n _ hn => absurd hn (Nat.not_lt_zero _), fun n output hfirst hn => ?_⟩
    simp only [List.length_nil] at hn
    omega
  simp only [runTool, hget]
  cases hvalid : validateArgs spec args with
  | error error => exact ⟨fun _ h => (by cases h), fun _ => hnone error⟩
  | ok =>
      cases hbefore : fire hooks.beforeCall (.before name (safeArgs args) callId) with
      | error error => exact ⟨fun _ _ h => (by cases h), fun _ => hnone _⟩
      | ok =>
          refine (retriesOnlyFailures_iff.trans reportsReturn_iff).trans ?_
          exact ⟨fun h _ _ => h, fun h => h rfl rfl⟩

section Example

/-- `save_user_memory`, whose handler saves and returns. -/
def saveMemorySpec : ToolSpec where
  name := "save_user_memory"
  inputSchema := [("key", .str), ("value", .str)]
  handler _ _ := .ok (.obj [("saved", .bool true)])
  maxRetries := 2
  metadata := { sideEffects := "memory_write" }

def saveMemoryArgs : Dict := [("key", .str "language"), ("value", .str "zh")]

/-- The tool log fails on the first attempt. -/
def brokenLog : ToolHook
  | .after _ _ _ 1 _ => .error "connection refused"
  | _ => .ok ()

def logHooks (log : ToolHook) : ToolLifecycleHooks where
  afterCall := [log]
  onError := [log]

theorem retries_only_failures_save :
    RetriesOnlyFailures saveMemorySpec saveMemoryArgs
      (runTool [saveMemorySpec] (logHooks fun _ => .ok ()) "save_user_memory" saveMemoryArgs
        none) :=
  (retries_only_failures_iff [saveMemorySpec] (logHooks fun _ => .ok ()) "save_user_memory"
    saveMemorySpec saveMemoryArgs none (by rfl)).mpr fun _ _ _ _ _ _ _ _ => rfl

/-- The memory is saved twice, although the first invocation returned. -/
theorem broken_log_saves_twice :
    (runTool [saveMemorySpec] (logHooks brokenLog) "save_user_memory" saveMemoryArgs none).1.length
        = 2
      ∧ ¬ RetriesOnlyFailures saveMemorySpec saveMemoryArgs
          (runTool [saveMemorySpec] (logHooks brokenLog) "save_user_memory" saveMemoryArgs
            none) := by
  refine ⟨by decide +kernel, fun h => ?_⟩
  obtain ⟨error, herror⟩ := h.retried 1 le_rfl (by decide +kernel)
  cases herror

end Example

end Aegora
