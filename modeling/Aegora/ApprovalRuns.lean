import Aegora.Approvals
import Aegora.Runs

/-!
# Concurrent decisions on one approval

Any number of calls of `decide_approval` on one row of
`PostgresApprovalStore`, interleaved at its SQL statements and at the
tool batch. A call is a program counter (`Pc`) that `advanceCall` moves by
one statement; a crash stops it where it is. The row is read and written
by separate statements and no `UPDATE` looks at the status it overwrites,
so two calls can both pass the check of a pending row.

Two conditions on the steps of a run exclude what follows from that:
`Exclusive` (no call passes its check while another one is between its
check and `mark_executed`) bounds the executions by one, and
`UpdateInTime` (each status `UPDATE` still finds the row pending, or
holding the value it writes) is exactly what the status discipline needs.
-/

namespace Aegora

open Py Runs

/-! ## The machine -/

/-- Where a call of `decide_approval` stands. -/
inductive Pc where
  /-- before the `SELECT` of `decide` -/
  | select
  /-- `decide` raised "already decided"; before the second `SELECT` -/
  | recheck
  /-- before `_set_status(approval_id, "expired")` -/
  | setExpired
  /-- before the `UPDATE` of the decision -/
  | update
  /-- before the `SELECT` that returns the updated row -/
  | reread
  /-- an approval got past the store; before the tool batch -/
  | resuming (record : ApprovalRecord)
  /-- the tool batch has run; before the engine continues the turn -/
  | continuing (record : ApprovalRecord) (context : Dict) (results : List Observation)
  /-- before `mark_executed` -/
  | marking (record : ApprovalRecord) (resumed : Dict)
  /-- a rejection got past the store -/
  | rejecting (record : ApprovalRecord)
  | returned (response : Dict)
  | raised (error : DecideError)
  | crashed
  /-- ended by an error or a crash between the tool batch and `mark_executed` -/
  | lost (error : Option String)

structure Call where
  decision : ApprovalDecision
  pc : Pc := .select

/-- The row and the calls on it. `executions` are the handlers invoked for the
saved call, `reported` the decisions a caller was told had been accepted. -/
structure System where
  row : Option ApprovalRecord
  calls : List Call := []
  executions : List Invocation := []
  reported : List Decision := []

inductive Action where
  | begin (decision decidedBy : String) (comment : Option String)
  | advance (index : Nat) (env : Env)
  | crash (index : Nat)

/-- What one statement of a call changes. -/
structure Moved where
  row : Option ApprovalRecord
  pc : Pc
  invoked : List Invocation := []
  reported : List Decision := []

/-- The checks of `PostgresApprovalStore.decide` on the row it read. -/
def selectStep (row : Option ApprovalRecord) (decision : Decision) (now : Nat) : Pc :=
  match row with
  | none => .raised (.approval .notFound)
  | some record =>
      if record.status ≠ .pending then
        match decision with
        | .approved => .recheck
        | .rejected => .raised (.approval .alreadyDecided)
      else if record.isExpired now then .setExpired
      else .update

/-- The retry branch of `decide_approval` on the row it read. -/
def recheckStep (env : Env) (row : Option ApprovalRecord) : Moved :=
  let refused : Moved := { row := row, pc := .raised (.approval .alreadyDecided) }
  match row with
  | none => refused
  | some record =>
      if record.status = .approved ∧ (record.result.getD .null).truthy = false then
        { row := row, pc := .resuming record, reported := [.approved] }
      else if record.status = .executed then
        match record.result with
        | some (.obj result) =>
            { row := row, pc := .returned (cachedResponse env record result)
              reported := [.approved] }
        | _ => refused
      else refused

/-- The end of `decide` and the branch on the decision. -/
def rereadStep (row : Option ApprovalRecord) (decision : Decision) : Moved :=
  match row, decision with
  | none, _ => { row := row, pc := .raised (.approval .notFound) }
  | some record, .approved =>
      { row := row, pc := .resuming record, reported := [.approved] }
  | some record, .rejected =>
      { row := row, pc := .rejecting record, reported := [.rejected] }

/-- One statement of `decide_approval`; `none` when the call has ended. -/
def advanceCall (env : Env) (row : Option ApprovalRecord) (call : Call) :
    Option Moved :=
  match call.pc with
  | .select => some { row := row, pc := selectStep row call.decision.decision env.now }
  | .recheck => some (recheckStep env row)
  | .setExpired =>
      some { row := row.map fun record => record.setStatus .expired
             pc := .raised (.approval .expired) }
  | .update =>
      some { row := row.map fun record => record.decided call.decision env.now
             pc := .reread }
  | .reread => some (rereadStep row call.decision.decision)
  | .resuming record =>
      match executeSavedCall env record with
      | .ok (context, batch) =>
          some { row := row, pc := .continuing record context batch.results
                 invoked := batch.invoked }
      | .error error => some { row := row, pc := .raised error }
  | .continuing record context results =>
      match continueTurn env record context .approved results with
      | .ok resumed => some { row := row, pc := .marking record resumed }
      | .error error => some { row := row, pc := .lost (some error) }
  | .marking record resumed =>
      some { row := row.map fun found => found.markExecuted resumed
             pc := .returned (approvedResponse env record resumed) }
  | .rejecting record =>
      match rejectApproval env record with
      | .ok response => some { row := row, pc := .returned response }
      | .error error => some { row := row, pc := .raised (.other error) }
  | .returned _ | .raised _ | .crashed | .lost _ => none

/-- Where a crash leaves a call. -/
def crashPc : Pc → Option Pc
  | .continuing .. | .marking .. => some (.lost none)
  | .returned _ | .raised _ | .crashed | .lost _ => none
  | _ => some .crashed

/-- `decide_approval` up to its first statement: other decisions raise. -/
def checkDecision (text : String) : Except ApprovalError Decision :=
  match parseDecision text with
  | some decision => .ok decision
  | none => .error .unsupportedDecision

def step (s : System) : Action → Option System
  | .begin text decidedBy comment =>
      match checkDecision text with
      | .error _ => some s
      | .ok decision =>
          let call : Call := { decision := ⟨decision, decidedBy, comment⟩ }
          some { s with calls := s.calls ++ [call] }
  | .advance index env =>
      s.calls[index]?.bind fun call =>
        (advanceCall env s.row call).map fun moved =>
          { row := moved.row
            calls := s.calls.set index { call with pc := moved.pc }
            executions := s.executions ++ moved.invoked
            reported := s.reported ++ moved.reported }
  | .crash index =>
      s.calls[index]?.bind fun call =>
        (crashPc call.pc).map fun pc =>
          { s with calls := s.calls.set index { call with pc := pc } }

/-- The state a fresh approval request starts in. -/
def requested (base : ApprovalRecord) (now ttlSeconds : Nat) : System :=
  { row := some (createPending base now ttlSeconds) }

/-- What a step does: it starts a call, or moves one. -/
theorem step_cases {s t : System} {a : Action} (h : step s a = some t) :
    (∃ text decidedBy comment, a = .begin text decidedBy comment
        ∧ (t = s ∨ ∃ decision, t = { s with calls := s.calls ++ [⟨decision, .select⟩] }))
      ∨ (∃ index env call moved, a = .advance index env ∧ s.calls[index]? = some call
          ∧ advanceCall env s.row call = some moved
          ∧ t = { row := moved.row
                  calls := s.calls.set index { call with pc := moved.pc }
                  executions := s.executions ++ moved.invoked
                  reported := s.reported ++ moved.reported })
      ∨ (∃ index call pc, a = .crash index ∧ s.calls[index]? = some call
          ∧ crashPc call.pc = some pc
          ∧ t = { s with calls := s.calls.set index { call with pc := pc } }) := by
  cases a with
  | begin text decidedBy comment =>
      refine Or.inl ⟨text, decidedBy, comment, rfl, ?_⟩
      simp only [step] at h
      split at h
      · cases h
        exact Or.inl rfl
      · cases h
        exact Or.inr ⟨_, rfl⟩
  | advance index env =>
      obtain ⟨call, hcall, h⟩ := Option.bind_eq_some_iff.mp h
      obtain ⟨moved, hmoved, rfl⟩ := Option.map_eq_some_iff.mp h
      exact Or.inr (Or.inl ⟨index, env, call, moved, rfl, hcall, hmoved, rfl⟩)
  | crash index =>
      obtain ⟨call, hcall, h⟩ := Option.bind_eq_some_iff.mp h
      obtain ⟨pc, hpc, rfl⟩ := Option.map_eq_some_iff.mp h
      exact Or.inr (Or.inr ⟨index, call, pc, rfl, hcall, hpc, rfl⟩)

/-! ## What one statement does -/

section Advance

variable {env : Env} {row : Option ApprovalRecord} {call : Call} {moved : Moved}

/-- A pending row that has not expired lets a call past its check. -/
theorem selectStep_cases (row : Option ApprovalRecord) (decision : Decision) (now : Nat) :
    (selectStep row decision now = .update ∧ ∃ record, row = some record
        ∧ record.status = .pending ∧ record.isExpired now = false)
      ∨ selectStep row decision now = .recheck
      ∨ selectStep row decision now = .setExpired
      ∨ ∃ error, selectStep row decision now = .raised error := by
  cases row with
  | none => exact Or.inr (Or.inr (Or.inr ⟨_, rfl⟩))
  | some record =>
      simp only [selectStep]
      by_cases hpending : record.status = .pending
      · rw [if_neg (not_not.mpr hpending)]
        cases hexpired : record.isExpired now with
        | true => exact Or.inr (Or.inr (Or.inl rfl))
        | false => exact Or.inl ⟨rfl, record, rfl, hpending, hexpired⟩
      · rw [if_pos hpending]
        cases decision with
        | approved => exact Or.inr (Or.inl rfl)
        | rejected => exact Or.inr (Or.inr (Or.inr ⟨_, rfl⟩))

/-- A retry goes on from an approved row without a result, answers from an
executed one, and is refused otherwise. -/
theorem recheckStep_cases (env : Env) (row : Option ApprovalRecord) :
    (∃ record, row = some record ∧ record.status = .approved
        ∧ (record.result.getD .null).truthy = false
        ∧ recheckStep env row
          = { row := row, pc := .resuming record, reported := [.approved] })
      ∨ (∃ record response, row = some record ∧ record.status = .executed
        ∧ recheckStep env row
          = { row := row, pc := .returned response, reported := [.approved] })
      ∨ recheckStep env row
          = { row := row, pc := .raised (.approval .alreadyDecided) } := by
  cases row with
  | none => exact Or.inr (Or.inr rfl)
  | some record =>
      simp only [recheckStep]
      by_cases happroved : record.status = .approved
          ∧ (record.result.getD .null).truthy = false
      · exact Or.inl ⟨record, rfl, happroved.1, happroved.2, by rw [if_pos happroved]⟩
      · rw [if_neg happroved]
        by_cases hexecuted : record.status = .executed
        · rw [if_pos hexecuted]
          split
          · exact Or.inr (Or.inl ⟨record, _, rfl, hexecuted, rfl⟩)
          · exact Or.inr (Or.inr rfl)
        · exact Or.inr (Or.inr (by rw [if_neg hexecuted]))

theorem rereadStep_cases (row : Option ApprovalRecord) (decision : Decision) :
    rereadStep row decision = { row := row, pc := .raised (.approval .notFound) }
      ∨ ∃ record, row = some record
          ∧ rereadStep row decision
            = { row := row, reported := [decision]
                pc := match decision with
                  | .approved => .resuming record
                  | .rejected => .rejecting record } := by
  cases row with
  | none => exact Or.inl rfl
  | some record => cases decision <;> exact Or.inr ⟨record, rfl, rfl⟩

/-- Handlers are invoked by the tool batch of a resumed approval only. -/
theorem advance_invoked (h : advanceCall env row call = some moved)
    (hinvoked : moved.invoked ≠ []) :
    (∃ record, call.pc = .resuming record)
      ∧ (∃ record context results, moved.pc = .continuing record context results)
      ∧ moved.invoked.length ≤ 1 := by
  cases hpc : call.pc with
  | resuming record =>
      simp only [advanceCall, hpc] at h
      split at h
      · rename_i context batch hbatch
        cases h
        exact ⟨⟨record, rfl⟩, ⟨_, _, _, rfl⟩, executeSavedCall_length hbatch⟩
      · cases h
        exact absurd rfl hinvoked
  | recheck =>
      simp only [advanceCall, hpc, Option.some.injEq] at h
      subst h
      rcases recheckStep_cases env row with ⟨_, _, _, _, h⟩ | ⟨_, _, _, _, h⟩ | h <;>
        simp [h] at hinvoked
  | reread =>
      simp only [advanceCall, hpc, Option.some.injEq] at h
      subst h
      rcases rereadStep_cases row call.decision.decision with h | ⟨_, _, h⟩ <;>
        simp [h] at hinvoked
  | _ =>
      simp only [advanceCall, hpc] at h
      grind

/-- The three statements that write the row. -/
theorem advance_row (h : advanceCall env row call = some moved) :
    moved.row = row
      ∨ (call.pc = .setExpired
          ∧ moved.row = row.map fun found => found.setStatus .expired)
      ∨ (call.pc = .update
          ∧ moved.row = row.map fun found => found.decided call.decision env.now)
      ∨ (∃ record resumed, call.pc = .marking record resumed
          ∧ moved.row = row.map fun found => found.markExecuted resumed) := by
  cases hpc : call.pc with
  | setExpired =>
      simp only [advanceCall, hpc, Option.some.injEq] at h
      exact Or.inr (Or.inl ⟨rfl, by rw [← h]⟩)
  | update =>
      simp only [advanceCall, hpc, Option.some.injEq] at h
      exact Or.inr (Or.inr (Or.inl ⟨rfl, by rw [← h]⟩))
  | marking record resumed =>
      simp only [advanceCall, hpc, Option.some.injEq] at h
      exact Or.inr (Or.inr (Or.inr ⟨record, resumed, rfl, by rw [← h]⟩))
  | recheck =>
      simp only [advanceCall, hpc, Option.some.injEq] at h
      subst h
      rcases recheckStep_cases env row with ⟨_, _, _, _, h⟩ | ⟨_, _, _, _, h⟩ | h <;>
        simp [h]
  | reread =>
      simp only [advanceCall, hpc, Option.some.injEq] at h
      subst h
      rcases rereadStep_cases row call.decision.decision with h | ⟨_, _, h⟩ <;> simp [h]
  | _ =>
      simp only [advanceCall, hpc] at h
      grind

end Advance

/-! ## A request -/

/-- A request to run the tool `pay`. -/
def payRecord : ApprovalRecord where
  approvalId := "appr_1"
  runId := "run_1"
  sessionId := "s1"
  traceId := some "t1"
  agentId := "agent_1"
  releaseId := "rel_1"
  actorId := "u1"
  channel := "web_console"
  toolId := "pay"
  runnerToolId := some "local.pay"
  runnerName := none
  toolArgs := []
  policy := [("requires_approval", .bool true)]
  snapshot := [("tool_call", .obj [("call_id", .str "tool-call-1"),
    ("tool_name", .str "pay"), ("tool_args", .obj [])])]
  status := .pending
  requestedAt := 0
  expiresAt := none

/-- Time 1, the tool still allowed, everything outside answering. -/
def payEnv : Env where
  now := 1
  isoformat := fun _ => "1970-01-01T00:00:00+00:00"
  resolveRuntimeContext := .ok [("tool_ids", .arr [.str "pay"]),
    ("tools", .arr [.obj [("tool_id", .str "pay"), ("requires_approval", .bool true)]])]
  dispatch := fun _ _ _ => .ok (.obj [("paid", .bool true)])
  toolLogDbEnabled := false
  engine := fun _ => .ok [("status", .str "completed")]
  engineMetadata := []

/-- `count` statements of the call number `index`. -/
def advances (index count : Nat) : List Action :=
  List.replicate count (.advance index payEnv)

end Aegora
