import Aegora.ApprovalRuns

/-!
# How often an approved call is executed

Two calls that both read the pending row both run the saved call, and so
does a retry after a crash between the tool batch and `mark_executed`.
Under `Exclusive` neither happens: the invariant `OneExecution` follows the
one call that has passed its check until `mark_executed` settles the row.
-/

namespace Aegora

open Py Runs

/-! ## Calls between their check and `mark_executed` -/

/-- Past the check of its status, before the tool batch. -/
def Pc.prepared : Pc → Bool
  | .update | .reread | .resuming _ => true
  | _ => false

/-- Past the tool batch, and `mark_executed` not done. -/
def Pc.ran : Pc → Bool
  | .continuing .. | .marking .. | .lost _ => true
  | _ => false

def Pc.engaged (pc : Pc) : Bool := pc.prepared || pc.ran

/-- The next statement of `call` reads a row that lets it past its check. -/
def passesCheck (row : Option ApprovalRecord) (call : Call) (now : Nat) : Bool :=
  match call.pc with
  | .select => row.any fun record => record.status = .pending && !record.isExpired now
  | .recheck =>
      row.any fun record =>
        record.status = .approved && !(record.result.getD .null).truthy
  | _ => false

/-- No call passes its check while another one that passed may still run the
saved call, or has run it without reaching `mark_executed`. -/
def Exclusive (s : System) : Action → Prop
  | .advance index env =>
      ∀ call ∈ s.calls[index]?, passesCheck s.row call env.now = true →
        ∀ other ∈ s.calls.eraseIdx index, other.pc.engaged = false
  | _ => True

instance (s : System) : (a : Action) → Decidable (Exclusive s a)
  | .begin .. => inferInstanceAs (Decidable True)
  | .advance index env => inferInstanceAs (Decidable (∀ call ∈ s.calls[index]?,
      passesCheck s.row call env.now = true →
        ∀ other ∈ s.calls.eraseIdx index, other.pc.engaged = false))
  | .crash _ => inferInstanceAs (Decidable True)

/-- No check of a status lets a call past this row. -/
def Settled (row : Option ApprovalRecord) : Prop :=
  ∀ record, row = some record → record.status ≠ .pending ∧ record.status ≠ .approved

theorem passesCheck_settled {row : Option ApprovalRecord} {call : Call} {now : Nat}
    (h : Settled row) : passesCheck row call now = false := by
  cases row with
  | none => unfold passesCheck; split <;> rfl
  | some record =>
      obtain ⟨hpending, happroved⟩ := h record rfl
      unfold passesCheck
      split <;> simp [hpending, happroved]

/-- A check is done by a call that has not passed one. -/
theorem not_engaged_of_passesCheck {row : Option ApprovalRecord} {call : Call}
    {now : Nat} (h : passesCheck row call now = true) : call.pc.engaged = false := by
  unfold passesCheck at h
  split at h
  · rename_i hpc
    rw [hpc]
    rfl
  · rename_i hpc
    rw [hpc]
    rfl
  · cases h

/-! ## The statements of an engaged call -/

section Advance

variable {env : Env} {row : Option ApprovalRecord} {call : Call} {moved : Moved}

/-- A call gets past its check only by `passesCheck`. -/
theorem advance_prepared (h : advanceCall env row call = some moved)
    (hprepared : moved.pc.prepared = true) :
    call.pc.prepared = true ∨ passesCheck row call env.now = true := by
  cases hpc : call.pc with
  | update | reread | resuming => exact Or.inl rfl
  | select =>
      simp only [advanceCall, hpc, Option.some.injEq] at h
      subst h
      rcases selectStep_cases row call.decision.decision env.now with
        ⟨-, record, rfl, hpending, hexpired⟩ | h | h | ⟨_, h⟩
      · simp [passesCheck, hpc, hpending, hexpired]
      all_goals simp [h, Pc.prepared] at hprepared
  | recheck =>
      simp only [advanceCall, hpc, Option.some.injEq] at h
      subst h
      rcases recheckStep_cases env row with ⟨record, rfl, happroved, hresult, -⟩ | h
      · simp [passesCheck, hpc, happroved, hresult]
      · rcases h with ⟨_, _, _, _, hrefused⟩ | hrefused <;>
          simp [hrefused, Pc.prepared] at hprepared
  | setExpired | continuing | marking | rejecting | returned | raised | crashed | lost =>
      simp only [advanceCall, hpc] at h
      grind [Pc.prepared]

/-- The tool batch runs in a prepared call, which has then run. -/
theorem advance_ran (h : advanceCall env row call = some moved)
    (hran : moved.pc.ran = true) : call.pc.engaged = true := by
  cases hpc : call.pc with
  | update | reread | resuming | continuing | marking | lost => rfl
  | select =>
      simp only [advanceCall, hpc, Option.some.injEq] at h
      subst h
      rcases selectStep_cases row call.decision.decision env.now with
        ⟨h, -⟩ | h | h | ⟨_, h⟩ <;> simp [h, Pc.ran] at hran
  | recheck =>
      simp only [advanceCall, hpc, Option.some.injEq] at h
      subst h
      rcases recheckStep_cases env row with ⟨_, _, _, _, h⟩ | ⟨_, _, _, _, h⟩ | h <;>
        simp [h, Pc.ran] at hran
  | setExpired | rejecting | returned | raised | crashed =>
      simp only [advanceCall, hpc] at h
      grind [Pc.ran]

theorem advance_executed (h : advanceCall env row call = some moved)
    (hinvoked : moved.invoked ≠ []) :
    call.pc.prepared = true ∧ moved.pc.ran = true ∧ moved.invoked.length ≤ 1 := by
  obtain ⟨⟨record, hpc⟩, ⟨_, _, _, hran⟩, hlength⟩ := advance_invoked h hinvoked
  rw [hpc, hran]
  exact ⟨rfl, rfl, hlength⟩

/-- A call that has run ends by `mark_executed`, or keeps its place. -/
theorem advance_settles (h : advanceCall env row call = some moved)
    (hran : call.pc.ran = true) : moved.pc.ran = true ∨ Settled moved.row := by
  cases hpc : call.pc with
  | continuing =>
      simp only [advanceCall, hpc] at h
      grind [Pc.ran]
  | marking =>
      simp only [advanceCall, hpc, Option.some.injEq] at h
      subst h
      right
      intro record hrow
      obtain ⟨found, -, rfl⟩ := Option.map_eq_some_iff.mp hrow
      simp [ApprovalRecord.markExecuted]
  | _ => grind [Pc.ran, advanceCall]

/-- Only the `UPDATE` of a decision opens a settled row again. -/
theorem advance_keeps_settled (h : advanceCall env row call = some moved)
    (hprepared : call.pc.prepared = false) (hrow : Settled row) :
    Settled moved.row := by
  rcases advance_row h with hsame | ⟨-, hmap⟩ | ⟨hpc, -⟩ | ⟨_, _, -, hmap⟩
  · rw [hsame]
    exact hrow
  · rw [hmap]
    intro record hrecord
    obtain ⟨found, -, rfl⟩ := Option.map_eq_some_iff.mp hrecord
    simp [ApprovalRecord.setStatus]
  · simp [hpc, Pc.prepared] at hprepared
  · rw [hmap]
    intro record hrecord
    obtain ⟨found, -, rfl⟩ := Option.map_eq_some_iff.mp hrecord
    simp [ApprovalRecord.markExecuted]

end Advance

/-! ## The invariant -/

/-- The call number `i` has passed its check and not reached `mark_executed`. -/
def EngagedAt (s : System) (i : Nat) : Prop :=
  ∃ call, s.calls[i]? = some call ∧ call.pc.engaged = true

/-- One call at a time is engaged. Once the saved call has been executed no
other execution is prepared, and either the call that did it still stands
before `mark_executed` or the row lets no call past its check. -/
structure OneExecution (s : System) : Prop where
  alone : ∀ i j, EngagedAt s i → EngagedAt s j → i = j
  once : s.executions.length ≤ 1
  unprepared : s.executions ≠ [] → ∀ call ∈ s.calls, call.pc.prepared = false
  done : s.executions ≠ [] → (∃ call ∈ s.calls, call.pc.ran = true) ∨ Settled s.row

/-- One call moves to `pc`, changing the row to `row` and executing `invoked`. The hypotheses
are the facts of the last section, and what `Exclusive` adds to them. An execution is prepared
only while none has happened. -/
theorem OneExecution.move {s : System} (hs : OneExecution s) {i : Nat} {call : Call}
    (hcall : s.calls[i]? = some call) {pc : Pc} {row : Option ApprovalRecord}
    {invoked : List Invocation} {reported : List Decision}
    (hprepared : pc.prepared = true → call.pc.prepared = true
      ∨ call.pc.engaged = false ∧ ¬ Settled s.row ∧ ∀ j, j ≠ i → ¬ EngagedAt s j)
    (hran : pc.ran = true → call.pc.engaged = true)
    (hinvoked : invoked ≠ [] →
      call.pc.prepared = true ∧ pc.ran = true ∧ invoked.length ≤ 1)
    (hsettles : call.pc.ran = true → pc.ran = true ∨ Settled row)
    (hkeeps : call.pc.prepared = false → Settled s.row → Settled row) :
    OneExecution
      { row := row
        calls := s.calls.set i { call with pc := pc }
        executions := s.executions ++ invoked
        reported := reported } := by
  have hmem : call ∈ s.calls := List.mem_of_getElem? hcall
  have hfirst : call.pc.prepared = true → s.executions = [] := by
    intro hp
    by_contra hne
    simp [hs.unprepared hne call hmem] at hp
  have hother : call.pc.engaged = true → ∀ j, j ≠ i → ¬ EngagedAt s j :=
    fun hengaged j hj hat => hj (hs.alone j i hat ⟨call, hcall, hengaged⟩)
  have hnew : pc.engaged = true → ∀ j, j ≠ i → ¬ EngagedAt s j := by
    intro hengaged
    rcases Bool.or_eq_true_iff.mp hengaged with hp | hr
    · rcases hprepared hp with hp | ⟨-, -, hfree⟩
      · exact hother (by simp [Pc.engaged, hp])
      · exact hfree
    · exact hother (hran hr)
  constructor
  case alone =>
    rintro j k ⟨cj, hj, hcj⟩ ⟨ck, hk, hck⟩
    rcases (getElem?_set_iff hcall).mp hj with ⟨rfl, rfl⟩ | ⟨hji, hj'⟩ <;>
      rcases (getElem?_set_iff hcall).mp hk with ⟨rfl, rfl⟩ | ⟨hki, hk'⟩
    · rfl
    · exact absurd ⟨ck, hk', hck⟩ (hnew hcj k hki)
    · exact absurd ⟨cj, hj', hcj⟩ (hnew hck j hji)
    · exact hs.alone j k ⟨cj, hj', hcj⟩ ⟨ck, hk', hck⟩
  case once =>
    by_cases hne : invoked = []
    · simpa [hne] using hs.once
    · obtain ⟨hp, -, hlen⟩ := hinvoked hne
      simpa [hfirst hp] using hlen
  case unprepared =>
    intro hne c hc
    obtain ⟨j, hj⟩ := List.mem_iff_getElem?.mp hc
    rw [Bool.eq_false_iff]
    intro hcp
    rcases (getElem?_set_iff hcall).mp hj with ⟨rfl, rfl⟩ | ⟨hji, hj⟩
    · by_cases hex : s.executions = []
      · have hr := (hinvoked (by simpa [hex] using hne)).2.1
        cases hpc : pc <;> simp [hpc, Pc.prepared, Pc.ran] at hcp hr
      · rcases hprepared hcp with hp | ⟨hidle, hopen, hfree⟩
        · exact hex (hfirst hp)
        · rcases hs.done hex with ⟨d, hd, hdran⟩ | hsettled
          · obtain ⟨k, hk⟩ := List.mem_iff_getElem?.mp hd
            by_cases hkj : k = j
            · subst hkj
              cases hcall.symm.trans hk
              simp [Pc.engaged, hdran] at hidle
            · exact hfree k hkj ⟨d, hk, by simp [Pc.engaged, hdran]⟩
          · exact hopen hsettled
    · by_cases hex : s.executions = []
      · have hr := (hinvoked (by simpa [hex] using hne)).1
        exact hother (by simp [Pc.engaged, hr]) j hji ⟨c, hj, by simp [Pc.engaged, hcp]⟩
      · simp [hs.unprepared hex c (List.mem_of_getElem? hj)] at hcp
  case done =>
    intro hne
    have hi : (s.calls.set i { call with pc := pc })[i]? = some { call with pc := pc } :=
      (getElem?_set_iff hcall).mpr (Or.inl ⟨rfl, rfl⟩)
    by_cases hex : s.executions = []
    · have hr := (hinvoked (by simpa [hex] using hne)).2.1
      exact Or.inl ⟨_, List.mem_of_getElem? hi, hr⟩
    · rcases hs.done hex with ⟨d, hd, hdran⟩ | hsettled
      · obtain ⟨k, hk⟩ := List.mem_iff_getElem?.mp hd
        by_cases hki : k = i
        · subst hki
          cases hcall.symm.trans hk
          exact (hsettles hdran).imp (fun hr => ⟨_, List.mem_of_getElem? hi, hr⟩) id
        · have hkeep := (getElem?_set_iff hcall (y := { call with pc := pc })).mpr
            (Or.inr ⟨hki, hk⟩)
          exact Or.inl ⟨d, List.mem_of_getElem? hkeep, hdran⟩
      · exact Or.inr (hkeeps (hs.unprepared hex call hmem) hsettled)

theorem crashPc_prepared {pc pc' : Pc} (h : crashPc pc = some pc') :
    pc'.prepared = false := by
  cases pc <;> cases h <;> rfl

theorem crashPc_ran {pc pc' : Pc} (h : crashPc pc = some pc') : pc'.ran = pc.ran := by
  cases pc <;> cases h <;> rfl

theorem oneExecution_step {s t : System} {a : Action} (hs : OneExecution s)
    (hC : Exclusive s a) (h : step s a = some t) : OneExecution t := by
  rcases step_cases h with ⟨_, _, _, rfl, rfl | ⟨decision, rfl⟩⟩
    | ⟨i, env, call, moved, rfl, hcall, hmoved, rfl⟩ | ⟨i, call, pc, rfl, hcall, hpc, rfl⟩
  · exact hs
  · have hold : ∀ (j : Nat) (c : Call), (s.calls ++ [⟨decision, .select⟩])[j]? = some c →
        c.pc.engaged = true → s.calls[j]? = some c := by
      intro j c hj hc
      rcases getElem?_snoc_iff.mp hj with ⟨-, rfl⟩ | hj
      · cases hc
      · exact hj
    constructor
    case alone =>
      rintro j k ⟨cj, hj, hcj⟩ ⟨ck, hk, hck⟩
      exact hs.alone j k ⟨cj, hold j cj hj hcj, hcj⟩ ⟨ck, hold k ck hk hck, hck⟩
    case once => exact hs.once
    case unprepared =>
      intro hne c hc
      rcases List.mem_append.mp hc with hc | hc
      · exact hs.unprepared hne c hc
      · obtain rfl := List.mem_singleton.mp hc
        rfl
    case done =>
      intro hne
      refine (hs.done hne).imp_left ?_
      rintro ⟨c, hc, hcran⟩
      exact ⟨c, List.mem_append_left _ hc, hcran⟩
  · refine hs.move hcall (fun hp => ?_) (advance_ran hmoved) (advance_executed hmoved)
      (advance_settles hmoved) (advance_keeps_settled hmoved)
    refine (advance_prepared hmoved hp).imp_right fun hpass =>
      ⟨not_engaged_of_passesCheck hpass, fun hsettled => ?_, ?_⟩
    · simp [passesCheck_settled hsettled] at hpass
    · rintro j hj ⟨c, hc, hengaged⟩
      have hfree := hC call hcall hpass c (List.mem_eraseIdx_iff_getElem?.mpr ⟨j, hj, hc⟩)
      simp [hfree] at hengaged
  · have hmove : OneExecution
        { row := s.row, calls := s.calls.set i { call with pc := pc }
          executions := s.executions ++ [], reported := s.reported } :=
      hs.move hcall (fun hp => ?_) (fun hr => ?_) (fun hne => absurd rfl hne)
        (fun hr => ?_) (fun _ hrow => hrow)
    · simpa using hmove
    · simp [crashPc_prepared hpc] at hp
    · rw [crashPc_ran hpc] at hr
      simp [Pc.engaged, hr]
    · exact Or.inl (by rw [crashPc_ran hpc, hr])

/-- In a run without two calls between their check and `mark_executed`, the saved call is
executed at most once. The invariant `OneExecution` follows the one call that has passed its
check until it settles the row. -/
theorem saved_call_executed_at_most_once {base : ApprovalRecord} {now ttlSeconds : Nat}
    {as : List Action} {s : System}
    (hC : Meets step Exclusive (requested base now ttlSeconds) as)
    (hrun : run step (requested base now ttlSeconds) as = some s) :
    s.executions.length ≤ 1 := by
  have hinit : OneExecution (requested base now ttlSeconds) := by
    constructor <;> simp [requested, EngagedAt]
  exact (run_invariant (fun _ _ _ hs hC h => oneExecution_step hs hC h) hinit hC hrun).once

/-- One approval, then a retry that finds the saved result. -/
def approveThenRetry : List Action :=
  .begin "approved" "u_reviewer" none :: advances 0 6
    ++ .begin "approved" "u_reviewer" none :: advances 1 2

theorem saved_call_executed_at_most_once_approveThenRetry :
    ∃ s, run step (requested payRecord 0 1800) approveThenRetry = some s
      ∧ s.executions = [⟨"pay", []⟩] ∧ s.executions.length ≤ 1 := by
  have hrun : (run step (requested payRecord 0 1800) approveThenRetry).map
      System.executions = some [⟨"pay", []⟩] := by decide
  obtain ⟨s, hs, hex⟩ := Option.map_eq_some_iff.mp hrun
  exact ⟨s, hs, hex, saved_call_executed_at_most_once (by decide) hs⟩

/-- Every call of the run asks for approval. -/
def OnlyApprovals (as : List Action) : Prop :=
  ∀ text decidedBy comment, Action.begin text decidedBy comment ∈ as → text = "approved"

/-- Two approvals that both read the pending row before either writes it. -/
def racingApprovals : List Action :=
  .begin "approved" "u_reviewer" none :: .begin "approved" "u_reviewer" none
    :: advances 0 1 ++ advances 1 1 ++ advances 0 5 ++ advances 1 5

theorem racingApprovals_execute_twice :
    ∃ s, OnlyApprovals racingApprovals
      ∧ run step (requested payRecord 0 1800) racingApprovals = some s
      ∧ ¬ s.executions.length ≤ 1 := by
  have hrun : (run step (requested payRecord 0 1800) racingApprovals).map
      System.executions = some [⟨"pay", []⟩, ⟨"pay", []⟩] := by decide
  obtain ⟨s, hs, hex⟩ := Option.map_eq_some_iff.mp hrun
  refine ⟨s, ?_, hs, by simp [hex]⟩
  intro text decidedBy comment hmem
  simp [racingApprovals, advances] at hmem
  exact hmem.1

/-- The other way to a second execution: a crash after the tool batch. -/
example : (run step (requested payRecord 0 1800)
    (.begin "approved" "u_reviewer" none :: advances 0 4 ++ .crash 0
      :: .begin "approved" "u_reviewer" none :: advances 1 5)).map
    (fun s => s.executions.length) = some 2 := by decide

end Aegora
