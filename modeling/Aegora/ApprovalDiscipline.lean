import Aegora.ApprovalRuns

/-!
# Which way the status of an approval moves

The store means a status to go from pending to approved, rejected or
expired, and from approved to executed, with one decision reported as
accepted. Its `UPDATE`s carry no status guard, so all of that rests on each
of them coming before the row has changed (`UpdateInTime`).
-/

namespace Aegora

open Py Runs

/-! ## The discipline -/

/-- The moves of a status the store intends. -/
def LegalMove (old new : ApprovalStatus) : Prop :=
  old = new ∨ (old = .pending ∧ (new = .approved ∨ new = .rejected ∨ new = .expired))
    ∨ (old = .approved ∧ new = .executed)

def System.status (s : System) : Option ApprovalStatus :=
  s.row.map ApprovalRecord.status

/-- What the next statement of a call writes to the status on the strength of
an earlier `SELECT`. -/
def statusWrite (call : Call) : Option ApprovalStatus :=
  match call.pc with
  | .setExpired => some .expired
  | .update => some call.decision.decision.status
  | _ => none

/-- The `UPDATE` of a decision or of an expiry finds the row still pending, as
its `SELECT` did, or already at the value it writes. -/
def UpdateInTime (s : System) : Action → Prop
  | .advance index _ =>
      ∀ call ∈ s.calls[index]?, ∀ new ∈ statusWrite call, ∀ old ∈ s.status,
        old = .pending ∨ old = new
  | _ => True

instance (s : System) (a : Action) : Decidable (UpdateInTime s a) := by
  cases a <;> unfold UpdateInTime <;> infer_instance

/-- Along the run the status only moves as intended, no two conflicting
decisions are both reported as accepted, and after a reported rejection the
tool call is not executed. -/
structure StatusDiscipline (s : System) (as : List Action) : Prop where
  moves : ∀ pre a post u t, as = pre ++ a :: post → run step s pre = some u →
    step u a = some t → ∀ old ∈ u.status, ∀ new ∈ t.status, LegalMove old new
  unanimous : ∀ pre post u, as = pre ++ post → run step s pre = some u →
    ¬ (Decision.approved ∈ u.reported ∧ Decision.rejected ∈ u.reported)
  rejection : ∀ pre post u, as = pre ++ post → run step s pre = some u →
    u.executions ≠ [] → Decision.rejected ∉ u.reported

/-- A status that a reported decision is compatible with. -/
def Supports (status : ApprovalStatus) (decision : Decision) : Prop :=
  status = decision.status ∨ (decision = .approved ∧ status = .executed)

/-- The record found past the check of an approval. -/
def Pc.approving : Pc → Bool
  | .resuming _ | .continuing .. | .marking .. => true
  | _ => false

/-- What holds along a run whose `UPDATE`s are all in time. -/
structure Disciplined (s : System) : Prop where
  found : ∃ record, s.row = some record
  reported : ∀ record, s.row = some record → ∀ d ∈ s.reported, Supports record.status d
  reread : ∀ record, s.row = some record → ∀ call ∈ s.calls, call.pc = .reread →
    Supports record.status call.decision.decision
  approving : ∀ call ∈ s.calls, call.pc.approving = true → Decision.approved ∈ s.reported
  executed : s.executions ≠ [] → Decision.approved ∈ s.reported

theorem Supports.legal {old new : ApprovalStatus} {d : Decision}
    (h : Supports old d) (hmove : LegalMove old new) : Supports new d := by
  rcases hmove with rfl | ⟨rfl, -⟩ | ⟨rfl, rfl⟩
  · exact h
  · cases d <;> simp [Supports, Decision.status] at h
  · cases d <;> simp [Supports, Decision.status] at h ⊢

/-- No status is compatible with both decisions. -/
theorem Supports.exclusive {status : ApprovalStatus} (happroved : Supports status .approved)
    (hrejected : Supports status .rejected) : False := by
  cases status <;> simp [Supports, Decision.status] at happroved hrejected

/-! ## The statements of a call -/

section Advance

variable {env : Env} {row : Option ApprovalRecord} {call : Call} {moved : Moved}

theorem advance_reread (h : advanceCall env row call = some moved)
    (hpc : moved.pc = .reread) : call.pc = .update := by
  cases hcall : call.pc with
  | update => rfl
  | select =>
      simp only [advanceCall, hcall, Option.some.injEq] at h
      subst h
      rcases selectStep_cases row call.decision.decision env.now with
        ⟨h, -⟩ | h | h | ⟨_, h⟩ <;> simp [h] at hpc
  | recheck =>
      simp only [advanceCall, hcall, Option.some.injEq] at h
      subst h
      rcases recheckStep_cases env row with ⟨_, _, _, _, h⟩ | ⟨_, _, _, _, h⟩ | h <;>
        simp [h] at hpc
  | reread =>
      simp only [advanceCall, hcall, Option.some.injEq] at h
      subst h
      rcases rereadStep_cases row call.decision.decision with h | ⟨_, _, h⟩
      · simp [h] at hpc
      · cases hd : call.decision.decision <;> simp [hd] at h <;> simp [hd, h] at hpc
  | _ =>
      simp only [advanceCall, hcall] at h
      grind

/-- A decision is reported by the last `SELECT` of `decide`, or on a retry by
an approved or executed row. -/
theorem advance_reported (h : advanceCall env row call = some moved) {d : Decision}
    (hd : d ∈ moved.reported) :
    (call.pc = .reread ∧ d = call.decision.decision)
      ∨ (∃ record, row = some record ∧ Supports record.status d) := by
  cases hpc : call.pc with
  | reread =>
      simp only [advanceCall, hpc, Option.some.injEq] at h
      subst h
      rcases rereadStep_cases row call.decision.decision with h | ⟨_, _, h⟩
      · simp [h] at hd
      · simp [h] at hd
        exact Or.inl ⟨rfl, hd⟩
  | recheck =>
      simp only [advanceCall, hpc, Option.some.injEq] at h
      subst h
      rcases recheckStep_cases env row with
        ⟨record, hrow, hstatus, _, h⟩ | ⟨record, _, hrow, hstatus, h⟩ | h
      · simp [h] at hd
        exact Or.inr ⟨record, hrow, by simp [hd, hstatus, Supports, Decision.status]⟩
      · simp [h] at hd
        exact Or.inr ⟨record, hrow, by simp [hd, hstatus, Supports]⟩
      · simp [h] at hd
  | _ =>
      simp only [advanceCall, hpc] at h
      grind

/-- A call resumes an approval it has been granted. -/
theorem advance_approving (h : advanceCall env row call = some moved)
    (hpc : moved.pc.approving = true) :
    call.pc.approving = true ∨ Decision.approved ∈ moved.reported := by
  cases hcall : call.pc with
  | resuming | continuing | marking => exact Or.inl rfl
  | select =>
      simp only [advanceCall, hcall, Option.some.injEq] at h
      subst h
      rcases selectStep_cases row call.decision.decision env.now with
        ⟨h, -⟩ | h | h | ⟨_, h⟩ <;> simp [h, Pc.approving] at hpc
  | recheck =>
      simp only [advanceCall, hcall, Option.some.injEq] at h
      subst h
      rcases recheckStep_cases env row with ⟨_, _, _, _, h⟩ | ⟨_, _, _, _, h⟩ | h <;>
        simp [h, Pc.approving] at hpc ⊢
  | reread =>
      simp only [advanceCall, hcall, Option.some.injEq] at h
      subst h
      rcases rereadStep_cases row call.decision.decision with h | ⟨_, _, h⟩
      · simp [h, Pc.approving] at hpc
      · cases hd : call.decision.decision <;> simp [hd] at h <;>
          simp [hd, h, Pc.approving] at hpc ⊢
  | _ =>
      simp only [advanceCall, hcall] at h
      grind [Pc.approving]

theorem advance_executes (h : advanceCall env row call = some moved)
    (hinvoked : moved.invoked ≠ []) : call.pc.approving = true := by
  obtain ⟨⟨record, hpc⟩, -, -⟩ := advance_invoked h hinvoked
  rw [hpc]
  rfl

/-- A statement moves the status as intended if its `UPDATE` is in time and
`mark_executed` comes after an approval. -/
theorem advance_legal (h : advanceCall env row call = some moved)
    {record : ApprovalRecord} (hrow : row = some record)
    (hC : ∀ new ∈ statusWrite call, record.status = .pending ∨ record.status = new)
    (happroving : call.pc.approving = true → Supports record.status .approved) :
    ∃ next, moved.row = some next ∧ LegalMove record.status next.status := by
  rcases advance_row h with hsame | ⟨hpc, hmap⟩ | ⟨hpc, hmap⟩ | ⟨_, _, hpc, hmap⟩
  · exact ⟨record, by rw [hsame, hrow], Or.inl rfl⟩
  · refine ⟨_, by rw [hmap, hrow, Option.map_some], ?_⟩
    have := hC .expired (by simp [statusWrite, hpc])
    simp only [ApprovalRecord.setStatus, LegalMove]
    tauto
  · refine ⟨_, by rw [hmap, hrow, Option.map_some], ?_⟩
    have := hC call.decision.decision.status (by simp [statusWrite, hpc])
    simp only [ApprovalRecord.decided, LegalMove]
    cases hd : call.decision.decision <;> simp only [hd, Decision.status] at this ⊢ <;> tauto
  · refine ⟨_, by rw [hmap, hrow, Option.map_some], ?_⟩
    have := happroving (by simp [hpc, Pc.approving])
    simp only [Supports, Decision.status] at this
    simp only [ApprovalRecord.markExecuted, LegalMove]
    tauto

end Advance

/-! ## The invariant -/

/-- A call that does not write its status moves, or one is started. -/
theorem Disciplined.calls {s : System} (hs : Disciplined s) {calls : List Call}
    (hreread : ∀ call ∈ calls, call.pc = .reread → call ∈ s.calls)
    (happroving : ∀ call ∈ calls, call.pc.approving = true →
      ∃ old ∈ s.calls, old.pc.approving = true) :
    Disciplined { s with calls := calls } where
  found := hs.found
  reported := hs.reported
  reread record hrow call hcall hpc := hs.reread record hrow call (hreread call hcall hpc) hpc
  approving call hcall hpc := by
    obtain ⟨old, hold, hpc⟩ := happroving call hcall hpc
    exact hs.approving old hold hpc
  executed := hs.executed

theorem Disciplined.advance {s : System} (hs : Disciplined s) {i : Nat} {env : Env}
    {call : Call} {moved : Moved} (hcall : s.calls[i]? = some call)
    (hmoved : advanceCall env s.row call = some moved)
    (hC : UpdateInTime s (.advance i env)) :
    Disciplined
        { row := moved.row
          calls := s.calls.set i { call with pc := moved.pc }
          executions := s.executions ++ moved.invoked
          reported := s.reported ++ moved.reported }
      ∧ ∃ record next, s.row = some record ∧ moved.row = some next
          ∧ LegalMove record.status next.status := by
  obtain ⟨record, hrow⟩ := hs.found
  have hmem : call ∈ s.calls := List.mem_of_getElem? hcall
  have hsupports : call.pc.approving = true → Supports record.status .approved :=
    fun hpc => hs.reported record hrow _ (hs.approving call hmem hpc)
  have hwrite : ∀ new ∈ statusWrite call, record.status = .pending ∨ record.status = new :=
    fun new hnew => hC call hcall new hnew record.status (by simp [System.status, hrow])
  obtain ⟨next, hnext, hlegal⟩ := advance_legal hmoved hrow hwrite hsupports
  refine ⟨?_, record, next, hrow, hnext, hlegal⟩
  have hnew : ∀ d ∈ moved.reported, Supports record.status d := by
    intro d hd
    rcases advance_reported hmoved hd with ⟨hpc, rfl⟩ | ⟨found, hfound, hsup⟩
    · exact hs.reread record hrow call hmem hpc
    · cases hrow.symm.trans hfound
      exact hsup
  constructor
  case found => exact ⟨next, hnext⟩
  case reported =>
    intro r hr d hd
    cases hnext.symm.trans hr
    rcases List.mem_append.mp hd with hd | hd
    · exact (hs.reported record hrow d hd).legal hlegal
    · exact (hnew d hd).legal hlegal
  case reread =>
    intro r hr c hc hpc
    cases hnext.symm.trans hr
    rcases List.mem_or_eq_of_mem_set hc with hold | rfl
    · exact (hs.reread record hrow c hold hpc).legal hlegal
    · have hupdate := advance_reread hmoved hpc
      simp only [advanceCall, hupdate, hrow, Option.map_some, Option.some.injEq] at hmoved
      subst hmoved
      cases hnext
      exact Or.inl rfl
  case approving =>
    intro c hc hpc
    rcases List.mem_or_eq_of_mem_set hc with hold | rfl
    · exact List.mem_append_left _ (hs.approving c hold hpc)
    · rcases advance_approving hmoved hpc with hpc | hd
      · exact List.mem_append_left _ (hs.approving call hmem hpc)
      · exact List.mem_append_right _ hd
  case executed =>
    intro hne
    by_cases hex : s.executions = []
    · refine List.mem_append_left _ (hs.approving call hmem (advance_executes hmoved ?_))
      simpa [hex] using hne
    · exact List.mem_append_left _ (hs.executed hex)

theorem crashPc_idle {pc pc' : Pc} (h : crashPc pc = some pc') :
    pc' ≠ .reread ∧ pc'.approving = false := by
  cases pc <;> cases h <;> exact ⟨nofun, rfl⟩

theorem disciplined_step {s t : System} {a : Action} (hs : Disciplined s)
    (hC : UpdateInTime s a) (h : step s a = some t) : Disciplined t := by
  rcases step_cases h with ⟨_, _, _, rfl, rfl | ⟨decision, rfl⟩⟩
    | ⟨i, env, call, moved, rfl, hcall, hmoved, rfl⟩ | ⟨i, call, pc, rfl, hcall, hpc, rfl⟩
  · exact hs
  · refine hs.calls (fun c hc hpc => ?_) (fun c hc hpc => ?_) <;>
      rcases List.mem_append.mp hc with hc | hc
    · exact hc
    · obtain rfl := List.mem_singleton.mp hc
      cases hpc
    · exact ⟨c, hc, hpc⟩
    · obtain rfl := List.mem_singleton.mp hc
      cases hpc
  · exact (hs.advance hcall hmoved hC).1
  · obtain ⟨hreread, happroving⟩ := crashPc_idle hpc
    refine hs.calls (fun c hc hpc' => ?_) (fun c hc hpc' => ?_) <;>
      rcases List.mem_or_eq_of_mem_set hc with hc | rfl
    · exact hc
    · exact absurd hpc' hreread
    · exact ⟨c, hc, hpc'⟩
    · simp [happroving] at hpc'

theorem legal_step {s t : System} {a : Action} (hs : Disciplined s)
    (hC : UpdateInTime s a) (h : step s a = some t) :
    ∀ old ∈ s.status, ∀ new ∈ t.status, LegalMove old new := by
  have hsame : ∀ old ∈ s.status, ∀ new ∈ s.status, LegalMove old new := by
    intro old hold new hnew
    cases hold.symm.trans hnew
    exact Or.inl rfl
  rcases step_cases h with ⟨_, _, _, rfl, rfl | ⟨decision, rfl⟩⟩
    | ⟨i, env, call, moved, rfl, hcall, hmoved, rfl⟩ | ⟨i, call, pc, rfl, hcall, hpc, rfl⟩
  · exact hsame
  · exact hsame
  · obtain ⟨-, record, next, hrow, hnext, hlegal⟩ := hs.advance hcall hmoved hC
    simp only [System.status, hrow, hnext, Option.map_some, Option.mem_def,
      Option.some.injEq]
    rintro _ rfl _ rfl
    exact hlegal
  · exact hsame

/-! ## Exactly the runs in time -/

/-- The announced write is what the statement does, and it is never `executed`. -/
theorem statusWrite_advance {call : Call} {new : ApprovalStatus}
    (hnew : statusWrite call = some new) (env : Env) (record : ApprovalRecord) :
    (∃ moved next, advanceCall env (some record) call = some moved
        ∧ moved.row = some next ∧ next.status = new)
      ∧ new ≠ .executed := by
  cases hpc : call.pc with
  | setExpired =>
      simp only [statusWrite, hpc, Option.some.injEq] at hnew
      subst hnew
      refine ⟨⟨{ row := some (record.setStatus .expired), pc := .raised (.approval .expired) },
        record.setStatus .expired, ?_, rfl, rfl⟩, by decide⟩
      simp only [advanceCall, hpc, Option.map_some]
  | update =>
      simp only [statusWrite, hpc, Option.some.injEq] at hnew
      subst hnew
      refine ⟨⟨{ row := some (record.decided call.decision env.now), pc := .reread },
        record.decided call.decision env.now, ?_, rfl, rfl⟩, ?_⟩
      · simp only [advanceCall, hpc, Option.map_some]
      · cases call.decision.decision <;> decide
  | _ => simp [statusWrite, hpc] at hnew

/-- A late `UPDATE` is an illegal move. -/
theorem updateInTime_of_legal {s : System} {a : Action}
    (h : ∀ t, step s a = some t → ∀ old ∈ s.status, ∀ new ∈ t.status, LegalMove old new) :
    UpdateInTime s a := by
  cases a with
  | begin => trivial
  | crash => trivial
  | advance i env =>
      intro call hcall new hnew old hold
      obtain ⟨record, hrow, rfl⟩ := Option.map_eq_some_iff.mp hold
      obtain ⟨⟨moved, next, hmoved, hnext, rfl⟩, hexecuted⟩ :=
        statusWrite_advance hnew env record
      have hstep : step s (.advance i env) = some
          { row := moved.row
            calls := s.calls.set i { call with pc := moved.pc }
            executions := s.executions ++ moved.invoked
            reported := s.reported ++ moved.reported } :=
        Option.bind_eq_some_iff.mpr ⟨call, hcall, by rw [hrow, hmoved]; rfl⟩
      have hlegal := h _ hstep record.status hold next.status
        (by simp [System.status, hnext])
      rcases hlegal with hsame | ⟨hpending, -⟩ | ⟨-, hnew⟩
      · exact Or.inr hsame
      · exact Or.inl hpending
      · exact absurd hnew hexecuted

/-- The status discipline of a run is exactly that every `UPDATE` of it comes in time. One that
does leaves the row disciplined, whatever the other calls have read before; one that comes late
breaks the discipline there and then. -/
theorem statusDiscipline_iff_updateInTime (base : ApprovalRecord) (now ttlSeconds : Nat)
    (as : List Action) :
    StatusDiscipline (requested base now ttlSeconds) as
      ↔ Meets step UpdateInTime (requested base now ttlSeconds) as := by
  constructor
  · intro h
    refine meets_iff.mpr fun pre a post u has hu => updateInTime_of_legal fun t ht => ?_
    exact h.moves pre a post u t has hu ht
  · intro hC
    have hinit : Disciplined (requested base now ttlSeconds) := by
      constructor <;> simp [requested]
    have hreach : ∀ pre post u, as = pre ++ post →
        run step (requested base now ttlSeconds) pre = some u → Disciplined u := by
      rintro pre post u rfl hu
      exact run_invariant (fun _ _ _ hs hC h => disciplined_step hs hC h) hinit
        (meets_append hC).1 hu
    constructor
    case moves =>
      rintro pre a post u t rfl hu ht
      exact legal_step (hreach pre (a :: post) u rfl hu) (meets_at hC hu) ht
    case unanimous =>
      rintro pre post u has hu ⟨happroved, hrejected⟩
      have hs := hreach pre post u has hu
      obtain ⟨record, hrow⟩ := hs.found
      exact (hs.reported record hrow _ happroved).exclusive
        (hs.reported record hrow _ hrejected)
    case rejection =>
      intro pre post u has hu hex hrejected
      have hs := hreach pre post u has hu
      obtain ⟨record, hrow⟩ := hs.found
      exact (hs.reported record hrow _ (hs.executed hex)).exclusive
        (hs.reported record hrow _ hrejected)

/-- An approval and a rejection that both read the pending row. -/
def racingDecisions : List Action :=
  .begin "approved" "u_reviewer" none :: .begin "rejected" "u_other" none
    :: advances 0 1 ++ advances 1 1 ++ advances 0 2 ++ advances 1 3 ++ advances 0 3

/-- Both callers are told their decision was accepted, the status goes from
approved to rejected, and the tool is executed all the same. -/
theorem racingDecisions_break_discipline :
    ¬ StatusDiscipline (requested payRecord 0 1800) racingDecisions := by
  have hrun : (run step (requested payRecord 0 1800) racingDecisions).map
      (fun s => (s.executions, s.reported))
        = some ([⟨"pay", []⟩], [.approved, .rejected]) := by decide
  obtain ⟨s, hs, hout⟩ := Option.map_eq_some_iff.mp hrun
  obtain ⟨hex, hreported⟩ := Prod.mk.inj hout
  exact fun h => h.rejection racingDecisions [] s (List.append_nil _).symm hs
    (by simp [hex]) (by simp [hreported])

end Aegora
