import Aegora.AdminWrites
import Aegora.EndpointWrites
import Aegora.Runs

/-!
# Login sessions over a run of requests

`POST /auth/login` draws a token and stores its hash, `POST /auth/logout`
revokes the session of the token it is sent with, and no other endpoint
touches `user_sessions` (`sameBut_serve`). So the table is a record of the
requests served: one row for each login that succeeded, revoked if a later
logout carried its token (`sessions_run`). A caller is identified exactly by
a token that such a login drew and no logout has carried since, as long as
the user is active (`caller_identified_iff`). Disabling a user closes no
session: it hides them until the user is active again.
-/

namespace Aegora

open Py Handlers

variable {env : ControlPlaneEnv} {db start : ControlPlaneTables}
  {requests : List ControlPlaneRequest}

/-! ## What a request does to the sessions -/

namespace ControlPlaneRequest

/-- The token that a login draws. -/
def drawnToken? (request : ControlPlaneRequest) : Option String :=
  match request.endpoint with
  | .login _ token => some token
  | _ => none

/-- The token that a logout is sent with. -/
def loggedOut? (request : ControlPlaneRequest) : Option String :=
  match request.endpoint with
  | .logout => extractBearerToken request.caller.authorization
  | _ => none

/-- The user and the token of a login that succeeds in this state. -/
def loggedIn? (env : ControlPlaneEnv) (db : ControlPlaneTables) (request : ControlPlaneRequest) :
    Option (String × String) :=
  match request.endpoint with
  | .login userId token =>
      if env.authMode = .local ∧ db.userIsActive userId then some (userId, token) else none
  | _ => none

/-- The row of such a login. -/
def opened (env : ControlPlaneEnv) (db : ControlPlaneTables) (request : ControlPlaneRequest) :
    List SessionRow :=
  (request.loggedIn? env db).toList.map fun login =>
    { tokenHash := env.hashSessionToken login.2, userId := login.1 }

/-- A logout revokes the session with this hash. -/
def closes (env : ControlPlaneEnv) (tokenHash : String) (request : ControlPlaneRequest) : Bool :=
  env.authMode = .local
    && request.loggedOut?.any fun token => env.hashSessionToken token = tokenHash

end ControlPlaneRequest

/-- The row after requests that may have revoked it. -/
def SessionRow.closedBy (env : ControlPlaneEnv) (requests : List ControlPlaneRequest)
    (row : SessionRow) : SessionRow :=
  { row with revoked := row.revoked || requests.any (ControlPlaneRequest.closes env row.tokenHash) }

theorem SessionRow.closedBy_nil (row : SessionRow) : row.closedBy env [] = row := by
  unfold closedBy
  rw [List.any_nil, Bool.or_false]

theorem SessionRow.closedBy_cons (row : SessionRow) (request : ControlPlaneRequest) :
    row.closedBy env (request :: requests)
      = (row.closedBy env [request]).closedBy env requests := by
  unfold closedBy
  simp only [List.any_cons, List.any_nil, Bool.or_false, Bool.or_assoc]

theorem sessions_login (caller : Caller) (userId token : String) :
    (after (login env userId token) db).sessions
      = db.sessions ++ (⟨caller, .login userId token⟩ : ControlPlaneRequest).opened env db := by
  have hactive : db.ensured.userIsActive userId = db.userIsActive userId := rfl
  unfold login ControlPlaneRequest.opened ControlPlaneRequest.loggedIn?
  rw [after_ensureSchema_bind]
  by_cases hmode : env.authMode = .local
  · rw [demand_of hmode, after_bind_ok (outcome_pure () _), after_pure,
      after_bind_ok (outcome_get _), after_get]
    by_cases huser : db.userIsActive userId = true
    · rw [demand_of (hactive.trans huser), after_bind_ok (outcome_pure () _), after_pure]
      dsimp only
      rw [if_pos ⟨hmode, huser⟩]
      rfl
    · rw [after_bind_of_stops (stops_demand (hactive ▸ huser) _), after_demand]
      dsimp only
      rw [if_neg fun h => huser h.2]
      exact (List.append_nil _).symm
  · rw [after_bind_of_stops (stops_demand hmode _), after_demand]
    dsimp only
    rw [if_neg fun h => hmode h.1]
    exact (List.append_nil _).symm

/-- Requests that revoke nothing. -/
theorem map_closedBy_of_open {request : ControlPlaneRequest}
    (h : ∀ tokenHash, request.closes env tokenHash = false) (rows : List SessionRow) :
    rows.map (SessionRow.closedBy env [request]) = rows := by
  refine List.map_id'' (fun row => ?_) _
  unfold SessionRow.closedBy
  rw [List.any_cons, h, List.any_nil, Bool.or_false, Bool.or_false]

theorem sessions_logout (caller : Caller) :
    (after (logout env caller) db).sessions
      = db.sessions.map (SessionRow.closedBy env [⟨caller, .logout⟩]) := by
  unfold logout
  rw [after_ensureSchema_bind]
  cases htoken : extractBearerToken caller.authorization with
  | none =>
      refine (map_closedBy_of_open (fun tokenHash => ?_) _).symm
      simp only [ControlPlaneRequest.closes, ControlPlaneRequest.loggedOut?, htoken,
        Option.any_none, Bool.and_false]
  | some token =>
      dsimp only
      split
      · rename_i hmode
        refine List.map_congr_left fun row _ => ?_
        simp only [SessionRow.closedBy, ControlPlaneRequest.closes, ControlPlaneRequest.loggedOut?,
          htoken, hmode, List.any_cons, List.any_nil, Option.any_some, Bool.or_false, decide_true,
          Bool.true_and]
        by_cases hrow : row.tokenHash = env.hashSessionToken token
        · simp [hrow]
        · simp [hrow, Ne.symm hrow]
      · rename_i hmode
        refine (map_closedBy_of_open (fun tokenHash => ?_) _).symm
        simp only [ControlPlaneRequest.closes, hmode, decide_false, Bool.false_and]

/-- One request: it may revoke rows, and then adds at most one. -/
theorem sessions_step {request : ControlPlaneRequest} :
    (after (serve env request.caller request.endpoint) db).sessions
      = db.sessions.map (SessionRow.closedBy env [request]) ++ request.opened env db := by
  obtain ⟨caller, endpoint⟩ := request
  by_cases hwrites : Table.sessions ∈ endpoint.writes
  · cases endpoint with
    | login userId token =>
        have hopen := @map_closedBy_of_open env ⟨caller, .login userId token⟩
          fun _ => Bool.and_false _
        rw [hopen]
        exact sessions_login caller userId token
    | logout =>
        refine (sessions_logout caller).trans ?_
        exact (List.append_nil _).symm
    | _ => simp at hwrites
  · rw [(sameBut_serve env caller endpoint db trivial).sessions hwrites, map_closedBy_of_open]
    · cases endpoint <;> first | exact (List.append_nil _).symm | simp at hwrites
    · intro tokenHash
      cases endpoint <;> first | exact Bool.and_false _ | simp at hwrites

/-! ## A run -/

/-- The rows that the requests leave: one for each login that succeeded, revoked by a later
logout with its token. -/
def sessionLedger (env : ControlPlaneEnv) : ControlPlaneTables → List ControlPlaneRequest →
    List SessionRow
  | _, [] => []
  | db, request :: requests =>
      (request.opened env db).map (SessionRow.closedBy env requests)
        ++ sessionLedger env (after (serve env request.caller request.endpoint) db) requests

theorem sessions_run (h : Runs.run (controlPlaneStep env) start requests = some db) :
    db.sessions
      = start.sessions.map (SessionRow.closedBy env requests)
        ++ sessionLedger env start requests := by
  induction requests generalizing start with
  | nil =>
      cases h
      rw [sessionLedger, List.append_nil, List.map_id'' SessionRow.closedBy_nil]
  | cons request requests ih =>
      obtain ⟨mid, hmid, hrest⟩ := Runs.run_cons_eq.mp h
      cases hmid
      rw [ih hrest, sessions_step, List.map_append, List.map_map, sessionLedger, List.append_assoc]
      congr 1
      exact List.map_congr_left fun row _ => (row.closedBy_cons request).symm

/-! ## Who a caller is -/

/-- A login among the requests drew this token for the user, and no later logout carried it. -/
def HoldsSession (env : ControlPlaneEnv) (start : ControlPlaneTables)
    (requests : List ControlPlaneRequest) (token userId : String) : Prop :=
  ∃ pre request post mid, requests = pre ++ request :: post
    ∧ Runs.run (controlPlaneStep env) start pre = some mid
    ∧ request.loggedIn? env mid = some (userId, token)
    ∧ ∀ later ∈ post, later.loggedOut? ≠ some token

theorem loggedIn?_eq_some {request : ControlPlaneRequest} {userId token : String} :
    request.loggedIn? env db = some (userId, token)
      ↔ request.endpoint = .login userId token ∧ env.authMode = .local
        ∧ db.userIsActive userId = true := by
  unfold ControlPlaneRequest.loggedIn?
  split
  · rename_i userId' token' hendpoint
    rw [hendpoint]
    split
    · rename_i hlogin
      constructor
      · intro h
        cases h
        exact ⟨rfl, hlogin⟩
      · rintro ⟨heq, -⟩
        cases heq
        rfl
    · rename_i hlogin
      constructor
      · intro h
        cases h
      · rintro ⟨heq, hin⟩
        cases heq
        exact absurd hin hlogin
  · rename_i hendpoint
    constructor
    · intro h
      cases h
    · rintro ⟨heq, -⟩
      exact absurd heq (hendpoint userId token)

theorem mem_opened {request : ControlPlaneRequest} {row : SessionRow} :
    row ∈ request.opened env db
      ↔ ∃ userId token, request.loggedIn? env db = some (userId, token)
        ∧ row = { tokenHash := env.hashSessionToken token, userId := userId } := by
  unfold ControlPlaneRequest.opened
  simp only [List.mem_map, Option.mem_toList, Prod.exists, eq_comm]

/-- The rows of the record are those of the logins that succeeded. -/
theorem mem_sessionLedger {row : SessionRow} :
    row ∈ sessionLedger env start requests
      ↔ ∃ pre request post mid, requests = pre ++ request :: post
        ∧ Runs.run (controlPlaneStep env) start pre = some mid
        ∧ ∃ opened ∈ request.opened env mid, row = opened.closedBy env post := by
  induction requests generalizing start with
  | nil => simp [sessionLedger]
  | cons first rest ih =>
      rw [sessionLedger, List.mem_append, List.mem_map, ih]
      constructor
      · rintro (⟨opened, hopened, rfl⟩ | ⟨pre, request, post, mid, rfl, hmid, hrow⟩)
        · exact ⟨[], first, rest, start, rfl, rfl, opened, hopened, rfl⟩
        · exact ⟨first :: pre, request, post, mid, rfl,
            Runs.run_cons_eq.mpr ⟨_, rfl, hmid⟩, hrow⟩
      · rintro ⟨pre, request, post, mid, hsplit, hmid, opened, hopened, rfl⟩
        cases pre with
        | nil =>
            cases hsplit
            cases hmid
            exact .inl ⟨opened, hopened, rfl⟩
        | cons head pre =>
            obtain ⟨rfl, hrest⟩ := List.cons_eq_cons.mp hsplit
            obtain ⟨next, hnext, hmid⟩ := Runs.run_cons_eq.mp hmid
            cases hnext
            exact .inr ⟨pre, request, post, mid, hrest, hmid, opened, hopened, rfl⟩

theorem opened_sublist (request : ControlPlaneRequest) :
    ((request.opened env db).map SessionRow.tokenHash).Sublist
      (request.drawnToken?.toList.map env.hashSessionToken) := by
  unfold ControlPlaneRequest.opened
  cases hin : request.loggedIn? env db with
  | none => exact List.nil_sublist _
  | some login =>
      obtain ⟨userId, token⟩ := login
      obtain ⟨hendpoint, -⟩ := loggedIn?_eq_some.mp hin
      unfold ControlPlaneRequest.drawnToken?
      rw [hendpoint]
      exact List.Sublist.refl _

theorem sessionLedger_sublist :
    ((sessionLedger env start requests).map SessionRow.tokenHash).Sublist
      ((requests.filterMap ControlPlaneRequest.drawnToken?).map env.hashSessionToken) := by
  induction requests generalizing start with
  | nil => exact List.nil_sublist _
  | cons request requests ih =>
      have hhead : ((request.opened env start).map (SessionRow.closedBy env requests)).map
          SessionRow.tokenHash = (request.opened env start).map SessionRow.tokenHash := by
        rw [List.map_map]
        rfl
      have hdrawn : (request :: requests).filterMap ControlPlaneRequest.drawnToken?
          = request.drawnToken?.toList ++ requests.filterMap ControlPlaneRequest.drawnToken? := by
        rw [List.filterMap_cons]
        cases request.drawnToken? <;> rfl
      rw [sessionLedger, List.map_append, hhead, hdrawn, List.map_append]
      exact (opened_sublist request).append ih

/-- The entry that a search finds when no other could be found. -/
theorem find?_eq_some_of_unique {α : Type} {p : α → Bool} {rows : List α} {row : α}
    (hrow : row ∈ rows) (hp : p row = true) (hunique : ∀ other ∈ rows, p other = true →
      other = row) : rows.find? p = some row := by
  cases hfound : rows.find? p with
  | none =>
      rw [List.find?_eq_none] at hfound
      exact absurd hp (hfound row hrow)
  | some other =>
      rw [hunique other (List.mem_of_find?_eq_some hfound) (List.find?_some hfound)]

/-- What the token of a request stands for, when every login has drawn a token of its own. -/
theorem sessionUser?_iff (hhash : Function.Injective env.hashSessionToken)
    (hstart : start.sessions = [])
    (hdrawn : (requests.filterMap ControlPlaneRequest.drawnToken?).Nodup)
    (hrun : Runs.run (controlPlaneStep env) start requests = some db) {token userId : String} :
    db.sessionUser? env token = some userId
      ↔ db.userIsActive userId = true ∧ HoldsSession env start requests token userId := by
  have hledger : db.sessions = sessionLedger env start requests := by
    rw [sessions_run hrun, hstart]
    rfl
  have hkeys : (db.sessions.map SessionRow.tokenHash).Nodup := by
    rw [hledger]
    exact sessionLedger_sublist.nodup (hdrawn.map hhash)
  unfold ControlPlaneTables.sessionUser?
  rw [Option.map_eq_some_iff]
  constructor
  · rintro ⟨row, hfound, rfl⟩
    have hlive := List.find?_some hfound
    simp only [Bool.and_eq_true, decide_eq_true_eq, Bool.not_eq_true'] at hlive
    obtain ⟨⟨hrow, hopen⟩, hactive⟩ := hlive
    refine ⟨hactive, ?_⟩
    have hmem := List.mem_of_find?_eq_some hfound
    rw [hledger, mem_sessionLedger] at hmem
    obtain ⟨pre, request, post, mid, hsplit, hmid, opened, hopened, rfl⟩ := hmem
    obtain ⟨owner, drawn, hin, rfl⟩ := mem_opened.mp hopened
    obtain rfl : drawn = token := hhash hrow
    refine ⟨pre, request, post, mid, hsplit, hmid, hin, fun later hlater hout => ?_⟩
    have hclosed : (post.any (ControlPlaneRequest.closes env (env.hashSessionToken drawn)))
        = true := by
      refine List.any_eq_true.mpr ⟨later, hlater, ?_⟩
      unfold ControlPlaneRequest.closes
      rw [hout, (loggedIn?_eq_some.mp hin).2.1]
      simp
    unfold SessionRow.closedBy at hopen
    dsimp only at hopen
    rw [hclosed] at hopen
    cases hopen
  · rintro ⟨hactive, pre, request, post, mid, hsplit, hmid, hin, hstays⟩
    have hopen : post.any (ControlPlaneRequest.closes env (env.hashSessionToken token))
        = false := by
      rw [List.any_eq_false]
      intro later hlater hcloses
      unfold ControlPlaneRequest.closes at hcloses
      obtain ⟨-, hout⟩ := Bool.and_eq_true_iff.mp hcloses
      cases hcarried : later.loggedOut? with
      | none =>
          rw [hcarried] at hout
          cases hout
      | some carried =>
          rw [hcarried] at hout
          exact hstays later hlater (hhash (of_decide_eq_true hout) ▸ hcarried)
    refine ⟨{ tokenHash := env.hashSessionToken token, userId := userId }, ?_, rfl⟩
    have hmem : ({ tokenHash := env.hashSessionToken token, userId := userId } : SessionRow)
        ∈ db.sessions := by
      rw [hledger, mem_sessionLedger]
      refine ⟨pre, request, post, mid, hsplit, hmid, _,
        mem_opened.mpr ⟨userId, token, hin, rfl⟩, ?_⟩
      unfold SessionRow.closedBy
      dsimp only
      rw [hopen, Bool.or_false]
    refine find?_eq_some_of_unique hmem ?_ fun other hother hlive => ?_
    · simp only [hactive, decide_true, Bool.not_false, Bool.and_self]
    · simp only [Bool.and_eq_true, decide_eq_true_eq] at hlive
      exact List.inj_on_of_nodup_map hkeys hother hmem hlive.1.1

/-- A request is that of a user exactly when its token was drawn by a login of his, no logout
has carried it since, and he is active now. The sessions are a record of the logins and logouts
served, because no other endpoint touches them. -/
theorem caller_identified_iff (hlocal : env.authMode = .local)
    (hhash : Function.Injective env.hashSessionToken) (hstart : start.sessions = [])
    (hdrawn : (requests.filterMap ControlPlaneRequest.drawnToken?).Nodup)
    (hrun : Runs.run (controlPlaneStep env) start requests = some db) (caller : Caller)
    (userId : String) :
    outcome (currentUserId env caller) db = .ok userId
      ↔ db.userIsActive userId = true
        ∧ ∃ token, extractBearerToken caller.authorization = some token
          ∧ HoldsSession env start requests token userId := by
  unfold currentUserId
  cases htoken : extractBearerToken caller.authorization with
  | none => simp
  | some token =>
      dsimp only
      rw [hlocal]
      dsimp only
      rw [outcome_bind_ok (outcome_get db), after_get]
      have huser := @sessionUser?_iff env db start requests hhash hstart hdrawn hrun token userId
      cases hfound : db.sessionUser? env token with
      | none =>
          rw [hfound] at huser
          simpa using huser
      | some found =>
          rw [hfound] at huser
          simpa using huser

section Example

/-- A user who may log in. -/
def guestTables : ControlPlaneTables where
  users := [⟨"u_guest", "active"⟩]

/-- He logs in and is disabled, and anyone makes him active again. -/
def guestVisits : List ControlPlaneRequest :=
  [{ endpoint := .login "u_guest" "guest" }, { endpoint := .setUser "u_guest" "disabled" },
    { endpoint := .setUser "u_guest" "active" }]

/-- His session is there again. -/
theorem caller_identified_guest :
    ∃ db, Runs.run (controlPlaneStep exampleControlPlaneEnv) guestTables guestVisits = some db
      ∧ outcome (currentUserId exampleControlPlaneEnv { authorization := some "Bearer guest" }) db
        = .ok "u_guest" := by
  refine ⟨_, rfl, ?_⟩
  have hdrawn : (guestVisits.filterMap ControlPlaneRequest.drawnToken?).Nodup := by decide
  refine (caller_identified_iff rfl (fun _ _ h => h) rfl hdrawn rfl _ _).mpr ⟨by decide, ?_⟩
  exact ⟨"guest", by decide, [], _, _, guestTables, rfl, rfl, by decide, by decide⟩

end Example

end Aegora
