import Aegora.AdminWrites
import Aegora.EndpointWrites
import Aegora.JsonText
import Aegora.Runs

/-!
# What a connection's version says

`upsert_mcp_connection` counts a version up when the hash of transport and
configuration changes, and the Runtime keys its MCP sessions by connection,
hash and version. Over any run of requests a version never goes down, and two
states of one connection have the same version exactly when no request between
them has changed what is hashed (`connection_versions_iff`): a configuration
that is changed and put back has a new version.
-/

namespace Aegora

open Py Handlers

/-! ## The hash -/

/-- `compute_mcp_connection_hash`. -/
def mcpConnectionHash (sha256 : String → String) (transport : String) (config : Json) : String :=
  "sha256:" ++ sha256
    ((Json.obj [("transport", .str transport), ("config", config)]).dumps "," ":")

/-- The transports that an `MCPConnectionRequest` may name. -/
def mcpTransports : List String := ["streamable_http", "stdio"]

/-- Rows with the same transport, and the same configuration up to the order of keys. -/
def ConnectionRow.SameConfig (a b : ConnectionRow) : Prop :=
  a.transport = b.transport ∧ a.configJson.dumps "," ":" = b.configJson.dumps "," ":"

theorem mcpConnectionText_eq (transport : String) (config : Json) :
    (Json.obj [("transport", .str transport), ("config", config)]).dumps "," ":"
      = "\x7b\"config\":" ++ config.dumps "," ":"
        ++ (",\"transport\":" ++ jsonString transport ++ "\x7d") := by
  have hsort : (Json.dumpsEntries "," ":"
        [("transport", .str transport), ("config", config)]).insertionSort (fun a b => a.1 ≤ b.1)
      = [("config", config.dumps "," ":"), ("transport", jsonString transport)] := by
    simp [Json.dumpsEntries, Json.dumps, List.insertionSort, List.orderedInsert]
  have hconfig : jsonString "config" = "\"config\"" := by decide
  have htransport : jsonString "transport" = "\"transport\"" := by decide
  rw [Json.dumps, hsort, List.map_cons, List.map_singleton, hconfig, htransport]
  apply String.toList_inj.mp
  simp [String.intercalate_cons_cons]

/-- The two transports end the text differently. -/
theorem stdio_end_ne (x y : String) :
    x ++ (",\"transport\":" ++ jsonString "stdio" ++ "\x7d")
      ≠ y ++ (",\"transport\":" ++ jsonString "streamable_http" ++ "\x7d") := by
  intro h
  have hstdio : jsonString "stdio" = "\"stdio\"" := by decide
  have hhttp : jsonString "streamable_http" = "\"streamable_http\"" := by decide
  rw [hstdio, hhttp] at h
  have hlast := congrArg (fun text : String => (text.toList.reverse.drop 2).head?) h
  simp only [String.toList_append, List.reverse_append, List.append_assoc] at hlast
  have hends : some 'o' = some 'p' := hlast
  exact absurd hends (by decide)

theorem mcpConnectionHash_eq_iff {sha256 : String → String} (hsha : Function.Injective sha256)
    {transport transport' : String} {config config' : Json} (h : transport ∈ mcpTransports)
    (h' : transport' ∈ mcpTransports) :
    mcpConnectionHash sha256 transport config = mcpConnectionHash sha256 transport' config'
      ↔ transport = transport' ∧ config.dumps "," ":" = config'.dumps "," ":" := by
  unfold mcpConnectionHash
  rw [String.append_right_inj, hsha.eq_iff, mcpConnectionText_eq, mcpConnectionText_eq]
  constructor
  · intro htext
    have hsame : transport = transport' := by
      simp only [mcpTransports, List.mem_cons, List.not_mem_nil, or_false] at h h'
      rcases h with rfl | rfl <;> rcases h' with rfl | rfl
      · rfl
      · exact absurd htext.symm (stdio_end_ne _ _)
      · exact absurd htext (stdio_end_ne _ _)
      · rfl
    subst hsame
    rw [String.append_left_inj, String.append_right_inj] at htext
    exact ⟨rfl, htext⟩
  · rintro ⟨rfl, hconfig⟩
    rw [hconfig]

/-! ## What a request does to a connection -/

variable {env : ControlPlaneEnv} {sha256 : String → String} {db start u v : ControlPlaneTables}

/-- The row that `upsert_mcp_connection` leaves for its connection. -/
def upsertedConnection (env : ControlPlaneEnv) (db : ControlPlaneTables) (connectionId : String)
    (request : McpConnectionRequest) : ConnectionRow where
  id := connectionId
  name := request.name
  status := request.status
  transport := request.transport
  configJson := request.runtimeConfig
  configVersion :=
    match db.connection? connectionId with
    | none => 1
    | some old =>
        if old.configHash
            = env.computeMcpConnectionHash request.transport request.runtimeConfig then
          old.configVersion
        else old.configVersion + 1
  configHash := env.computeMcpConnectionHash request.transport request.runtimeConfig

theorem connections_upsertMcpConnection (connectionId : String) (request : McpConnectionRequest) :
    (after (upsertMcpConnection env connectionId request.name request.status request.transport
      request.runtimeConfig) db).connections
      = Transactions.put ConnectionRow.id db.connections
        (upsertedConnection env db connectionId request) := rfl

/-- What an administrator's endpoint does: it stops, or goes on as an administrator, with only
`tools` and `users` written so far. -/
theorem after_asPlatformAdmin (caller : Caller) (body : String → ControlPlaneHandler Unit) :
    ∃ mid, SameBut [.tools, .users] db mid
      ∧ (after (asPlatformAdmin env caller body) db = mid
        ∨ ∃ actorId, after (asPlatformAdmin env caller body) db = after (body actorId) mid) := by
  have hcheck : WritesOnly [.tools, .users]
      (ensureSchema >>= fun _ => requireCurrentPlatformAdmin env caller) := by
    refine writesOnly_bind (writesOnly_ensureSchema (by simp)) fun _ => ?_
    refine writesOnly_bind (writesOnly_currentUserId (by simp)) fun actorId => ?_
    exact writesOnly_bind (writesOnly_read fun _ => writesOnly_demand _ _) fun _ =>
      writesOnly_pure _
  refine ⟨after (ensureSchema >>= fun _ => requireCurrentPlatformAdmin env caller) db,
    hcheck db trivial, ?_⟩
  have hsplit : asPlatformAdmin env caller body
      = ((ensureSchema >>= fun _ => requireCurrentPlatformAdmin env caller) >>= body) := by
    unfold asPlatformAdmin
    rw [bind_assoc]
  rw [hsplit]
  cases hout : outcome (ensureSchema >>= fun _ => requireCurrentPlatformAdmin env caller) db with
  | error failure => exact .inl (after_bind_of_stops ⟨failure, hout⟩ body)
  | ok actorId => exact .inr ⟨actorId, after_bind_ok hout⟩

theorem connections_setMcpConnection (caller : Caller) (connectionId : String)
    (body : McpConnectionRequest) :
    (after (setMcpConnection env caller connectionId body) db).connections = db.connections
      ∨ (after (setMcpConnection env caller connectionId body) db).connections
        = Transactions.put ConnectionRow.id db.connections
          (upsertedConnection env db connectionId body) := by
  unfold setMcpConnection
  by_cases hid : validIdentifier connectionId = true
  · rw [demand_of hid, after_bind_ok (outcome_pure () _), after_pure]
    obtain ⟨mid, hmid, hend⟩ := @after_asPlatformAdmin env db caller fun _ =>
      upsertMcpConnection env connectionId body.name body.status body.transport body.runtimeConfig
    have hrows : mid.connections = db.connections := hmid.connections (by simp)
    rcases hend with hstop | ⟨actorId, hgo⟩
    · rw [hstop]
      exact .inl hrows
    · refine .inr ?_
      rw [hgo, connections_upsertMcpConnection, hrows]
      unfold upsertedConnection ControlPlaneTables.connection?
      rw [hrows]
  · rw [after_bind_of_stops (stops_demand hid _), after_demand]
    exact .inl rfl

/-- The connections after a request: as before, or with the row of a `PUT`. -/
theorem connections_step (request : ControlPlaneRequest) :
    (after (serve env request.caller request.endpoint) db).connections = db.connections
      ∨ ∃ connectionId body, request.endpoint = .setMcpConnection connectionId body
        ∧ (after (serve env request.caller request.endpoint) db).connections
          = Transactions.put ConnectionRow.id db.connections
            (upsertedConnection env db connectionId body) := by
  obtain ⟨caller, endpoint⟩ := request
  by_cases hwrites : Table.connections ∈ endpoint.writes
  · cases endpoint with
    | setMcpConnection connectionId body =>
        rcases @connections_setMcpConnection env db caller connectionId body with hsame | hput
        · exact .inl hsame
        · exact .inr ⟨connectionId, body, rfl, hput⟩
    | _ => simp at hwrites
  · exact .inl ((sameBut_serve env caller endpoint db trivial).connections hwrites)

/-- Every row carries the hash of what it says. -/
def ControlPlaneTables.Hashed (sha256 : String → String) (db : ControlPlaneTables) : Prop :=
  ∀ row ∈ db.connections, row.transport ∈ mcpTransports
    ∧ row.configHash = mcpConnectionHash sha256 row.transport row.configJson

/-- The transport that a request stores. -/
def Endpoint.transport? : Endpoint → Option String
  | .setMcpConnection _ body => some body.transport
  | _ => none

/-- The transport is one that the request's validation lets through. -/
def ControlPlaneRequest.NamesTransport (request : ControlPlaneRequest) : Prop :=
  ∀ transport ∈ request.endpoint.transport?, transport ∈ mcpTransports

instance (request : ControlPlaneRequest) : Decidable request.NamesTransport :=
  inferInstanceAs (Decidable (∀ transport ∈ request.endpoint.transport?, transport ∈ mcpTransports))

namespace ConnectionRow.SameConfig

variable {a b c : ConnectionRow}

theorem refl (a : ConnectionRow) : a.SameConfig a := ⟨rfl, rfl⟩

theorem symm (h : a.SameConfig b) : b.SameConfig a := ⟨h.1.symm, h.2.symm⟩

theorem trans (h : a.SameConfig b) (h' : b.SameConfig c) : a.SameConfig c :=
  ⟨h.1.trans h'.1, h.2.trans h'.2⟩

end ConnectionRow.SameConfig

section Step

variable (hsha : Function.Injective sha256)
  (hhash : ∀ transport config,
    env.computeMcpConnectionHash transport config = mcpConnectionHash sha256 transport config)
  {request : ControlPlaneRequest} (hrequest : request.NamesTransport)

include hhash hrequest

theorem hashed_step (hdb : db.Hashed sha256) :
    (after (serve env request.caller request.endpoint) db).Hashed sha256 := by
  rcases @connections_step env db request with hsame | ⟨connectionId, body, he, hput⟩
  · unfold ControlPlaneTables.Hashed
    rw [hsame]
    exact hdb
  · unfold ControlPlaneTables.Hashed
    rw [hput]
    intro row hrow
    rcases Transactions.mem_put.mp hrow with rfl | ⟨hold, -⟩
    · unfold ControlPlaneRequest.NamesTransport at hrequest
      rw [he] at hrequest
      exact ⟨hrequest _ rfl, hhash _ _⟩
    · exact hdb row hold

include hsha

/-- One request: the version stays exactly when the configuration does. -/
theorem connection_step (hdb : db.Hashed sha256) {connectionId : String} {old : ConnectionRow}
    (hold : db.connection? connectionId = some old) :
    ∃ new, (after (serve env request.caller request.endpoint) db).connection? connectionId
        = some new
      ∧ old.configVersion ≤ new.configVersion
      ∧ (new.configVersion = old.configVersion ↔ new.SameConfig old) := by
  have hrow := hdb old (Transactions.find_spec hold).1
  unfold ControlPlaneTables.connection?
  rcases @connections_step env db request with hsame | ⟨changed, body, he, hput⟩
  · rw [hsame]
    exact ⟨old, hold, le_rfl, fun _ => .refl old, fun _ => rfl⟩
  · rw [hput, Transactions.find_put]
    by_cases hchanged : connectionId = changed
    · subst hchanged
      rw [if_pos (by rfl)]
      refine ⟨_, rfl, ?_⟩
      have hversion : (upsertedConnection env db connectionId body).configVersion
          = if old.configHash = mcpConnectionHash sha256 body.transport body.runtimeConfig then
              old.configVersion
            else old.configVersion + 1 := by
        unfold upsertedConnection
        rw [hold, hhash]
      unfold ControlPlaneRequest.NamesTransport at hrequest
      rw [he] at hrequest
      have hsame : old.configHash = mcpConnectionHash sha256 body.transport body.runtimeConfig
          ↔ (upsertedConnection env db connectionId body).SameConfig old := by
        rw [hrow.2, mcpConnectionHash_eq_iff hsha hrow.1 (hrequest _ rfl)]
        exact ⟨fun h => ⟨h.1.symm, h.2.symm⟩, fun h => ⟨h.1.symm, h.2.symm⟩⟩
      rw [hversion, ← hsame]
      split
      · rename_i heq
        exact ⟨le_rfl, fun _ => heq, fun _ => rfl⟩
      · rename_i hne
        exact ⟨by omega, fun h => by omega, fun h => absurd h hne⟩
    · rw [if_neg (by exact hchanged)]
      exact ⟨old, hold, le_rfl, fun _ => .refl old, fun _ => rfl⟩

end Step

/-! ## A run -/

theorem hashed_run
    (hhash : ∀ transport config,
      env.computeMcpConnectionHash transport config = mcpConnectionHash sha256 transport config)
    {requests : List ControlPlaneRequest} (hrequests : ∀ request ∈ requests, request.NamesTransport)
    (hstart : start.Hashed sha256)
    (h : Runs.run (controlPlaneStep env) start requests = some db) : db.Hashed sha256 := by
  induction requests generalizing start with
  | nil =>
      cases h
      exact hstart
  | cons request requests ih =>
      obtain ⟨mid, hmid, hrest⟩ := Runs.run_cons_eq.mp h
      cases hmid
      rw [List.forall_mem_cons] at hrequests
      exact ih hrequests.2 (hashed_step hhash hrequests.1 hstart) hrest

/-- Between two states of a run, a connection is still there, its version has not gone down,
and it is the same exactly when no state in between had another configuration. Each upsert
counts up where the hash changes and nowhere else. -/
theorem connection_versions_iff (hsha : Function.Injective sha256)
    (hhash : ∀ transport config,
      env.computeMcpConnectionHash transport config = mcpConnectionHash sha256 transport config)
    (hstart : start.connections = []) {before after : List ControlPlaneRequest}
    (hrequests : ∀ request ∈ before ++ after, request.NamesTransport)
    (hbefore : Runs.run (controlPlaneStep env) start before = some u)
    (hafter : Runs.run (controlPlaneStep env) u after = some v)
    {connectionId : String} {old : ConnectionRow} (hold : u.connection? connectionId = some old) :
    ∃ new, v.connection? connectionId = some new
      ∧ old.configVersion ≤ new.configVersion
      ∧ (new.configVersion = old.configVersion
        ↔ ∀ part rest w, after = part ++ rest → Runs.run (controlPlaneStep env) u part = some w →
          ∃ row, w.connection? connectionId = some row ∧ row.SameConfig old) := by
  have hu : u.Hashed sha256 := by
    refine hashed_run hhash (fun request h => hrequests request (List.mem_append_left _ h))
      ?_ hbefore
    intro row hrow
    rw [hstart] at hrow
    cases hrow
  replace hrequests := fun request h => hrequests request (List.mem_append_right before h)
  clear hbefore
  induction after generalizing u old with
  | nil =>
      cases hafter
      refine ⟨old, hold, le_rfl, fun _ part rest w hparts hw => ?_, fun _ => rfl⟩
      obtain ⟨rfl, -⟩ := List.append_eq_nil_iff.mp hparts.symm
      cases hw
      exact ⟨old, hold, .refl old⟩
  | cons request after ih =>
      obtain ⟨mid, hmid, hrest⟩ := Runs.run_cons_eq.mp hafter
      cases hmid
      rw [List.forall_mem_cons] at hrequests
      obtain ⟨next, hnext, hup, hiff⟩ := connection_step hsha hhash hrequests.1 hu hold
      obtain ⟨new, hnew, hlater, hrun⟩ :=
        ih hrest hnext (hashed_step hhash hrequests.1 hu) hrequests.2
      refine ⟨new, hnew, hup.trans hlater, fun heq part rest w hparts hw => ?_, fun hall => ?_⟩
      · have hstill : next.SameConfig old := hiff.mp (by omega)
        cases part with
        | nil =>
            cases hw
            exact ⟨old, hold, .refl old⟩
        | cons first part =>
            obtain ⟨rfl, hparts'⟩ := List.cons_eq_cons.mp hparts
            obtain ⟨mid, hmid, hw⟩ := Runs.run_cons_eq.mp hw
            cases hmid
            obtain ⟨row, hrow, hsame⟩ := hrun.mp (by omega) part rest w hparts' hw
            exact ⟨row, hrow, hsame.trans hstill⟩
      · obtain ⟨row, hrow, hsame⟩ := hall [request] after _ rfl
          (Runs.run_cons_eq.mpr ⟨_, rfl, rfl⟩)
        obtain rfl : row = next := Option.some_inj.mp (hrow.symm.trans hnext)
        have hstep := hiff.mpr hsame
        have hend := hrun.mpr fun part rest w hparts hw => by
          obtain ⟨state, hstate, hstill⟩ := hall (request :: part) rest w
            (by rw [hparts, List.cons_append]) (Runs.run_cons_eq.mpr ⟨_, rfl, hw⟩)
          exact ⟨state, hstate, hstill.trans hsame.symm⟩
        omega

section Example

/-- `exampleControlPlaneEnv` with the hash of connections that the code has. -/
def connectionEnv : ControlPlaneEnv :=
  { exampleControlPlaneEnv with computeMcpConnectionHash := mcpConnectionHash id }

/-- An administrator who is logged in. -/
def consoleTables : ControlPlaneTables where
  users := [⟨"u_console", "active"⟩]
  userRoles := [("u_console", platformAdminRole)]
  sessions := [{ tokenHash := "console", userId := "u_console" }]

/-- The administrator puts the connection `orders`. -/
def putOrders (url : String) : ControlPlaneRequest where
  caller := { authorization := some "Bearer console" }
  endpoint := .setMcpConnection "orders"
    { name := "orders", transport := "streamable_http"
      runtimeConfig := .obj [("url", .str url)] }

/-- Changed and put back, the configuration has another version. -/
theorem connection_versions_orders :
    ∃ u v, Runs.run (controlPlaneStep connectionEnv) consoleTables [putOrders "http://a"] = some u
      ∧ Runs.run (controlPlaneStep connectionEnv) u [putOrders "http://b", putOrders "http://a"]
        = some v
      ∧ ∃ old new, u.connection? "orders" = some old ∧ v.connection? "orders" = some new
        ∧ new.SameConfig old ∧ new.configVersion ≠ old.configVersion := by
  obtain ⟨new, hnew, -, hiff⟩ := @connection_versions_iff connectionEnv id consoleTables _ _
    Function.injective_id (fun _ _ => rfl) rfl [putOrders "http://a"]
    [putOrders "http://b", putOrders "http://a"] (by decide) rfl rfl "orders" _ rfl
  refine ⟨_, _, rfl, rfl, _, new, rfl, hnew, ?_, fun heq => ?_⟩
  · cases hnew
    exact ⟨rfl, rfl⟩
  · obtain ⟨row, hrow, hsame⟩ := hiff.mp heq [putOrders "http://b"] [putOrders "http://a"] _ rfl rfl
    cases hrow
    exact absurd hsame.2 (by decide)

end Example

end Aegora
