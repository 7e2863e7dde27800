import Aegora.ControlPlaneApi
import Aegora.Runs

/-!
# Role changes and their audit

`create_custom_role` and `update_custom_role` write a role in three
transactions: the row of `roles`, the permissions, and the record in
`role_change_events`. A run interleaves any number of such requests; a
call can fail, and a process can die, before each of them.

`written` and `replaced` are ghosts: the changes whose role row and whose
permissions were committed, in order. They say at all times what the two
tables hold (`reads_run`). Whether a role is left with one change's row and
another one's permissions is then a question about the two lists.
-/

namespace Aegora

open Py Handlers

/-! ## Requests -/

/-- A request that has passed its checks, with the permissions they normalized. The checks
only read. -/
structure RoleChange where
  create : Bool
  roleId : String
  name : String
  description : String
  status : String
  actorId : String
  permissions : List (String × Scope)
deriving DecidableEq

/-- A row of `role_change_events`. -/
structure RoleChangeEvent where
  roleId : String
  actorId : String
  eventType : String
  status : String
  permissions : List (String × Scope)
deriving DecidableEq

namespace RoleChange

variable (c : RoleChange)

/-- The first transaction. -/
def writeRole : ControlPlaneHandler Unit :=
  if c.create then createRole c.roleId c.name c.description c.status
  else do
    let updated ← updateRole c.roleId c.name c.description c.status
    demand updated ⟨404, "角色不存在"⟩

/-- What `replace_role_tool_permissions` inserts. -/
def permissionRows : List RolePermissionRow :=
  c.permissions.map fun kv => ⟨c.roleId, kv.1, kv.2.toJson⟩

/-- What `record_role_change_event` inserts. -/
def event : RoleChangeEvent where
  roleId := c.roleId
  actorId := c.actorId
  eventType := if c.create then "role_created" else "role_updated"
  status := c.status
  permissions := c.permissions

/-- The row is as the request wants it. -/
def Describes (row : RoleRecord) : Prop :=
  row.name = c.name ∧ row.description = c.description ∧ row.status = c.status

instance (row : RoleRecord) : Decidable (c.Describes row) := inferInstanceAs (Decidable (_ ∧ _))

end RoleChange

/-- The transactions of a request that have committed; `stopped` has no further ones. -/
inductive RolePhase where
  | checked
  | roleWritten
  | permissionsReplaced
  | recorded
  | stopped
deriving DecidableEq

structure RoleRequest where
  change : RoleChange
  phase : RolePhase
deriving DecidableEq

structure RoleStore where
  db : ControlPlaneTables
  events : List RoleChangeEvent := []
  requests : List RoleRequest := []
  written : List RoleChange := []
  replaced : List RoleChange := []

inductive RoleOp where
  | arrive (c : RoleChange)
  /-- The next transaction of request `i` commits, or its role row is not there to write. -/
  | next (i : Nat)
  /-- The next call of request `i` fails, or its process dies. -/
  | fail (i : Nat)
  /-- A write to the other tables. -/
  | others (tables : ControlPlaneTables)

namespace RoleStore

variable (s : RoleStore)

def put (i : Nat) (c : RoleChange) (phase : RolePhase) : RoleStore :=
  { s with requests := s.requests.set i ⟨c, phase⟩ }

/-- The first transaction of request `i`. -/
def writeRole (i : Nat) (c : RoleChange) : RoleStore :=
  match outcome c.writeRole s.db with
  | .ok () =>
      { s.put i c .roleWritten with db := after c.writeRole s.db, written := s.written ++ [c] }
  | .error _ => { s.put i c .stopped with db := after c.writeRole s.db }

/-- The second one. -/
def replacePermissions (i : Nat) (c : RoleChange) : RoleStore :=
  { s.put i c .permissionsReplaced with
    db := after (replaceRoleToolPermissions c.roleId c.permissions) s.db
    replaced := s.replaced ++ [c] }

/-- The third one. -/
def record (i : Nat) (c : RoleChange) : RoleStore :=
  { s.put i c .recorded with events := s.events ++ [c.event] }

end RoleStore

def roleStep (s : RoleStore) : RoleOp → Option RoleStore
  | .arrive c => some { s with requests := s.requests ++ [⟨c, .checked⟩] }
  | .next i => (s.requests[i]?).bind fun p =>
      match p.phase with
      | .checked => some (s.writeRole i p.change)
      | .roleWritten => some (s.replacePermissions i p.change)
      | .permissionsReplaced => some (s.record i p.change)
      | .recorded | .stopped => none
  | .fail i => (s.requests[i]?).bind fun p =>
      match p.phase with
      | .checked | .roleWritten | .permissionsReplaced => some (s.put i p.change .stopped)
      | .recorded | .stopped => none
  | .others tables =>
      some { s with db := { tables with
        roles := s.db.roles, rolePermissions := s.db.rolePermissions } }

/-! ## Role rows and audit records that belong together -/

/-- The role's row is written and its audit record is not. -/
def RoleRequest.underWay (r : String) (p : RoleRequest) : Bool :=
  decide (p.change.roleId = r)
    && (decide (p.phase = .roleWritten) || decide (p.phase = .permissionsReplaced))

def RoleStore.underWay (s : RoleStore) (r : String) : List RoleRequest :=
  s.requests.filter (RoleRequest.underWay r)

def onRole (r : String) (log : List RoleChange) : List RoleChange :=
  log.filter fun c => decide (c.roleId = r)

/-- The row and the permissions of the role are both the ones at the start, or both the ones of
one change. -/
def RoleWhole (start : ControlPlaneTables) (s : RoleStore) (r : String) : Prop :=
  (s.db.role? r = start.role? r
      ∧ s.db.rolePermissions.filter (fun row => row.roleId = r)
        = start.rolePermissions.filter fun row => row.roleId = r)
    ∨ ∃ c ∈ s.requests.map RoleRequest.change, c.roleId = r
      ∧ (∃ row ∈ s.db.role? r, c.Describes row)
      ∧ s.db.rolePermissions.filter (fun row => row.roleId = r) = c.permissionRows

instance (start : ControlPlaneTables) (s : RoleStore) (r : String) :
    Decidable (RoleWhole start s r) :=
  inferInstanceAs (Decidable (_ ∨ _))

/-- Every replacement of the role's permissions has its record. -/
def RoleAudited (s : RoleStore) (r : String) : Prop :=
  s.events.filter (fun e => e.roleId = r) = (onRole r s.replaced).map RoleChange.event

instance (s : RoleStore) (r : String) : Decidable (RoleAudited s r) :=
  inferInstanceAs (Decidable (_ = _))

/-- Between the role row and the audit record of a request nothing fails, and no other request
writes the row of the same role. -/
def RoleUndisturbed (s : RoleStore) : RoleOp → Prop
  | .next i => ∀ p ∈ s.requests[i]?, p.phase = .checked → s.underWay p.change.roleId = []
  | .fail i => ∀ p ∈ s.requests[i]?, p.phase = .checked
  | _ => True

instance (s : RoleStore) (op : RoleOp) : Decidable (RoleUndisturbed s op) :=
  match op with
  | .next _ => inferInstanceAs (Decidable (∀ _ ∈ _, _))
  | .fail _ => inferInstanceAs (Decidable (∀ _ ∈ _, _))
  | .arrive _ => isTrue trivial
  | .others _ => isTrue trivial

/-! ## The transactions on the tables -/

section

variable {db start : ControlPlaneTables} {r : String}

/-- The first transaction writes the row of its role, or raises and leaves the tables. -/
structure WritesRole (c : RoleChange) (db after : ControlPlaneTables) : Prop where
  keys : (after.roles.map RoleRecord.id).Nodup
  row : ∃ row, after.role? c.roleId = some row ∧ c.Describes row
  others : ∀ r, r ≠ c.roleId → after.role? r = db.role? r
  permissions : after.rolePermissions = db.rolePermissions

theorem createRole_cases (c : RoleChange) (hkeys : (db.roles.map RoleRecord.id).Nodup) :
    (∃ e, Raises (createRole c.roleId c.name c.description c.status) db e db)
      ∨ ∃ u, Returns (createRole c.roleId c.name c.description c.status) db () u
          ∧ WritesRole c db u := by
  by_cases hnone : (db.role? c.roleId).isNone
  · right
    have hfind := Option.isNone_iff_eq_none.mp hnone
    refine ⟨_, (returns_get db).bind (Returns.bind (a := ()) (t := db) ?_ (returns_modify _ db)),
      ?_⟩
    · rw [demand_of hnone]
      exact returns_pure () db
    · refine ⟨?_, ⟨⟨c.roleId, c.name, c.description, c.status, false⟩, ?_, rfl, rfl, rfl⟩, ?_, rfl⟩
      · show ((db.roles ++ [_]).map RoleRecord.id).Nodup
        rw [List.map_append, List.nodup_append]
        refine ⟨hkeys, List.nodup_singleton _, ?_⟩
        intro id hid other hother heq
        obtain ⟨row, hrow, rfl⟩ := List.mem_map.mp hid
        obtain rfl := List.mem_singleton.mp hother
        exact Transactions.find_eq_none.mp hfind row hrow heq
      · show Transactions.find RoleRecord.id (db.roles ++ [_]) c.roleId = _
        unfold Transactions.find
        rw [List.find?_append, show db.roles.find? (fun row => decide (row.id = c.roleId)) = none
          from hfind]
        simp
      · intro r hr
        show Transactions.find RoleRecord.id (db.roles ++ [_]) r = Transactions.find _ db.roles r
        unfold Transactions.find
        rw [List.find?_append]
        simp [Ne.symm hr]
  · left
    exact ⟨_, (returns_get db).bind_raises ((raises_demand hnone _ db).bind _)⟩

theorem find_map_role {f : RoleRecord → RoleRecord} (hf : ∀ row, (f row).id = row.id)
    (rows : List RoleRecord) (r : String) :
    Transactions.find RoleRecord.id (rows.map f) r
      = (Transactions.find RoleRecord.id rows r).map f := by
  unfold Transactions.find
  rw [List.find?_map]
  congr 2
  funext row
  simp [hf]

theorem updateRole_cases (c : RoleChange) (hkeys : (db.roles.map RoleRecord.id).Nodup)
    (hcreate : c.create = false) :
    (∃ e, Raises c.writeRole db e db) ∨ ∃ u, Returns c.writeRole db () u ∧ WritesRole c db u := by
  have hm : c.writeRole = (updateRole c.roleId c.name c.description c.status >>= fun updated =>
      demand updated ⟨404, "角色不存在"⟩) := by
    rw [RoleChange.writeRole, hcreate]
    rfl
  set f : RoleRecord → RoleRecord := fun row =>
    if row.editable c.roleId then
      { row with name := c.name, description := c.description, status := c.status }
    else row with hf
  have hid : ∀ row, (f row).id = row.id := by
    intro row
    simp only [hf]
    split
    · rfl
    · rfl
  set u : ControlPlaneTables := { db with roles := db.roles.map f } with hu
  have hupdate : Returns (updateRole c.roleId c.name c.description c.status) db
      (decide ((db.roles.filter (RoleRecord.editable c.roleId)).length = 1)) u :=
    (returns_get db).bind ((returns_modify _ db).bind (returns_pure _ u))
  by_cases hone : (db.roles.filter (RoleRecord.editable c.roleId)).length = 1
  · right
    obtain ⟨row, hrow⟩ := List.length_eq_one_iff.mp hone
    have hmem : row ∈ db.roles.filter (RoleRecord.editable c.roleId) := by
      rw [hrow]
      exact List.mem_singleton_self row
    obtain ⟨hrow, heditable⟩ := List.mem_filter.mp hmem
    have hrowId : row.id = c.roleId := by
      simp only [RoleRecord.editable, Bool.and_eq_true, decide_eq_true_eq] at heditable
      exact heditable.1
    refine ⟨u, ?_, ?_⟩
    · rw [hm]
      refine hupdate.bind ?_
      rw [demand_of (by simpa using hone)]
      exact returns_pure () u
    · refine ⟨?_, ⟨f row, ?_, ?_⟩, fun r hr => ?_, rfl⟩
      · have hsame : (db.roles.map f).map RoleRecord.id = db.roles.map RoleRecord.id := by
          rw [List.map_map]
          exact List.map_congr_left fun row _ => hid row
        show ((db.roles.map f).map RoleRecord.id).Nodup
        rw [hsame]
        exact hkeys
      · show Transactions.find RoleRecord.id (db.roles.map f) c.roleId = _
        rw [find_map_role hid, (Transactions.find_eq_some hkeys).mpr ⟨hrow, hrowId⟩]
        rfl
      · simp only [hf, if_pos heditable]
        exact ⟨rfl, rfl, rfl⟩
      · show Transactions.find RoleRecord.id (db.roles.map f) r = _
        rw [find_map_role hid]
        cases hfound : Transactions.find RoleRecord.id db.roles r with
        | none => exact hfound.symm
        | some other =>
            have hother := (Transactions.find_spec hfound).2
            have hkept : f other = other := by
              simp only [hf]
              rw [if_neg]
              simp only [RoleRecord.editable, Bool.and_eq_true, decide_eq_true_eq]
              exact fun h => hr (hother.symm.trans h.1)
            rw [Option.map_some, hkept]
            exact hfound.symm
  · left
    have hle : (db.roles.filter (RoleRecord.editable c.roleId)).length ≤ 1 := by
      have hcount := List.nodup_iff_count_le_one.mp hkeys c.roleId
      rw [List.count_eq_countP, List.countP_map] at hcount
      rw [← List.countP_eq_length_filter]
      refine (List.countP_mono_left fun row _ heditable => ?_).trans hcount
      simp only [RoleRecord.editable, Bool.and_eq_true, decide_eq_true_eq] at heditable
      simpa using heditable.1
    have hnone : ∀ row ∈ db.roles, ¬ RoleRecord.editable c.roleId row = true := by
      have hzero : (db.roles.filter (RoleRecord.editable c.roleId)).length = 0 := by omega
      exact fun row hrow => List.filter_eq_nil_iff.mp (List.length_eq_zero_iff.mp hzero) row hrow
    have hsame : u = db := by
      have hroles : db.roles.map f = db.roles :=
        Transactions.map_eq_self.mpr fun row hrow => if_neg (hnone row hrow)
      rw [hu, hroles]
    rw [hsame] at hupdate
    refine ⟨⟨404, "角色不存在"⟩, ?_⟩
    rw [hm]
    exact hupdate.bind_raises (raises_demand (by simpa using hone) _ db)

theorem writeRole_cases (c : RoleChange) (hkeys : (db.roles.map RoleRecord.id).Nodup) :
    (∃ e, Raises c.writeRole db e db) ∨ ∃ u, Returns c.writeRole db () u ∧ WritesRole c db u := by
  cases hcreate : c.create with
  | true =>
      have hm : c.writeRole = createRole c.roleId c.name c.description c.status := by
        rw [RoleChange.writeRole, hcreate]
        rfl
      rw [hm]
      exact createRole_cases c hkeys
  | false => exact updateRole_cases c hkeys hcreate

theorem filter_replaced (c : RoleChange) :
    (after (replaceRoleToolPermissions c.roleId c.permissions) db).rolePermissions.filter
        (fun row => row.roleId = c.roleId) = c.permissionRows := by
  show ((db.rolePermissions.filter fun row => row.roleId ≠ c.roleId)
    ++ c.permissionRows).filter _ = _
  rw [List.filter_append, List.filter_filter]
  have hold : (db.rolePermissions.filter fun row =>
      decide (row.roleId = c.roleId) && decide (row.roleId ≠ c.roleId)) = [] := by
    rw [List.filter_eq_nil_iff]
    simp
  rw [hold, List.nil_append, List.filter_eq_self]
  intro row hrow
  obtain ⟨kv, -, rfl⟩ := List.mem_map.mp hrow
  exact decide_eq_true rfl

theorem filter_replaced_other (c : RoleChange) (hr : r ≠ c.roleId) :
    (after (replaceRoleToolPermissions c.roleId c.permissions) db).rolePermissions.filter
        (fun row => row.roleId = r) = db.rolePermissions.filter fun row => row.roleId = r := by
  show ((db.rolePermissions.filter fun row => row.roleId ≠ c.roleId)
    ++ c.permissionRows).filter _ = _
  rw [List.filter_append, List.filter_filter]
  have hnew : (c.permissionRows.filter fun row => row.roleId = r) = [] := by
    rw [List.filter_eq_nil_iff]
    intro row hrow
    obtain ⟨kv, -, rfl⟩ := List.mem_map.mp hrow
    simpa using Ne.symm hr
  rw [hnew, List.append_nil]
  refine List.filter_congr fun row _ => ?_
  by_cases hrow : row.roleId = r
  · simp [hrow, hr]
  · simp [hrow]

end

/-! ## One request by itself -/

namespace RoleChange

/-- What the two endpoints run after their checks, the audit record apart. -/
def transactions (c : RoleChange) : ControlPlaneHandler Unit := do
  c.writeRole
  replaceRoleToolPermissions c.roleId c.permissions

def ofRequest (create : Bool) (request : RoleUpsertRequest) (roleId : String)
    (permissions : List (String × Scope)) : RoleChange :=
  ⟨create, roleId, request.name, request.description, request.status, request.actorId, permissions⟩

end RoleChange

theorem createCustomRole_eq (env : ControlPlaneEnv) (caller : Caller)
    (request : RoleUpsertRequest) :
    createCustomRole env caller request
      = asNamedPlatformAdmin env caller request.actorId (fun _ => do
          let db ← get
          demand ((db.role? request.roleId).isNone) ⟨409, "角色 ID 已存在"⟩
          let permissions ← rolePermissionsFor request
          (RoleChange.ofRequest true request request.roleId permissions).transactions) := rfl

theorem updateCustomRole_eq (env : ControlPlaneEnv) (caller : Caller) (roleId : String)
    (request : RoleUpsertRequest) :
    updateCustomRole env caller roleId request
      = asNamedPlatformAdmin env caller request.actorId (fun _ => do
          demand (request.roleId = roleId) ⟨422, "角色 ID 不允许修改"⟩
          let db ← get
          demand ((db.role? roleId).isSome) ⟨404, "角色不存在"⟩
          demand (∀ role ∈ db.role? roleId, !role.isSystem) ⟨403, "系统角色不允许编辑"⟩
          let permissions ← rolePermissionsFor request
          (RoleChange.ofRequest false request roleId permissions).transactions) := by
  simp only [RoleChange.transactions, RoleChange.writeRole, RoleChange.ofRequest,
    Bool.false_eq_true, if_false, bind_assoc]
  rfl

/-- A request that is let through alone commits what its endpoint commits. -/
theorem transactions_alone {c : RoleChange} {db : ControlPlaneTables}
    (h : outcome c.transactions db = .ok ()) :
    ∃ s, Runs.run roleStep { db := db } [.arrive c, .next 0, .next 0, .next 0] = some s
      ∧ s.db = after c.transactions db ∧ s.events = [c.event] := by
  obtain ⟨_, hwrite, -, hafter⟩ := bind_returned h
  have hnext : RoleStore.writeRole { db := db, requests := [⟨c, .checked⟩] } 0 c
      = { db := after c.writeRole db, requests := [⟨c, .roleWritten⟩], written := [c] } := by
    unfold RoleStore.writeRole
    rw [hwrite]
    rfl
  refine ⟨⟨after (replaceRoleToolPermissions c.roleId c.permissions) (after c.writeRole db),
    [c.event], [⟨c, .recorded⟩], [c], [c]⟩, ?_, hafter.symm, rfl⟩
  show ((some (RoleStore.writeRole { db := db, requests := [⟨c, .checked⟩] } 0 c)).bind
    fun t => Runs.run roleStep t [.next 0, .next 0]) = _
  rw [hnext]
  rfl

/-! ## What the tables hold -/

/-- The last change whose row was written, and the last one whose permissions were, say what is
in the tables. -/
structure RolesTracked (start : ControlPlaneTables) (s : RoleStore) : Prop where
  keys : (s.db.roles.map RoleRecord.id).Nodup
  row : ∀ r, (onRole r s.written = [] ∧ s.db.role? r = start.role? r)
    ∨ ∃ c row, (onRole r s.written).getLast? = some c ∧ s.db.role? r = some row ∧ c.Describes row
  permissions : ∀ r, (onRole r s.replaced = []
      ∧ s.db.rolePermissions.filter (fun row => row.roleId = r)
        = start.rolePermissions.filter fun row => row.roleId = r)
    ∨ ∃ c, (onRole r s.replaced).getLast? = some c
      ∧ s.db.rolePermissions.filter (fun row => row.roleId = r) = c.permissionRows
  arrived : ∀ c ∈ s.written, c ∈ s.requests.map RoleRequest.change

theorem onRole_append_self (log : List RoleChange) (c : RoleChange) :
    onRole c.roleId (log ++ [c]) = onRole c.roleId log ++ [c] := by
  simp [onRole, List.filter_append]

theorem onRole_append_other (log : List RoleChange) {c : RoleChange} {r : String}
    (hr : r ≠ c.roleId) : onRole r (log ++ [c]) = onRole r log := by
  simp [onRole, List.filter_append, Ne.symm hr]

section

variable {start : ControlPlaneTables} {s t : RoleStore} {i : Nat} {p : RoleRequest}

theorem changes_put (hp : s.requests[i]? = some p) (phase : RolePhase) :
    (s.put i p.change phase).requests.map RoleRequest.change
      = s.requests.map RoleRequest.change := by
  obtain ⟨hlt, hget⟩ := List.getElem?_eq_some_iff.mp hp
  show (s.requests.set i ⟨p.change, phase⟩).map RoleRequest.change = _
  rw [List.map_set]
  refine List.ext_getElem? fun j => ?_
  by_cases hj : i = j
  · subst hj
    rw [List.getElem?_set_self (by simpa using hlt), List.getElem?_map, hp]
    rfl
  · rw [List.getElem?_set_ne hj]

theorem tracked_put (h : RolesTracked start s) (hp : s.requests[i]? = some p)
    (phase : RolePhase) : RolesTracked start (s.put i p.change phase) where
  keys := h.keys
  row := h.row
  permissions := h.permissions
  arrived := by
    rw [changes_put hp phase]
    exact h.arrived

theorem tracked_writeRole (h : RolesTracked start s) (hp : s.requests[i]? = some p) :
    RolesTracked start (s.writeRole i p.change) := by
  unfold RoleStore.writeRole
  rcases writeRole_cases p.change h.keys with ⟨e, hout, hafter⟩ | ⟨u, ⟨hout, hafter⟩, hwrites⟩
  · rw [hout, hafter]
    exact tracked_put h hp .stopped
  · rw [hout, hafter]
    refine ⟨hwrites.keys, fun r => ?_, fun r => ?_, fun c hc => ?_⟩
    · by_cases hr : r = p.change.roleId
      · subst hr
        obtain ⟨row, hrow, hdescribes⟩ := hwrites.row
        refine .inr ⟨p.change, row, ?_, hrow, hdescribes⟩
        show (onRole _ (s.written ++ [p.change])).getLast? = _
        rw [onRole_append_self, List.getLast?_concat]
      · show (onRole r (s.written ++ [p.change]) = [] ∧ u.role? r = _) ∨ ∃ c row,
          (onRole r (s.written ++ [p.change])).getLast? = some c ∧ u.role? r = _ ∧ _
        rw [onRole_append_other s.written hr, hwrites.others r hr]
        exact h.row r
    · show (_ ∧ u.rolePermissions.filter _ = _) ∨ ∃ c, _ ∧ u.rolePermissions.filter _ = _
      rw [hwrites.permissions]
      exact h.permissions r
    · show c ∈ (s.put i p.change .roleWritten).requests.map RoleRequest.change
      rw [changes_put hp]
      rcases List.mem_append.mp hc with hc | hc
      · exact h.arrived c hc
      · rw [List.mem_singleton.mp hc]
        exact List.mem_map_of_mem (List.mem_of_getElem? hp)

theorem tracked_replacePermissions (h : RolesTracked start s) (hp : s.requests[i]? = some p) :
    RolesTracked start (s.replacePermissions i p.change) where
  keys := h.keys
  row := h.row
  permissions := fun r => by
    by_cases hr : r = p.change.roleId
    · subst hr
      refine .inr ⟨p.change, ?_, filter_replaced p.change⟩
      show (onRole _ (s.replaced ++ [p.change])).getLast? = _
      rw [onRole_append_self, List.getLast?_concat]
    · have hkept := @filter_replaced_other s.db r p.change hr
      show (onRole r (s.replaced ++ [p.change]) = [] ∧ (after (replaceRoleToolPermissions
          p.change.roleId p.change.permissions) s.db).rolePermissions.filter _ = _)
        ∨ ∃ c, (onRole r (s.replaced ++ [p.change])).getLast? = some c
          ∧ (after (replaceRoleToolPermissions p.change.roleId p.change.permissions)
            s.db).rolePermissions.filter _ = _
      rw [onRole_append_other s.replaced hr, hkept]
      exact h.permissions r
  arrived := by
    show ∀ c ∈ s.written, c ∈ (s.put i p.change .permissionsReplaced).requests.map
      RoleRequest.change
    rw [changes_put hp]
    exact h.arrived

theorem tracked_step {op : RoleOp} (h : RolesTracked start s) (hstep : roleStep s op = some t) :
    RolesTracked start t := by
  cases op with
  | arrive c =>
      obtain rfl := Option.some.inj hstep
      refine ⟨h.keys, h.row, h.permissions, fun c hc => ?_⟩
      rw [List.map_append]
      exact List.mem_append_left _ (h.arrived c hc)
  | next i =>
      obtain ⟨p, hp, hstep⟩ := Option.bind_eq_some_iff.mp hstep
      split at hstep
      · obtain rfl := Option.some.inj hstep
        exact tracked_writeRole h hp
      · obtain rfl := Option.some.inj hstep
        exact tracked_replacePermissions h hp
      · obtain rfl := Option.some.inj hstep
        have hput := tracked_put h hp .recorded
        exact ⟨hput.keys, hput.row, hput.permissions, hput.arrived⟩
      · cases hstep
      · cases hstep
  | fail i =>
      obtain ⟨p, hp, hstep⟩ := Option.bind_eq_some_iff.mp hstep
      split at hstep
      · obtain rfl := Option.some.inj hstep
        exact tracked_put h hp .stopped
      · obtain rfl := Option.some.inj hstep
        exact tracked_put h hp .stopped
      · obtain rfl := Option.some.inj hstep
        exact tracked_put h hp .stopped
      · cases hstep
      · cases hstep
  | others tables =>
      obtain rfl := Option.some.inj hstep
      exact ⟨h.keys, h.row, h.permissions, h.arrived⟩

/-! ## RoleUndisturbed runs -/

/-- At most one request on the role is under way, and the lists differ by what it has left to
do. -/
inductive Tidy (r : String) (s : RoleStore) : Prop where
  | idle (busy : s.underWay r = [])
      (written : onRole r s.written = onRole r s.replaced) (audited : RoleAudited s r)
  | roleWritten (c : RoleChange) (busy : s.underWay r = [⟨c, .roleWritten⟩])
      (written : onRole r s.written = onRole r s.replaced ++ [c]) (audited : RoleAudited s r)
  | permissionsReplaced (c : RoleChange) (busy : s.underWay r = [⟨c, .permissionsReplaced⟩])
      (written : onRole r s.written = onRole r s.replaced)
      (audited : s.events.filter (fun e => e.roleId = r) ++ [c.event]
        = (onRole r s.replaced).map RoleChange.event)

theorem exists_split {α : Type} {l : List α} {i : Nat} {a : α} (h : l[i]? = some a) :
    ∃ before after, l = before ++ a :: after ∧ ∀ b, l.set i b = before ++ b :: after := by
  obtain ⟨hlt, rfl⟩ := List.getElem?_eq_some_iff.mp h
  refine ⟨l.take i, l.drop (i + 1), ?_, fun b => List.set_eq_take_append_cons_drop.trans ?_⟩
  · rw [← List.drop_eq_getElem_cons hlt, List.take_append_drop]
  · rw [if_pos hlt]

/-- Nothing about another role changes when a request moves. -/
theorem underWay_put_other (hp : s.requests[i]? = some p) {r : String} (hr : r ≠ p.change.roleId)
    (phase : RolePhase) : (s.put i p.change phase).underWay r = s.underWay r := by
  obtain ⟨before, after, hsplit, hset⟩ := exists_split hp
  show (s.requests.set i _).filter _ = s.requests.filter _
  rw [hset, hsplit, List.filter_append, List.filter_append, List.filter_cons, List.filter_cons]
  have hout : ∀ phase, RoleRequest.underWay r ⟨p.change, phase⟩ = false := by
    intro phase
    simp [RoleRequest.underWay, Ne.symm hr]
  rw [hout phase, show RoleRequest.underWay r p = false from hout p.phase]
  simp

/-- The role's only request under way takes its next step. -/
theorem underWay_put_busy (hp : s.requests[i]? = some p)
    (hphase : p.phase = .roleWritten ∨ p.phase = .permissionsReplaced) {q : RoleRequest}
    (hbusy : s.underWay p.change.roleId = [q]) (phase : RolePhase) :
    q = p ∧ (s.put i p.change phase).underWay p.change.roleId
      = if phase = .roleWritten ∨ phase = .permissionsReplaced then [⟨p.change, phase⟩]
        else [] := by
  obtain ⟨before, after, hsplit, hset⟩ := exists_split hp
  have hin : RoleRequest.underWay p.change.roleId p = true := by
    simpa [RoleRequest.underWay] using hphase
  have hall : before.filter (RoleRequest.underWay p.change.roleId)
      ++ p :: after.filter (RoleRequest.underWay p.change.roleId) = [q] := by
    have hfilter : s.requests.filter (RoleRequest.underWay p.change.roleId) = [q] := hbusy
    rw [hsplit, List.filter_append, List.filter_cons, if_pos hin] at hfilter
    exact hfilter
  obtain ⟨hbefore, hrest⟩ : before.filter (RoleRequest.underWay p.change.roleId) = []
      ∧ p :: after.filter (RoleRequest.underWay p.change.roleId) = [q] := by
    cases hcases : before.filter (RoleRequest.underWay p.change.roleId) with
    | nil =>
        rw [hcases] at hall
        exact ⟨rfl, hall⟩
    | cons first more =>
        rw [hcases] at hall
        simp at hall
  obtain ⟨hpq, hafter⟩ := List.cons_eq_cons.mp hrest
  refine ⟨hpq.symm, ?_⟩
  show (s.requests.set i _).filter _ = _
  rw [hset, List.filter_append, List.filter_cons, hbefore, hafter]
  simp [RoleRequest.underWay]

/-- A request that is not under way takes a step on an idle role. -/
theorem underWay_put_idle (hp : s.requests[i]? = some p)
    (hbusy : s.underWay p.change.roleId = []) (phase : RolePhase) :
    (s.put i p.change phase).underWay p.change.roleId
      = if phase = .roleWritten ∨ phase = .permissionsReplaced then [⟨p.change, phase⟩]
        else [] := by
  obtain ⟨before, after, hsplit, hset⟩ := exists_split hp
  have hall : s.requests.filter (RoleRequest.underWay p.change.roleId) = [] := hbusy
  rw [hsplit, List.filter_append, List.append_eq_nil_iff] at hall
  obtain ⟨hbefore, hrest⟩ := hall
  have hafter : after.filter (RoleRequest.underWay p.change.roleId) = [] := by
    rw [List.filter_eq_nil_iff] at hrest ⊢
    exact fun q hq => hrest q (List.mem_cons_of_mem p hq)
  show (s.requests.set i _).filter _ = _
  rw [hset, List.filter_append, List.filter_cons, hbefore, hafter]
  simp [RoleRequest.underWay]

/-- A request that is not under way stops. -/
theorem underWay_put_stopped (hp : s.requests[i]? = some p) (hphase : p.phase = .checked)
    (r : String) : (s.put i p.change .stopped).underWay r = s.underWay r := by
  obtain ⟨before, after, hsplit, hset⟩ := exists_split hp
  show (s.requests.set i _).filter _ = s.requests.filter _
  rw [hset, hsplit, List.filter_append, List.filter_append, List.filter_cons, List.filter_cons]
  simp [RoleRequest.underWay, hphase]

theorem event_roleId (c : RoleChange) : c.event.roleId = c.roleId := rfl

theorem tidy_congr {r : String} (h : Tidy r s) (hbusy : t.underWay r = s.underWay r)
    (hwritten : onRole r t.written = onRole r s.written)
    (hreplaced : onRole r t.replaced = onRole r s.replaced)
    (hevents : t.events.filter (fun e => e.roleId = r) = s.events.filter fun e => e.roleId = r) :
    Tidy r t := by
  cases h with
  | idle busy written audited =>
      refine .idle (hbusy.trans busy) (hwritten.trans (written.trans hreplaced.symm)) ?_
      rw [RoleAudited, hevents, hreplaced]
      exact audited
  | roleWritten c busy written audited =>
      refine .roleWritten c (hbusy.trans busy) ?_ ?_
      · rw [hwritten, hreplaced]
        exact written
      · rw [RoleAudited, hevents, hreplaced]
        exact audited
  | permissionsReplaced c busy written audited =>
      refine .permissionsReplaced c (hbusy.trans busy) ?_ ?_
      · rw [hwritten, hreplaced]
        exact written
      · rw [hevents, hreplaced]
        exact audited

theorem mem_underWay (hp : s.requests[i]? = some p)
    (hphase : p.phase = .roleWritten ∨ p.phase = .permissionsReplaced) :
    p ∈ s.underWay p.change.roleId := by
  refine List.mem_filter.mpr ⟨List.mem_of_getElem? hp, ?_⟩
  simpa [RoleRequest.underWay] using hphase

theorem tidy_writeRole (h : ∀ r, Tidy r s) (hp : s.requests[i]? = some p)
    (hphase : p.phase = .checked) (hbusy : s.underWay p.change.roleId = []) (r : String) :
    Tidy r (s.writeRole i p.change) := by
  unfold RoleStore.writeRole
  split
  · by_cases hr : r = p.change.roleId
    · subst hr
      have hnext := underWay_put_idle hp hbusy .roleWritten
      cases h p.change.roleId with
      | idle busy written audited =>
          refine .roleWritten p.change hnext ?_ audited
          show onRole _ (s.written ++ [p.change]) = onRole _ s.replaced ++ [p.change]
          rw [onRole_append_self, written]
      | roleWritten c busy written audited =>
          rw [hbusy] at busy
          cases busy
      | permissionsReplaced c busy written audited =>
          rw [hbusy] at busy
          cases busy
    · exact tidy_congr (h r) (underWay_put_other hp hr .roleWritten)
        (onRole_append_other s.written hr) rfl rfl
  · exact tidy_congr (h r) (underWay_put_stopped hp hphase r) rfl rfl rfl

theorem tidy_replacePermissions (h : ∀ r, Tidy r s) (hp : s.requests[i]? = some p)
    (hphase : p.phase = .roleWritten) (r : String) :
    Tidy r (s.replacePermissions i p.change) := by
  by_cases hr : r = p.change.roleId
  · subst hr
    cases h p.change.roleId with
    | idle busy written audited =>
        have hmem := mem_underWay hp (.inl hphase)
        rw [busy] at hmem
        cases hmem
    | roleWritten c busy written audited =>
        obtain ⟨hc, hnext⟩ := underWay_put_busy hp (.inl hphase) busy .permissionsReplaced
        obtain rfl : c = p.change := congrArg RoleRequest.change hc
        refine .permissionsReplaced p.change hnext ?_ ?_
        · show onRole _ s.written = onRole _ (s.replaced ++ [p.change])
          rw [onRole_append_self, written]
        · show _ = (onRole _ (s.replaced ++ [p.change])).map RoleChange.event
          rw [onRole_append_self, List.map_append, ← audited]
          rfl
    | permissionsReplaced c busy written audited =>
        obtain ⟨hc, -⟩ := underWay_put_busy hp (.inl hphase) busy .permissionsReplaced
        have hsame := congrArg RoleRequest.phase hc
        rw [hphase] at hsame
        cases hsame
  · exact tidy_congr (h r) (underWay_put_other hp hr .permissionsReplaced) rfl
      (onRole_append_other s.replaced hr) rfl

theorem tidy_record (h : ∀ r, Tidy r s) (hp : s.requests[i]? = some p)
    (hphase : p.phase = .permissionsReplaced) (r : String) : Tidy r (s.record i p.change) := by
  by_cases hr : r = p.change.roleId
  · subst hr
    cases h p.change.roleId with
    | idle busy written audited =>
        have hmem := mem_underWay hp (.inr hphase)
        rw [busy] at hmem
        cases hmem
    | roleWritten c busy written audited =>
        obtain ⟨hc, -⟩ := underWay_put_busy hp (.inr hphase) busy .recorded
        have hsame := congrArg RoleRequest.phase hc
        rw [hphase] at hsame
        cases hsame
    | permissionsReplaced c busy written audited =>
        obtain ⟨hc, hnext⟩ := underWay_put_busy hp (.inr hphase) busy .recorded
        obtain rfl : c = p.change := congrArg RoleRequest.change hc
        refine .idle hnext written ?_
        show (s.events ++ [p.change.event]).filter _ = (onRole _ s.replaced).map RoleChange.event
        rw [List.filter_append, ← audited]
        simp [event_roleId]
  · refine tidy_congr (h r) (underWay_put_other hp hr .recorded) rfl rfl ?_
    show (s.events ++ [p.change.event]).filter _ = _
    rw [List.filter_append]
    simp [event_roleId, Ne.symm hr]

theorem tidy_step {op : RoleOp} (h : ∀ r, Tidy r s) (hundisturbed : RoleUndisturbed s op)
    (hstep : roleStep s op = some t) : ∀ r, Tidy r t := by
  intro r
  cases op with
  | arrive c =>
      obtain rfl := Option.some.inj hstep
      refine tidy_congr (h r) ?_ rfl rfl rfl
      show (s.requests ++ [_]).filter _ = s.requests.filter _
      rw [List.filter_append]
      simp [RoleRequest.underWay]
  | next i =>
      obtain ⟨p, hp, hstep⟩ := Option.bind_eq_some_iff.mp hstep
      split at hstep
      · rename_i hphase
        obtain rfl := Option.some.inj hstep
        exact tidy_writeRole h hp hphase (hundisturbed p hp hphase) r
      · rename_i hphase
        obtain rfl := Option.some.inj hstep
        exact tidy_replacePermissions h hp hphase r
      · rename_i hphase
        obtain rfl := Option.some.inj hstep
        exact tidy_record h hp hphase r
      · cases hstep
      · cases hstep
  | fail i =>
      obtain ⟨p, hp, hstep⟩ := Option.bind_eq_some_iff.mp hstep
      have hphase := hundisturbed p hp
      rw [hphase] at hstep
      obtain rfl := Option.some.inj hstep
      exact tidy_congr (h r) (underWay_put_stopped hp hphase r) rfl rfl rfl
  | others tables =>
      obtain rfl := Option.some.inj hstep
      exact tidy_congr (h r) rfl rfl rfl rfl

end

/-! ## Roles after a run -/

theorem roleWhole_of_tidy {start : ControlPlaneTables} {s : RoleStore} {r : String}
    (htracked : RolesTracked start s) (htidy : Tidy r s) (hidle : s.underWay r = []) :
    RoleWhole start s r ∧ RoleAudited s r := by
  cases htidy with
  | idle busy written audited =>
      refine ⟨?_, audited⟩
      rcases htracked.row r with ⟨hnone, hrow⟩ | ⟨c, row, hlast, hrow, hdescribes⟩
      · rcases htracked.permissions r with ⟨-, hpermissions⟩ | ⟨c, hlast, -⟩
        · exact .inl ⟨hrow, hpermissions⟩
        · rw [← written, hnone] at hlast
          cases hlast
      · have hwritten := List.mem_filter.mp (List.mem_of_getLast? hlast)
        rcases htracked.permissions r with ⟨hnone, -⟩ | ⟨c', hlast', hpermissions⟩
        · rw [written, hnone] at hlast
          cases hlast
        · rw [← written, hlast] at hlast'
          obtain rfl := Option.some.inj hlast'
          exact .inr ⟨c, htracked.arrived c hwritten.1, of_decide_eq_true hwritten.2,
            ⟨row, hrow, hdescribes⟩, hpermissions⟩
  | roleWritten c busy written audited =>
      rw [hidle] at busy
      cases busy
  | permissionsReplaced c busy written audited =>
      rw [hidle] at busy
      cases busy

/-- In every run in which no request fails, and no other one writes the same role, between a
request's role row and its audit record: a role with no request under way has the row and the
permissions it had at the start, or both those of one change, and each replacement of its
permissions has its record. -/
theorem roles_whole_and_audited (start : ControlPlaneTables)
    (hkeys : (start.roles.map RoleRecord.id).Nodup) (ops : List RoleOp) (s : RoleStore)
    (hundisturbed : Runs.Meets roleStep RoleUndisturbed { db := start } ops)
    (hrun : Runs.run roleStep { db := start } ops = some s) (r : String)
    (hidle : s.underWay r = []) : RoleWhole start s r ∧ RoleAudited s r := by
  have hstart : RolesTracked start { db := start } ∧ ∀ r, Tidy r { db := start } :=
    ⟨⟨hkeys, fun r => .inl ⟨rfl, rfl⟩, fun r => .inl ⟨rfl, rfl⟩, fun c hc => absurd hc
      List.not_mem_nil⟩, fun r => .idle rfl rfl rfl⟩
  obtain ⟨htracked, htidy⟩ := Runs.run_invariant
    (I := fun s => RolesTracked start s ∧ ∀ r, Tidy r s)
    (fun _ _ _ hs hop hstep => ⟨tracked_step hs.1 hstep, tidy_step hs.2 hop hstep⟩) hstart
    hundisturbed hrun
  exact roleWhole_of_tidy htracked (htidy r) hidle

/-! ## Two updates of one role -/

/-- A role that may calculate. -/
def opsTables : ControlPlaneTables where
  roles := [⟨"ops", "ops", "", "active", false⟩]
  rolePermissions := [⟨"ops", "calculator", .obj []⟩]

/-- Suspends the role and keeps what it may do. -/
def suspendOps : RoleChange :=
  ⟨false, "ops", "ops", "", "disabled", "u_admin", [("calculator", []), ("shell", [])]⟩

/-- Keeps the role active and takes `shell` away. -/
def narrowOps : RoleChange := ⟨false, "ops", "ops", "", "active", "u_admin", [("calculator", [])]⟩

/-- One after the other. -/
def inTurn : List RoleOp :=
  [.arrive suspendOps, .arrive narrowOps, .next 0, .next 0, .next 0, .next 1, .next 1, .next 1]

theorem roles_whole_and_audited_ops :
    ∃ s, Runs.run roleStep { db := opsTables } inTurn = some s
      ∧ RoleWhole opsTables s "ops" ∧ RoleAudited s "ops" :=
  ⟨_, rfl, roles_whole_and_audited opsTables (by decide) inTurn _ (by decide +kernel) rfl "ops"
    (by decide +kernel)⟩

/-- The row is suspended with the permissions it had; a replacement has no record; and the
other update's row stands over the permissions that the suspension granted. -/
theorem role_half_changed :
    (∃ s, Runs.run roleStep { db := opsTables } [.arrive suspendOps, .next 0, .fail 0] = some s
        ∧ s.underWay "ops" = []
        ∧ s.db.role? "ops" = some ⟨"ops", "ops", "", "disabled", false⟩
        ∧ s.db.rolePermissions = [⟨"ops", "calculator", .obj []⟩]
        ∧ ¬ RoleWhole opsTables s "ops")
      ∧ (∃ s, Runs.run roleStep { db := opsTables }
            [.arrive suspendOps, .next 0, .next 0, .fail 0] = some s
          ∧ s.underWay "ops" = [] ∧ s.events = [] ∧ ¬ RoleAudited s "ops")
      ∧ ∃ s, Runs.run roleStep { db := opsTables }
            [.arrive suspendOps, .arrive narrowOps, .next 0, .next 1, .next 1, .next 1, .next 0,
              .next 0] = some s
          ∧ s.underWay "ops" = []
          ∧ s.db.role? "ops" = some ⟨"ops", "ops", "", "active", false⟩
          ∧ s.db.rolePermissions
            = [⟨"ops", "calculator", .obj []⟩, ⟨"ops", "shell", .obj []⟩]
          ∧ ¬ RoleWhole opsTables s "ops" := by
  refine ⟨⟨_, rfl, ?_⟩, ⟨_, rfl, ?_⟩, _, rfl, ?_⟩
  · decide +kernel
  · decide +kernel
  · decide +kernel

end Aegora
