import Aegora.NativePg
import Aegora.Transactions

/-!
# The provider's transactions

`remember`, `forget` and `expire_due` statement by statement, with the records
of `memory_events` that they write. Each call is one transaction at READ
COMMITTED: it sees what is committed and what it has written itself, and its
writes become visible together when it commits.

A statement that finds a row locked waits for it and then checks the row again;
it does not look for others. So a `remember` that has waited for the row of its
identity may find it superseded and insert without seeing the new version. The
unique index on the active rows then stops it.
-/

namespace Aegora

open Py

/-! ## Events -/

inductive MemoryEventType where
  | created
  | updated
  | superseded
  | forgotten
  | expired
deriving DecidableEq, Repr

/-- A record of `memory_events`. -/
structure MemoryEvent where
  tenantId : String
  subjectUserId : String
  nameSpace : String
  key : String
  memoryId : Nat
  eventType : MemoryEventType
  sourceKind : String
  sourceAgentId : Option String
  sourceSessionId : Option String
  sourceTraceId : Option String
  reason : String
  detail : Json
deriving DecidableEq

/-- What is left open: floating point, and the text of a time. -/
structure EventEnv extends FloatEnv where
  isoformat : Time → String

section Events

variable (env : EventEnv) (scope : MemoryScope) (memory : MemoryWrite)

/-- The record of a row that a new version replaces. -/
def supersededEvent (current : MemoryRow) : MemoryEvent where
  tenantId := scope.tenant
  subjectUserId := scope.userId
  nameSpace := scope.nameSpace
  key := memory.key
  memoryId := current.id
  eventType := .superseded
  sourceKind := memory.sourceKind.text
  sourceAgentId := (nonEmpty memory.sourceAgentId).or scope.agentId
  sourceSessionId := (nonEmpty memory.sourceSessionId).or scope.sessionId
  sourceTraceId := memory.sourceTraceId
  reason := (nonEmpty memory.reason).getD "memory_update"
  detail := .obj [("next_version", .int (current.version + 1))]

/-- The record of the row that `remember` inserts. -/
def insertedEvent (row : MemoryRow) : MemoryEvent where
  tenantId := scope.tenant
  subjectUserId := scope.userId
  nameSpace := scope.nameSpace
  key := memory.key
  memoryId := row.id
  eventType := if row.supersedesId = none then .created else .updated
  sourceKind := memory.sourceKind.text
  sourceAgentId := (nonEmpty memory.sourceAgentId).or scope.agentId
  sourceSessionId := (nonEmpty memory.sourceSessionId).or scope.sessionId
  sourceTraceId := memory.sourceTraceId
  reason := (nonEmpty memory.reason).getD
    (if row.supersedesId = none then "memory_create" else "memory_update")
  detail := .obj [("version", .int row.version),
    ("supersedes_id", (row.supersedesId.map fun id : Nat => Json.int id).getD .null),
    ("expires_at", (memory.expiresAt.map fun time => Json.str (env.isoformat time)).getD .null)]

/-- The record of a forgotten row. -/
def forgottenEvent (key : String) (reason sourceTraceId : Option String) (sourceKind : String)
    (row : MemoryRow) : MemoryEvent where
  tenantId := scope.tenant
  subjectUserId := scope.userId
  nameSpace := scope.nameSpace
  key := key
  memoryId := row.id
  eventType := .forgotten
  sourceKind := sourceKind
  sourceAgentId := scope.agentId
  sourceSessionId := scope.sessionId
  sourceTraceId := sourceTraceId
  reason := (nonEmpty reason).getD "explicit_forget"
  detail := .obj []

/-- The record of a row whose time is over. -/
def expiredEvent (row : MemoryRow) : MemoryEvent where
  tenantId := row.tenantId
  subjectUserId := row.subjectUserId
  nameSpace := row.nameSpace
  key := row.key
  memoryId := row.id
  eventType := .expired
  sourceKind := textOr row.sourceKind.text "legacy"
  sourceAgentId := row.sourceAgentId
  sourceSessionId := row.sourceSessionId
  sourceTraceId := row.sourceTraceId
  reason := "valid_until_elapsed"
  detail := .obj []

end Events

/-! ## Transactions -/

/-- The committed tables. The sequence of the ids is no part of a transaction. -/
structure MemoryDb where
  tables : MemoryTables := {}
  events : List MemoryEvent := []

/-- A row to be written, with the record of it. -/
abbrev RecordedWrite := MemoryRow × MemoryEvent

/-- Make the writes of a transaction visible. -/
def MemoryDb.commit (db : MemoryDb) (writes : List RecordedWrite)
    (facts : List (String × Facts)) : MemoryDb where
  tables := { db.tables with
    rows := Transactions.putAll MemoryRow.id db.tables.rows (writes.map Prod.fst)
    facts := facts }
  events := db.events ++ writes.map Prod.snd

/-- The lock of a row, and the entry in the unique index of a row not yet committed. -/
inductive MemoryLock where
  | row (id : Nat)
  | entry (identity : MemoryIdentity)
deriving DecidableEq

/-- How far a `remember` has come: the row that its `SELECT` waits for, the row that it
has locked, the `UPDATE` of it, and the `INSERT`. -/
inductive RememberPoint where
  | begun
  | selecting (id : Nat)
  | selected (current : Option MemoryRow)
  | superseded (current : MemoryRow)
  | inserted (current : Option MemoryRow) (row : MemoryRow)

inductive ForgetPoint where
  | begun
  | updating (id : Nat)
  | deleted (row : MemoryRow)

inductive ExpirePoint where
  | begun
  | expired (rows : List MemoryRow)

inductive MemoryResult where
  | item (row : MemoryRow)
  | changed (found : Bool)
  | count (expired : Nat)
  | raised (detail : String)
  | connectionLost

inductive MemoryTxn where
  | remember (scope : MemoryScope) (memory : MemoryWrite) (now : Time) (point : RememberPoint)
  | forget (scope : MemoryScope) (key : String) (reason sourceTraceId : Option String)
      (sourceKind : String) (now : Time) (point : ForgetPoint)
  | expireDue (tenantId : Option String) (limit : Int) (now : Time) (point : ExpirePoint)
  | finished (result : MemoryResult)

namespace MemoryTxn

/-- The locks that a transaction holds. -/
def holds : MemoryTxn → List MemoryLock
  | .remember _ _ _ (.selected current) => current.toList.map (.row ·.id)
  | .remember _ _ _ (.superseded current) => [.row current.id]
  | .remember _ _ _ (.inserted current row) =>
      .entry row.identity :: .row row.id :: current.toList.map (.row ·.id)
  | .forget _ _ _ _ _ _ (.deleted row) => [.row row.id]
  | .expireDue _ _ _ (.expired rows) => rows.map (.row ·.id)
  | _ => []

/-- The committed rows that a transaction has written and not merely locked. -/
def written : MemoryTxn → List Nat
  | .remember _ _ _ (.superseded current) => [current.id]
  | .remember _ _ _ (.inserted current _) => current.toList.map MemoryRow.id
  | .forget _ _ _ _ _ _ (.deleted row) => [row.id]
  | .expireDue _ _ _ (.expired rows) => rows.map MemoryRow.id
  | _ => []

/-- The rows that a transaction commits next, each with its record. -/
def writes (env : EventEnv) : MemoryTxn → Option (List RecordedWrite)
  | .remember scope memory now (.inserted current row) =>
      some ((current.toList.map fun old =>
        (old.supersede now, supersededEvent scope memory old))
        ++ [(row, insertedEvent env scope memory row)])
  | .forget scope key reason sourceTraceId sourceKind now (.deleted row) =>
      some [(row.delete now,
        forgottenEvent scope (strip key) reason sourceTraceId sourceKind row)]
  | .expireDue _ _ now (.expired rows) =>
      some (rows.map fun row => (row.expire now, expiredEvent row))
  | _ => none

end MemoryTxn

structure MemoryState where
  db : MemoryDb
  txns : List MemoryTxn := []

/-! ## Statements -/

section Statements

variable (env : EventEnv) (db : MemoryDb) (free : MemoryLock → Bool) (unwritten : Nat → Bool)

/-- A locked row, if it still is the active row of the identity. -/
def MemoryDb.recheck (db : MemoryDb) (identity : MemoryIdentity) (id : Nat) : Option MemoryRow :=
  (Transactions.find MemoryRow.id db.tables.rows id).filter fun row =>
    row.active && row.identity = identity

/-- `INSERT INTO memory_items`. An entry of the unique index that another transaction has
added or is about to remove makes it wait. -/
def insertNext (scope : MemoryScope) (memory : MemoryWrite) (now : Time)
    (current : Option MemoryRow) : Option (MemoryDb × MemoryTxn) :=
  let identity := scope.identity memory.key
  let conflict := db.tables.rows.find? fun row =>
    row.active && row.identity = identity && current.all (row.id ≠ ·.id)
  let row := insertedRow env.toFloatEnv scope memory now current db.tables.nextId
  let db' := { db with tables := { db.tables with nextId := db.tables.nextId + 1 } }
  if !free (.entry identity) then none
  else match conflict with
    | some other =>
        if unwritten other.id then
          some (db', .finished (.raised "uq_memory_items_active_identity"))
        else none
    | none => some (db', .remember scope memory now (.inserted current row))

/-- The next statement of `remember`; `none` while it has to wait. -/
def rememberNext (scope : MemoryScope) (memory : MemoryWrite) (now : Time) :
    RememberPoint → Option (MemoryDb × MemoryTxn)
  | .begun =>
      match db.tables.current (scope.identity memory.key) with
      | none => some (db, .remember scope memory now (.selected none))
      | some row => some (db, .remember scope memory now (.selecting row.id))
  | .selecting id =>
      if free (.row id) then
        some (db, .remember scope memory now
          (.selected (db.recheck (scope.identity memory.key) id)))
      else none
  | .selected none => insertNext env db free unwritten scope memory now none
  | .selected (some current) =>
      if sameMemory memory current then some (db, .finished (.item current))
      else some (db, .remember scope memory now (.superseded current))
  | .superseded current => insertNext env db free unwritten scope memory now (some current)
  | .inserted current row =>
      let facts := if scope.legacy then
        setFact db.tables.facts scope.userId memory.key memory.value else db.tables.facts
      ((MemoryTxn.remember scope memory now (.inserted current row)).writes env).map fun writes =>
        (db.commit writes facts, .finished (.item row))

/-- The next statement of `forget`. -/
def forgetNext (scope : MemoryScope) (key : String) (reason sourceTraceId : Option String)
    (sourceKind : String) (now : Time) : ForgetPoint → Option (MemoryDb × MemoryTxn)
  | .begun =>
      if strip key = "" then some (db, .finished (.changed false))
      else match db.tables.current (scope.identity (strip key)) with
        | none => some (db, .finished (.changed false))
        | some row => some (db, .forget scope key reason sourceTraceId sourceKind now
            (.updating row.id))
  | .updating id =>
      if free (.row id) then
        match db.recheck (scope.identity (strip key)) id with
        | none => some (db, .finished (.changed false))
        | some row => some (db, .forget scope key reason sourceTraceId sourceKind now
            (.deleted row))
      else none
  | .deleted row =>
      let facts := if scope.legacy then
        removeFact db.tables.facts scope.userId (strip key) else db.tables.facts
      ((MemoryTxn.forget scope key reason sourceTraceId sourceKind now (.deleted row)).writes
        env).map fun writes => (db.commit writes facts, .finished (.changed true))

/-- The next statement of `expire_due`. Rows that another transaction has locked are
skipped. -/
def expireNext (tenantId : Option String) (limit : Int) (now : Time) :
    ExpirePoint → Option (MemoryDb × MemoryTxn)
  | .begun =>
      let due := ((db.tables.rows.filter (MemoryRow.due tenantId now)).insertionSort
        (dueBefore · ·)).filter fun row => free (.row row.id)
      some (db, .expireDue tenantId limit now (.expired (due.take (max 1 limit).toNat)))
  | .expired rows =>
      ((MemoryTxn.expireDue tenantId limit now (.expired rows)).writes env).map fun writes =>
        (db.commit writes db.tables.facts, .finished (.count rows.length))

def MemoryTxn.next : MemoryTxn → Option (MemoryDb × MemoryTxn)
  | .remember scope memory now point =>
      rememberNext env db free unwritten scope memory now point
  | .forget scope key reason sourceTraceId sourceKind now point =>
      forgetNext env db free scope key reason sourceTraceId sourceKind now point
  | .expireDue tenantId limit now point => expireNext env db free tenantId limit now point
  | .finished _ => none

end Statements

/-! ## Runs -/

inductive MemoryRequest where
  | remember (scope : MemoryScope) (memory : MemoryWrite) (now : Time)
  | forget (scope : MemoryScope) (key : String) (reason sourceTraceId : Option String)
      (sourceKind : String) (now : Time)
  | expireDue (tenantId : Option String) (limit : Int) (now : Time)

def MemoryRequest.txn : MemoryRequest → MemoryTxn
  | .remember scope memory now => .remember scope memory now .begun
  | .forget scope key reason sourceTraceId sourceKind now =>
      .forget scope key reason sourceTraceId sourceKind now .begun
  | .expireDue tenantId limit now => .expireDue tenantId limit now .begun

/-- A call begins, a transaction executes its next statement, or it fails and is rolled
back. -/
inductive MemoryAction where
  | call (request : MemoryRequest)
  | next (i : Nat)
  | lose (i : Nat)

def memoryTxnStep (env : EventEnv) (s : MemoryState) : MemoryAction → Option MemoryState
  | .call request => some { s with txns := s.txns ++ [request.txn] }
  | .next i => do
      let txn ← s.txns[i]?
      let (db, txn') ← txn.next env s.db (Transactions.free MemoryTxn.holds s.txns i)
        (Transactions.free MemoryTxn.written s.txns i)
      return ⟨db, s.txns.set i txn'⟩
  | .lose i => do
      let _ ← s.txns[i]?
      return { s with txns := s.txns.set i (.finished .connectionLost) }

end Aegora
