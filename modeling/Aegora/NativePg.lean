import Mathlib.Data.List.Sort
import Aegora.MemoryModels
import Aegora.VersionedTable

/-!
# The native PostgreSQL memory provider

`memory_items` keeps every version of a memory, at most one of them active for
each identity; `user_memories.facts` is the older store, keyed by the user
alone, that `remember` and `forget` keep writing. The backfill of the schema
migration reads it back into `memory_items`.

Each operation runs in one transaction, so it is a function of the tables. It
is stated once what each does to the active rows (`current`) and to the facts;
the constraints of the schema are kept by all of them.
-/

namespace Aegora

open Py

/-! ## Tables -/

inductive RowStatus where
  | active
  | superseded
  | deleted
  | expired
deriving DecidableEq, Repr

/-- A row of `memory_items`. -/
structure MemoryRow where
  id : Nat
  tenantId : String
  subjectUserId : String
  scope : ScopeKind
  nameSpace : String
  agentId : Option String
  memoryType : MemoryType
  key : String
  content : String
  sourceAgentId : Option String
  sourceSessionId : Option String
  sourceTraceId : Option String
  sourceKind : SourceKind
  confidence : ℚ
  importance : ℚ
  status : RowStatus
  version : Nat
  supersedesId : Option Nat
  validFrom : Time
  validUntil : Option Time
  createdAt : Time
  updatedAt : Time
deriving DecidableEq

/-- The columns of the index `uq_memory_items_active_identity`, with the agent
column as `COALESCE(agent_id, '')`. -/
structure MemoryIdentity where
  tenantId : String
  userId : String
  scope : ScopeKind
  nameSpace : String
  agentId : String
  key : String
deriving DecidableEq

def MemoryRow.identity (row : MemoryRow) : MemoryIdentity where
  tenantId := row.tenantId
  userId := row.subjectUserId
  scope := row.scope
  nameSpace := row.nameSpace
  agentId := row.agentId.getD ""
  key := row.key

/-- `status = 'active'`. -/
def MemoryRow.active (row : MemoryRow) : Bool := row.status = .active

/-- `valid_until IS NULL OR valid_until > now()`. -/
def MemoryRow.unexpired (now : Time) (row : MemoryRow) : Bool :=
  row.validUntil.all (now < ·)

/-- The identity that an operation of a scope addresses. -/
def MemoryScope.identity (scope : MemoryScope) (key : String) : MemoryIdentity where
  tenantId := scope.tenant
  userId := scope.userId
  scope := scope.memoryScope
  nameSpace := scope.nameSpace
  agentId := scope.rowAgent.getD ""
  key := key

/-- The facts of one user, as `jsonb_each_text` reads them. -/
abbrev Facts := List (String × String)

/-- The text of a fact in `user_memories`. -/
def factIn (facts : List (String × Facts)) (userId key : String) : Option String :=
  (Dict.get? facts userId).bind fun entries => Dict.get? entries key

/-- `memory_items` in the order of its ids, `user_memories`, and the sequence
that hands out the ids. -/
structure MemoryTables where
  rows : List MemoryRow := []
  facts : List (String × Facts) := []
  nextId : Nat := 1

namespace MemoryTables

/-- The active row of an identity. -/
def current (t : MemoryTables) (identity : MemoryIdentity) : Option MemoryRow :=
  VersionedTable.current MemoryRow.identity MemoryRow.active t.rows identity

/-- The fact of a user under a key. -/
def fact (t : MemoryTables) (userId key : String) : Option String := factIn t.facts userId key

end MemoryTables

/-! ## Floats -/

/-- Floating point, left open: how a double is rounded into a `real` column,
and the text that `repr` gives for one. -/
structure FloatEnv where
  real : ℚ → ℚ
  repr : ℚ → String

/-! ## Reading -/

/-- `str(value or default)` of a text. -/
def textOr (value fallback : String) : String := if value = "" then fallback else value

/-- `value` unless it is null or the empty text. -/
def nonEmpty (value : Option String) : Option String :=
  value.bind fun text => if text = "" then none else some text

/-- `_row_to_item`. -/
def rowToItem (env : FloatEnv) (row : MemoryRow) : MemoryItem where
  memoryId := toString row.id
  memoryType := row.memoryType.text
  key := row.key
  content := row.content
  scope := row.scope.text
  nameSpace := textOr row.nameSpace "preferences"
  version := if row.version = 0 then 1 else row.version
  sourceAgentId := nonEmpty row.sourceAgentId
  sourceKind := row.sourceKind.text
  metadata :=
    [("tenant_id", .str row.tenantId),
     ("user_id", .str row.subjectUserId),
     ("agent_id", (row.agentId.map Json.str).getD .null),
     ("source_session_id", (row.sourceSessionId.map Json.str).getD .null),
     ("source_trace_id", (row.sourceTraceId.map Json.str).getD .null),
     ("confidence", .float (env.repr row.confidence)),
     ("importance", .float (env.repr row.importance)),
     ("supersedes_id", (row.supersedesId.map fun id : Nat => Json.int id).getD .null),
     ("valid_from", .int row.validFrom),
     ("valid_until", (row.validUntil.map Json.int).getD .null)].filter
      fun entry => decide (entry.2 ≠ .null)

/-- The `WHERE` of `recall`. -/
def recallable (scope : MemoryScope) (now : Time) (row : MemoryRow) : Bool :=
  row.tenantId = scope.tenant && row.subjectUserId = scope.userId && row.active
    && row.unexpired now
    && (row.scope = .userGlobal || row.scope = .tenantUser
      || (row.scope = .userAgent && scope.agentId.any fun agentId => row.agentId = some agentId))

/-- `ORDER BY importance DESC, updated_at DESC, id DESC`. -/
def recallBefore (a b : MemoryRow) : Bool :=
  if a.importance ≠ b.importance then b.importance < a.importance
  else if a.updatedAt ≠ b.updatedAt then b.updatedAt < a.updatedAt
  else b.id ≤ a.id

/-- The rows that `recall` selects. -/
def recallRows (scope : MemoryScope) (limit : Int) (now : Time) (t : MemoryTables) :
    List MemoryRow :=
  ((t.rows.filter (recallable scope now)).insertionSort (recallBefore · ·)).take
    (max limit 1).toNat

/-- `get_current`. -/
def getCurrent (scope : MemoryScope) (key : String) (now : Time) (t : MemoryTables) :
    Option MemoryRow :=
  if strip key = "" then none
  else
    ((t.rows.filter fun row =>
        row.identity = scope.identity (strip key) && row.active && row.unexpired now).insertionSort
      fun a b => b.id ≤ a.id).head?

/-! ## Writing -/

/-- What becomes of a row that a new version replaces. -/
def MemoryRow.supersede (now : Time) (row : MemoryRow) : MemoryRow :=
  { row with status := .superseded, validUntil := some (row.validUntil.getD now), updatedAt := now }

/-- The row that `remember` inserts after `current`. -/
def insertedRow (env : FloatEnv) (scope : MemoryScope) (memory : MemoryWrite) (now : Time)
    (current : Option MemoryRow) (id : Nat) : MemoryRow where
  id := id
  tenantId := scope.tenant
  subjectUserId := scope.userId
  scope := scope.memoryScope
  nameSpace := scope.nameSpace
  agentId := scope.rowAgent
  memoryType := memory.memoryType
  key := memory.key
  content := memory.value
  sourceAgentId := (nonEmpty memory.sourceAgentId).or scope.agentId
  sourceSessionId := (nonEmpty memory.sourceSessionId).or scope.sessionId
  sourceTraceId := memory.sourceTraceId
  sourceKind := memory.sourceKind
  confidence := env.real memory.confidence
  importance := env.real memory.importance
  status := .active
  version := (current.map fun row => row.version + 1).getD 1
  supersedesId := current.map MemoryRow.id
  validFrom := now
  validUntil := memory.expiresAt
  createdAt := now
  updatedAt := now

/-- The operations of this scope are written to `user_memories` as well. -/
def MemoryScope.legacy (scope : MemoryScope) : Bool :=
  scope.memoryScope = .userGlobal && scope.nameSpace = "preferences"

/-- `INSERT INTO user_memories … ON CONFLICT … facts || {key: value}`. -/
def setFact (facts : List (String × Facts)) (userId key value : String) :
    List (String × Facts) :=
  Dict.set facts userId (Dict.set ((Dict.get? facts userId).getD []) key value)

/-- `UPDATE user_memories SET facts = facts - key`. -/
def removeFact (facts : List (String × Facts)) (userId key : String) : List (String × Facts) :=
  facts.map fun entry =>
    if entry.1 = userId then (entry.1, entry.2.filter fun kv => decide (kv.1 ≠ key)) else entry

/-- The current row already says what `memory` would. -/
def sameMemory (memory : MemoryWrite) (current : MemoryRow) : Bool :=
  current.content = memory.value && current.validUntil = memory.expiresAt

/-- The new version that `remember` writes after `current`, if there is one. -/
def insertVersion (env : FloatEnv) (scope : MemoryScope) (memory : MemoryWrite) (now : Time)
    (current : Option MemoryRow) (t : MemoryTables) : MemoryTables × MemoryRow :=
  let inserted := insertedRow env scope memory now current t.nextId
  let rows := VersionedTable.retire (fun row => current.any fun old => row.id = old.id)
    (MemoryRow.supersede now) t.rows
  ({ rows := rows ++ [inserted]
     facts := if scope.legacy then setFact t.facts scope.userId memory.key memory.value
       else t.facts
     nextId := t.nextId + 1 }, inserted)

/-- `remember`; the row it returns comes with the tables. -/
def remember (env : FloatEnv) (scope : MemoryScope) (memory : MemoryWrite) (now : Time)
    (t : MemoryTables) : MemoryTables × MemoryRow :=
  match t.current (scope.identity memory.key) with
  | none => insertVersion env scope memory now none t
  | some current =>
      if sameMemory memory current then (t, current)
      else insertVersion env scope memory now (some current) t

/-- What becomes of a forgotten row. -/
def MemoryRow.delete (now : Time) (row : MemoryRow) : MemoryRow :=
  { row with status := .deleted, validUntil := some now, updatedAt := now }

/-- `forget`. -/
def forget (scope : MemoryScope) (key : String) (now : Time) (t : MemoryTables) :
    MemoryTables × Bool :=
  if strip key = "" then (t, false)
  else
    let identity := scope.identity (strip key)
    let changed := (t.current identity).isSome
    ({ t with
        rows := VersionedTable.retire (fun row => decide (row.identity = identity) && row.active)
          (MemoryRow.delete now) t.rows
        facts := if changed && scope.legacy then removeFact t.facts scope.userId (strip key)
          else t.facts }, changed)

/-- What becomes of a row whose time is over. -/
def MemoryRow.expire (now : Time) (row : MemoryRow) : MemoryRow :=
  { row with status := .expired, updatedAt := now }

/-- The rows that a sweep may expire, of one tenant or of all. -/
def MemoryRow.due (tenantId : Option String) (now : Time) (row : MemoryRow) : Bool :=
  row.active && row.validUntil.any (· ≤ now) && tenantId.all (row.tenantId = ·)

/-- `ORDER BY valid_until ASC, id ASC`. -/
def dueBefore (a b : MemoryRow) : Bool :=
  if a.validUntil.getD 0 ≠ b.validUntil.getD 0 then
    a.validUntil.getD 0 < b.validUntil.getD 0
  else a.id ≤ b.id

/-- The rows that one sweep expires. -/
def dueRows (tenantId : Option String) (limit : Int) (now : Time) (t : MemoryTables) :
    List MemoryRow :=
  ((t.rows.filter (MemoryRow.due tenantId now)).insertionSort (dueBefore · ·)).take
    (max 1 limit).toNat

/-- `expire_due`. -/
def expireDue (tenantId : Option String) (limit : Int) (now : Time) (t : MemoryTables) :
    MemoryTables × Nat :=
  let due := dueRows tenantId limit now t
  ({ t with
      rows := VersionedTable.retire (fun row => decide (row.id ∈ due.map MemoryRow.id))
        (MemoryRow.expire now) t.rows }, due.length)

/-! ## The backfill of the schema migration -/

/-- The identity of a fact in `memory_items`. -/
def legacyIdentity (userId key : String) : MemoryIdentity where
  tenantId := "default"
  userId := userId
  scope := .userGlobal
  nameSpace := "preferences"
  agentId := ""
  key := key

def backfilledRow (now : Time) (userId key value : String) (id : Nat) : MemoryRow where
  id := id
  tenantId := "default"
  subjectUserId := userId
  scope := .userGlobal
  nameSpace := "preferences"
  agentId := none
  memoryType := .semantic
  key := key
  content := value
  sourceAgentId := some "legacy"
  sourceSessionId := none
  sourceTraceId := none
  sourceKind := .legacy
  confidence := 1
  importance := 1 / 2
  status := .active
  version := 1
  supersedesId := none
  validFrom := now
  validUntil := none
  createdAt := now
  updatedAt := now

/-- `user_memories CROSS JOIN LATERAL jsonb_each_text(facts)`. -/
def allFacts (t : MemoryTables) : List (String × String × String) :=
  t.facts.flatMap fun entry => entry.2.map fun kv => (entry.1, kv.1, kv.2)

/-- The `WHERE NOT EXISTS` of the backfill. -/
def lacksRow (t : MemoryTables) (userId key : String) : Bool :=
  !t.rows.any fun row =>
    row.tenantId = "default" && row.subjectUserId = userId && row.scope = .userGlobal
      && row.nameSpace = "preferences" && row.agentId = none && row.key = key && row.active

/-- The rows that the backfill inserts. -/
def backfilledRows (now : Time) (t : MemoryTables) : List MemoryRow :=
  (((allFacts t).filter fun fact => lacksRow t fact.1 fact.2.1).zipIdx t.nextId).map
    fun entry => backfilledRow now entry.1.1 entry.1.2.1 entry.1.2.2 entry.2

/-- The part of `apply_schema` that touches memories. -/
def migrate (now : Time) (t : MemoryTables) : MemoryTables :=
  let inserted := backfilledRows now t
  { t with rows := t.rows ++ inserted, nextId := t.nextId + inserted.length }

end Aegora
