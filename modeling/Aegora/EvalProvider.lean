import Aegora.MemoryMigration
import Aegora.MemoryService
import Aegora.Runs

/-!
# The evaluation provider mirrors the native one

`InMemoryEvalProvider` keeps its items in a list, the native provider its rows in
a table. Both are read as one table of stored memories (`StoredMemory`): a write
retires the current memory of its identity and appends a new one, a deletion
retires it. So calls that write the same keep the two tables the same, and equal
tables give equal answers.

What the two write is not always the same. The native provider falls back to the
agent of the scope where a write names no source agent, reads an empty namespace
back as `preferences`, and has a table that allows five memory types.
-/

namespace Aegora

open Py

/-! ## The evaluation provider -/

/-- An item of the evaluation provider, its metadata as fields. -/
structure EvalItem where
  memoryId : String
  memoryType : String
  key : String
  content : String
  scope : ScopeKind
  nameSpace : String
  version : Nat
  sourceAgentId : Option String
  sourceKind : SourceKind
  tenantId : String
  userId : String
  agentId : Option String
  sourceSessionId : Option String
  sourceTraceId : Option String
  confidence : ℚ
  importance : ℚ
  status : RowStatus
deriving DecidableEq

/-- `InMemoryEvalProvider`. -/
structure EvalProvider where
  items : List EvalItem := []
  nextId : Nat := 1

/-- `_same_user`. -/
def sameUser (item : EvalItem) (scope : MemoryScope) : Bool :=
  textOr item.tenantId "default" = scope.tenant && item.userId = scope.userId

/-- `str(item.metadata.get("agent_id") or "") == str(scope.agent_id or "")`. -/
def sameAgent (item : EvalItem) (scope : MemoryScope) : Bool :=
  item.agentId.getD "" = scope.agentId.getD ""

/-- The condition of `get_current`. -/
def evalMatches (scope : MemoryScope) (key : String) (item : EvalItem) : Bool :=
  item.key = key && item.nameSpace = scope.nameSpace && item.scope = scope.memoryScope
    && sameUser item scope && item.status = .active
    && (item.scope ≠ .userAgent || sameAgent item scope)

/-- `max(matches, key=lambda item: item.version) if matches else None`. -/
def newestItem : List EvalItem → Option EvalItem
  | [] => none
  | item :: rest =>
      some (rest.foldl (fun best item => if best.version < item.version then item else best) item)

/-- The condition of `recall`. -/
def evalVisible (scope : MemoryScope) (item : EvalItem) : Bool :=
  sameUser item scope && item.status = .active
    && ((item.scope = .userGlobal || item.scope = .tenantUser)
      || (item.scope = .userAgent && sameAgent item scope))

/-- `(importance, version)` in reverse; equal items keep their order. -/
def evalBefore (a b : EvalItem) : Bool :=
  if a.importance ≠ b.importance then b.importance < a.importance else b.version ≤ a.version

namespace EvalProvider

def getCurrent (provider : EvalProvider) (scope : MemoryScope) (key : String) : Option EvalItem :=
  newestItem (provider.items.filter (evalMatches scope key))

def «recall» (provider : EvalProvider) (scope : MemoryScope) (limit : Int) : List EvalItem :=
  takeSlice limit ((provider.items.filter (evalVisible scope)).insertionSort (evalBefore · ·))

/-- `item.metadata["status"] = status`, for the item that `get_current` has returned. -/
def setStatus (provider : EvalProvider) (item : EvalItem) (status : RowStatus) : List EvalItem :=
  provider.items.map fun other =>
    if other.memoryId = item.memoryId then { other with status := status } else other

/-- The item that `remember` appends after `current`. -/
def newItem (provider : EvalProvider) (scope : MemoryScope) (memory : MemoryWrite)
    (memoryType : String) (current : Option EvalItem) : EvalItem where
  memoryId := toString provider.nextId
  memoryType := memoryType
  key := memory.key
  content := memory.value
  scope := scope.memoryScope
  nameSpace := scope.nameSpace
  version := (current.map fun item => item.version + 1).getD 1
  sourceAgentId := memory.sourceAgentId
  sourceKind := memory.sourceKind
  tenantId := scope.tenant
  userId := scope.userId
  agentId := scope.rowAgent
  sourceSessionId := memory.sourceSessionId
  sourceTraceId := memory.sourceTraceId
  confidence := memory.confidence
  importance := memory.importance
  status := .active

def remember (provider : EvalProvider) (scope : MemoryScope) (memory : MemoryWrite)
    (memoryType : String) : EvalProvider × EvalItem :=
  match provider.getCurrent scope memory.key with
  | none =>
      let item := provider.newItem scope memory memoryType none
      ({ items := provider.items ++ [item], nextId := provider.nextId + 1 }, item)
  | some current =>
      if current.content = memory.value then (provider, current)
      else
        let item := provider.newItem scope memory memoryType (some current)
        ({ items := provider.setStatus current .superseded ++ [item]
           nextId := provider.nextId + 1 }, item)

def forget (provider : EvalProvider) (scope : MemoryScope) (key : String) : EvalProvider × Bool :=
  match provider.getCurrent scope key with
  | none => (provider, false)
  | some current => ({ provider with items := provider.setStatus current .deleted }, true)

end EvalProvider

/-! ## The native provider on a write of any memory type -/

/-- A memory type that the table allows. -/
def MemoryType.parse (text : String) : Option MemoryType :=
  if text = "semantic" then some .semantic
  else if text = "episodic" then some .episodic
  else if text = "procedural_candidate" then some .proceduralCandidate
  else if text = "profile" then some .profile
  else if text = "summary" then some .summary
  else none

/-- `remember`; a row that the table refuses has taken an id, and is rolled back. -/
def nativeRemember (env : FloatEnv) (scope : MemoryScope) (memory : MemoryWrite)
    (memoryType : String) (now : Time) (t : MemoryTables) : MemoryTables × Option MemoryRow :=
  match MemoryType.parse memoryType with
  | some kind =>
      let result := Aegora.remember env scope { memory with memoryType := kind } now t
      (result.1, some result.2)
  | none =>
      match t.current (scope.identity memory.key) with
      | some current =>
          if sameMemory memory current then (t, some current)
          else ({ t with nextId := t.nextId + 1 }, none)
      | none => ({ t with nextId := t.nextId + 1 }, none)

/-! ## Calls to both -/

/-- A call with a trimmed key, and a write without an end. -/
inductive EvalCall where
  | remember (scope : MemoryScope) (memory : MemoryWrite) (memoryType : String) (now : Time)
      (unending : memory.expiresAt = none)
  | forget (scope : MemoryScope) (key : String) (now : Time) (trimmed : strip key = key)
  | getCurrent (scope : MemoryScope) (key : String) (now : Time) (trimmed : strip key = key)

structure EvalPair where
  eval : EvalProvider := {}
  tables : MemoryTables := {}

def evalStep (env : FloatEnv) (s : EvalPair) : EvalCall → Option EvalPair
  | .remember scope memory memoryType now _ =>
      some {
        eval := (s.eval.remember scope memory memoryType).1
        tables := (nativeRemember env scope memory memoryType now s.tables).1 }
  | .forget scope key now _ =>
      some {
        eval := (s.eval.forget scope key).1
        tables := (Aegora.forget scope key now s.tables).1 }
  | .getCurrent _ _ _ _ => some s

/-- What is compared of an item. -/
structure EvalView where
  key : String
  content : String
  version : Nat
  scope : String
  nameSpace : String
  sourceKind : String
  sourceAgentId : Option String
deriving DecidableEq

def MemoryItem.evalView (item : MemoryItem) : EvalView where
  key := item.key
  content := item.content
  version := item.version
  scope := item.scope
  nameSpace := item.nameSpace
  sourceKind := item.sourceKind
  sourceAgentId := item.sourceAgentId

def EvalItem.evalView (item : EvalItem) : EvalView where
  key := item.key
  content := item.content
  version := item.version
  scope := item.scope.text
  nameSpace := item.nameSpace
  sourceKind := item.sourceKind.text
  sourceAgentId := item.sourceAgentId

/-- Both providers give the same answers: to every `get_current` of a trimmed key, and to
every `recall` whose limit is at least the number of stored items, up to the order. -/
structure AnswersMatch (env : FloatEnv) (s : EvalPair) : Prop where
  current : ∀ scope key now, strip key = key →
    (s.eval.getCurrent scope key).map EvalItem.evalView
      = (Aegora.getCurrent scope key now s.tables).map fun row => (rowToItem env row).evalView
  recalled : ∀ (scope : MemoryScope) (limit : Int) (now : Time),
    s.eval.items.length ≤ limit → s.tables.rows.length ≤ limit →
    ((s.eval.recall scope limit).map EvalItem.evalView).Perm
      ((recallRows scope limit now s.tables).map fun row => (rowToItem env row).evalView)

/-- The write names its source agent, or there is none to name. -/
def NamesSource (scope : MemoryScope) (memory : MemoryWrite) : Prop :=
  memory.sourceAgentId.elim (nonEmpty scope.agentId = none) (· ≠ "")

/-- The call writes the same to both: it repeats what is current, or its memory type, its
namespace and its source agent are ones that both providers keep. -/
def WritesAlike (s : EvalPair) : EvalCall → Prop
  | .remember scope memory memoryType _ _ =>
      Duplicate s.tables scope memory
        ∨ (MemoryType.parse memoryType).isSome ∧ scope.nameSpace ≠ "" ∧ NamesSource scope memory
  | _ => True

end Aegora
