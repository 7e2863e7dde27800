import Aegora.PyJson
import Aegora.Transactions

/-!
# Workflow versions and the tools row that runs them

The three writers of the workflow lifecycle, statement by statement:
`publish_workflow_version`, `retire_workflow_version` and `update_tool_status`.
Each runs in a transaction of its own at the isolation level READ COMMITTED. A
statement sees what is committed and what its own transaction has written; the
writes of the others become visible when they commit. A statement that needs a
lock waits until it is free and then looks at the row as it is.

Of the columns, the times are left out. The columns of `tools` that no
statement below asks about are carried along as they come.
-/

namespace Aegora

open Py

/-! ## Tables -/

/-- `lifecycle_status`. -/
inductive LifecycleStatus where
  | active
  | retired
deriving DecidableEq, Repr

/-- A row of `workflow_versions`. -/
structure WorkflowVersion where
  workflowId : String
  version : String
  lifecycleStatus : LifecycleStatus
  manifestJson : Json
  manifestHash : String
  createdBy : String
  activatedBy : String
  retiredBy : Option String := none
deriving DecidableEq

/-- The primary key of `workflow_versions`. -/
def WorkflowVersion.key (row : WorkflowVersion) : String × String := (row.workflowId, row.version)

/-- A tool definition, as a request and as a row of `tools`. -/
structure ToolDefinition where
  toolId : String
  source : String
  version : String
  status : String
  manifestHash : String
  fields : Dict := []
deriving DecidableEq

/-- `tool.model_dump(mode="json")`. -/
def ToolDefinition.modelDump (tool : ToolDefinition) : Json :=
  .obj ([("tool_id", .str tool.toolId), ("source", .str tool.source),
    ("version", .str tool.version), ("status", .str tool.status),
    ("manifest_hash", .str tool.manifestHash)] ++ tool.fields)

structure WorkflowDb where
  versions : List WorkflowVersion := []
  tools : List ToolDefinition := []

namespace WorkflowDb

def version? (db : WorkflowDb) (workflowId version : String) : Option WorkflowVersion :=
  Transactions.find WorkflowVersion.key db.versions (workflowId, version)

def tool? (db : WorkflowDb) (toolId : String) : Option ToolDefinition :=
  Transactions.find ToolDefinition.toolId db.tools toolId

/-- Make the writes of a transaction visible. -/
def commit (db : WorkflowDb) (versions : List WorkflowVersion) (tool : Option ToolDefinition) :
    WorkflowDb where
  versions := Transactions.putAll WorkflowVersion.key db.versions versions
  tools := Transactions.putAll ToolDefinition.toolId db.tools tool.toList

end WorkflowDb

/-! ## Transactions -/

/-- `compute_tool_manifest_hash` and the `hashtext` of the database. -/
structure WorkflowEnv where
  computeToolManifestHash : ToolDefinition → String
  hashtext : String → Int

/-- What a statement may have to wait for. -/
inductive WorkflowLock where
  | advisory (key : Int)
  | version (key : String × String)
  | tool (toolId : String)
deriving DecidableEq

/-- How far a publication has come: the statement it has executed last, with what it
has read and written. -/
inductive PublishPoint where
  | begun
  | locked
  | selected (existing : Bool)
  | superseded (existing : Bool) (rows : List WorkflowVersion)
  | activated (rows : List WorkflowVersion)
  | projected (rows : List WorkflowVersion)
deriving DecidableEq

/-- How far a retirement has come. -/
inductive RetirePoint where
  | begun
  | selected (status : LifecycleStatus)
  | retired (status : LifecycleStatus) (row : WorkflowVersion)
  | projected (row : WorkflowVersion) (tool : Option ToolDefinition)
deriving DecidableEq

/-- How far a change of a tool's status has come. -/
inductive TogglePoint where
  | begun
  | updated (tool : Option ToolDefinition)
deriving DecidableEq

/-- What the caller gets: a version, whether a row was updated, or an exception. -/
inductive WorkflowResult where
  | version (row : Option WorkflowVersion)
  | updated (found : Bool)
  | raised (detail : String)
  | connectionLost
deriving DecidableEq

inductive WorkflowTxn where
  | publish (tool : ToolDefinition) (actorId : String) (point : PublishPoint)
  | retire (workflowId version actorId : String) (point : RetirePoint)
  | toggle (toolId status : String) (point : TogglePoint)
  | finished (result : WorkflowResult)
deriving DecidableEq

/-- The locks that a transaction holds. -/
def WorkflowTxn.holds (env : WorkflowEnv) : WorkflowTxn → List WorkflowLock
  | .publish tool _ point =>
      let advisory := WorkflowLock.advisory (env.hashtext tool.toolId)
      let version := WorkflowLock.version (tool.toolId, tool.version)
      match point with
      | .begun => []
      | .locked => [advisory]
      | .selected existing => advisory :: if existing then [version] else []
      | .superseded existing rows =>
          advisory :: (if existing then [version] else []) ++ rows.map (.version ·.key)
      | .activated rows => advisory :: rows.map (.version ·.key)
      | .projected rows => advisory :: .tool tool.toolId :: rows.map (.version ·.key)
  | .retire workflowId version _ point =>
      match point with
      | .begun => []
      | .selected _ | .retired _ _ => [.version (workflowId, version)]
      | .projected _ tool =>
          .version (workflowId, version) :: tool.toList.map (.tool ·.toolId)
  | .toggle _ _ (.updated tool) => tool.toList.map (.tool ·.toolId)
  | .toggle _ _ .begun | .finished _ => []

structure WorkflowState where
  db : WorkflowDb
  txns : List WorkflowTxn := []

/-! ## Statements -/

section Statements

variable (env : WorkflowEnv) (db : WorkflowDb) (free : WorkflowLock → Bool)

/-- The hash that a publication goes by. -/
def publishedHash (tool : ToolDefinition) : String :=
  if tool.manifestHash = "" then env.computeToolManifestHash tool else tool.manifestHash

/-- `tool.model_copy(update={"manifest_hash": manifest_hash})`. -/
def immutableTool (tool : ToolDefinition) : ToolDefinition :=
  { tool with manifestHash := publishedHash env tool }

/-- The active versions that a publication supersedes. -/
def supersededVersions (tool : ToolDefinition) : List WorkflowVersion :=
  db.versions.filter fun row =>
    row.workflowId = tool.toolId && row.lifecycleStatus = .active && row.version ≠ tool.version

def WorkflowVersion.supersede (actorId : String) (row : WorkflowVersion) : WorkflowVersion :=
  { row with lifecycleStatus := .retired, retiredBy := some actorId }

/-- The row that `INSERT INTO workflow_versions` writes. -/
def insertedVersion (tool : ToolDefinition) (actorId : String) : WorkflowVersion where
  workflowId := tool.toolId
  version := tool.version
  lifecycleStatus := .active
  manifestJson := (immutableTool env tool).modelDump
  manifestHash := publishedHash env tool
  createdBy := actorId
  activatedBy := actorId

def WorkflowVersion.activate (actorId : String) (row : WorkflowVersion) : WorkflowVersion :=
  { row with lifecycleStatus := .active, activatedBy := actorId, retiredBy := none }

def WorkflowVersion.retire (actorId : String) (row : WorkflowVersion) : WorkflowVersion :=
  { row with lifecycleStatus := .retired, retiredBy := some (row.retiredBy.getD actorId) }

/-- What the caller of a publication is told. -/
def publishedVersion (tool : ToolDefinition) (rows : List WorkflowVersion) :
    Option WorkflowVersion :=
  rows.find? fun row => row.key = (tool.toolId, tool.version)

/-- The next statement of `publish_workflow_version`; `none` while it has to wait. -/
def publishNext (tool : ToolDefinition) (actorId : String) :
    PublishPoint → Option (WorkflowDb × WorkflowTxn)
  | .begun =>
      if tool.source ≠ "workflow" then
        some (db, .finished (.raised "仅 workflow 工具支持版本发布"))
      else if free (.advisory (env.hashtext tool.toolId)) then
        some (db, .publish tool actorId .locked)
      else none
  | .locked =>
      match db.version? tool.toolId tool.version with
      | none => some (db, .publish tool actorId (.selected false))
      | some existing =>
          if !free (.version existing.key) then none
          else if existing.manifestHash ≠ publishedHash env tool then
            some (db, .finished (.raised
              ("Workflow 版本 " ++ tool.toolId ++ "@" ++ tool.version ++ " 已发布且内容不可变")))
          else some (db, .publish tool actorId (.selected true))
  | .selected existing =>
      let rows := supersededVersions db tool
      if rows.all fun row => free (.version row.key) then
        some (db, .publish tool actorId (.superseded existing (rows.map (·.supersede actorId))))
      else none
  | .superseded existing rows =>
      if existing then
        let row := (db.version? tool.toolId tool.version).map (·.activate actorId)
        some (db, .publish tool actorId (.activated (rows ++ row.toList)))
      else if !free (.version (tool.toolId, tool.version)) then none
      else if (db.version? tool.toolId tool.version).isSome then
        some (db, .finished (.raised "workflow_versions_pkey"))
      else
        some (db, .publish tool actorId (.activated (rows ++ [insertedVersion env tool actorId])))
  | .activated rows =>
      if free (.tool tool.toolId) then some (db, .publish tool actorId (.projected rows)) else none
  | .projected rows =>
      some (db.commit rows (some (immutableTool env tool)),
        .finished (.version (publishedVersion tool rows)))

/-- The next statement of `retire_workflow_version`. -/
def retireNext (workflowId version actorId : String) :
    RetirePoint → Option (WorkflowDb × WorkflowTxn)
  | .begun =>
      match db.version? workflowId version with
      | none => some (db, .finished (.version none))
      | some row =>
          if free (.version row.key) then
            some (db, .retire workflowId version actorId (.selected row.lifecycleStatus))
          else none
  | .selected status =>
      match db.version? workflowId version with
      | none => some (db, .finished (.version none))
      | some row =>
          some (db, .retire workflowId version actorId (.retired status (row.retire actorId)))
  | .retired status row =>
      match db.tool? workflowId with
      | none => some (db, .retire workflowId version actorId (.projected row none))
      | some tool =>
          if status = .active ∧ tool.source = "workflow" ∧ tool.version = version then
            if free (.tool workflowId) then
              some (db, .retire workflowId version actorId
                (.projected row (some { tool with status := "disabled" })))
            else none
          else some (db, .retire workflowId version actorId (.projected row none))
  | .projected row tool => some (db.commit [row] tool, .finished (.version (some row)))

/-- The next statement of `update_tool_status`. -/
def toggleNext (toolId status : String) : TogglePoint → Option (WorkflowDb × WorkflowTxn)
  | .begun =>
      if status ≠ "active" ∧ status ≠ "disabled" then
        some (db, .finished (.raised "status 只能是 active 或 disabled"))
      else match db.tool? toolId with
        | none => some (db, .toggle toolId status (.updated none))
        | some tool =>
            if free (.tool toolId) then
              some (db, .toggle toolId status (.updated (some { tool with status := status })))
            else none
  | .updated tool => some (db.commit [] tool, .finished (.updated tool.isSome))

def WorkflowTxn.next : WorkflowTxn → Option (WorkflowDb × WorkflowTxn)
  | .publish tool actorId point => publishNext env db free tool actorId point
  | .retire workflowId version actorId point => retireNext db free workflowId version actorId point
  | .toggle toolId status point => toggleNext db free toolId status point
  | .finished _ => none

end Statements

/-! ## Runs -/

inductive WorkflowRequest where
  | publish (tool : ToolDefinition) (actorId : String)
  | retire (workflowId version actorId : String)
  | toggle (toolId status : String)
deriving DecidableEq

def WorkflowRequest.txn : WorkflowRequest → WorkflowTxn
  | .publish tool actorId => .publish tool actorId .begun
  | .retire workflowId version actorId => .retire workflowId version actorId .begun
  | .toggle toolId status => .toggle toolId status .begun

/-- A call begins, a transaction executes its next statement, or it loses its connection
and is rolled back. -/
inductive WorkflowAction where
  | call (request : WorkflowRequest)
  | next (i : Nat)
  | lose (i : Nat)
deriving DecidableEq

def workflowStep (env : WorkflowEnv) (s : WorkflowState) :
    WorkflowAction → Option WorkflowState
  | .call request => some { s with txns := s.txns ++ [request.txn] }
  | .next i => do
      let txn ← s.txns[i]?
      let (db, txn') ← txn.next env s.db (Transactions.free (WorkflowTxn.holds env) s.txns i)
      return ⟨db, s.txns.set i txn'⟩
  | .lose i => do
      let _ ← s.txns[i]?
      return { s with txns := s.txns.set i (.finished .connectionLost) }

end Aegora
