import Aegora.MemoryModels
import Aegora.Runs

/-!
# The pool of MCP sessions

`MCPClientManager` of `tool_adapters.py`. Its tasks run on one event loop and
share a dictionary of sessions, which only the holder of the pool lock changes;
every session has a lock of its own, held while a call is under way. A task is
between two awaits, where its `TaskPc` says what it waits for; a step takes one
task to its next await. An await that need not wait is a boundary of steps all
the same: that the task goes straight on is one of the orders.

A released lock is unlocked until one of those waiting for it goes on. What the
calls, connections and closings answer, the times the clock shows (one for each
step) and the cancellations of tasks are part of the run.
-/

namespace Aegora

/-! ## Sessions and tasks -/

/-- A client is closing from when its session is taken out of the pool. -/
inductive ClientStatus where
  | connected
  | closing
  | closed
deriving DecidableEq, Repr

/-- What the pool reads of a tool. -/
structure McpTool where
  cacheKey : String
  connectionId : String
  idleTtl : Time
  discoveryTtl : Time
deriving DecidableEq

/-- `MCPClientSession`; the lock is `lockedBy`. -/
structure McpSession where
  cacheKey : String
  connectionId : String
  lastUsedAt : Time
  idleTtl : Time
  discoveryTtl : Time
  discoveredAt : Time := 0
  discoveredTools : Option (List String) := none
  lockedBy : Option Nat := none
  status : ClientStatus := .connected
deriving DecidableEq

/-- What a session is wanted for. -/
inductive SessionUse where
  | warmup
  | callTool
deriving DecidableEq, Repr

/-- What the pool lock is wanted for; the error is the one to raise afterwards. -/
inductive PoolUse where
  | getSession (use : SessionUse) (tool : McpTool)
  | cleanupIdle
  | evict (cacheKey : String) (expected : Option Nat) (error : Option String)
  | closeAll
deriving DecidableEq

/-- What follows once the sessions to be closed are. -/
inductive AfterClosing where
  | lookUp (use : SessionUse) (tool : McpTool)
  | enforceLimit (use : SessionUse) (tool : McpTool)
  | release (error : Option String)
deriving DecidableEq

inductive TaskPc where
  /-- Waits for the pool lock. -/
  | atPool (use : PoolUse)
  /-- Holds it, and waits for the client of a session to close. -/
  | closing (session : Nat) (rest : List String) (after : AfterClosing)
  /-- Holds it, and waits for a new client to connect. -/
  | connecting (use : SessionUse) (tool : McpTool)
  /-- `_get_session` has returned. -/
  | handed (use : SessionUse) (session : Nat)
  /-- Waits for the session's lock. -/
  | atSession (use : SessionUse) (session : Nat)
  /-- Holds it, and waits for the client to answer. -/
  | calling (use : SessionUse) (session : Nat)
  | ended (error : Option String)
deriving DecidableEq

/-- A `call_tool` or `list_tools`, and how its client was then. -/
structure IssuedCall where
  session : Nat
  status : ClientStatus
deriving DecidableEq

structure SessionPool where
  sessions : List McpSession := []
  /-- `_sessions`. -/
  entries : List (String × Nat) := []
  lockedBy : Option Nat := none
  tasks : List TaskPc := []
  calls : List IssuedCall := []
deriving DecidableEq

/-- The answer to what a task waits for. -/
inductive McpReply where
  | ok (tools : List String)
  | error (message : String)

/-- The tools discovered last are still good. -/
def McpSession.cached (x : McpSession) (now : Time) : Bool :=
  x.discoveredTools.isSome && decide (now - x.discoveredAt < x.discoveryTtl)

def McpSession.touch (now : Time) (x : McpSession) : McpSession := { x with lastUsedAt := now }

def McpSession.lock (i : Nat) (x : McpSession) : McpSession := { x with lockedBy := some i }

def McpSession.close (x : McpSession) : McpSession := { x with status := .closed }

def McpSession.unlock (x : McpSession) : McpSession := { x with lockedBy := none }

/-- What a session keeps of an answer. -/
def McpSession.answered (use : SessionUse) (now : Time) (tools : List String)
    (x : McpSession) : McpSession :=
  match use with
  | .callTool => x.unlock.touch now
  | .warmup => { x.unlock.touch now with discoveredTools := some tools, discoveredAt := now }

def McpSession.freedBy (i : Nat) (x : McpSession) : McpSession :=
  if x.lockedBy = some i then x.unlock else x

/-- `min(candidates, key=…)`: the first one of the least recently used. -/
def leastRecent : List McpSession → Option McpSession
  | [] => none
  | x :: rest =>
      match leastRecent rest with
      | none => some x
      | some y => if y.lastUsedAt < x.lastUsedAt then some y else some x

namespace SessionPool

variable (maxSessions : Nat) (p : SessionPool) (i : Nat) (now : Time)

def goto (pc : TaskPc) : SessionPool := { p with tasks := p.tasks.set i pc }

def modifySession (s : Nat) (f : McpSession → McpSession) : SessionPool :=
  { p with sessions := p.sessions.modify s f }

/-- Release the pool lock and go on. -/
def leave (pc : TaskPc) : SessionPool := { p with lockedBy := none, tasks := p.tasks.set i pc }

/-- `self._sessions.get(key)`. -/
def find (key : String) : Option Nat := (p.entries.find? fun entry => entry.1 = key).map Prod.snd

/-- The pooled sessions whose lock is not locked, with their keys. -/
def unlocked : List (String × McpSession) :=
  p.entries.filterMap fun entry =>
    ((p.sessions[entry.2]?).filter fun x => x.lockedBy.isNone).map fun x => (entry.1, x)

/-! ## Closing -/

/-- Take a session out of the pool and start to close its client. -/
def pop (key : String) (s : Nat) : SessionPool :=
  { p with entries := p.entries.filter fun entry => entry.1 ≠ key
           sessions := p.sessions.modify s fun x => { x with status := .closing } }

/-- `_close_session_locked` of the first of the keys that is in the pool, up to the await. -/
def closeFirst (after : AfterClosing) : List String → Option SessionPool
  | [] => none
  | key :: rest =>
      match p.find key with
      | none => closeFirst after rest
      | some s => some ((p.pop key s).goto i (.closing s rest after))

/-- The keys `_cleanup_idle_sessions_locked` closes. -/
def expiredKeys : List String :=
  (p.unlocked.filter fun x => x.2.idleTtl ≤ now - x.2.lastUsedAt).map Prod.fst

/-- The keys `_evict_superseded_connection_locked` closes. -/
def staleKeys (tool : McpTool) : List String :=
  (p.unlocked.filter fun x =>
    x.1 ≠ tool.cacheKey && x.2.connectionId = tool.connectionId).map Prod.fst

/-- The key `_evict_session` closes, unless the pool has another session under it. -/
def evictedKeys (cacheKey : String) (expected : Option Nat) : List String :=
  if expected.isNone || p.find cacheKey = expected then [cacheKey] else []

/-- `_enforce_session_limit_locked`, up to the next await. A pooled session is found under its
own key. -/
def enforceLimit (use : SessionUse) (tool : McpTool) : SessionPool :=
  if p.entries.length < maxSessions then p.goto i (.connecting use tool)
  else
    match leastRecent (p.unlocked.map Prod.snd) with
    | none => p.leave i (.ended (some "MCP session cache 已满且连接均在使用"))
    | some oldest => (p.closeFirst i (.enforceLimit use tool) [oldest.cacheKey]).getD p

/-- The middle of `_get_session`: a session that is there is handed out. -/
def lookUp (use : SessionUse) (tool : McpTool) : SessionPool :=
  match p.find tool.cacheKey with
  | some s =>
      (p.modifySession s (.touch now)).leave i (.handed use s)
  | none =>
      (p.closeFirst i (.enforceLimit use tool) (p.staleKeys tool)).getD
        (p.enforceLimit maxSessions i use tool)

def proceed : AfterClosing → SessionPool
  | .lookUp use tool => p.lookUp maxSessions i now use tool
  | .enforceLimit use tool => p.enforceLimit maxSessions i use tool
  | .release error => p.leave i (.ended error)

/-- Close the sessions of the keys, one await for each, then proceed. -/
def closeKeys (after : AfterClosing) (keys : List String) : SessionPool :=
  (p.closeFirst i after keys).getD (p.proceed maxSessions i now after)

/-! ## Steps -/

/-- What a task does with the pool lock. -/
def enter : PoolUse → SessionPool
  | .getSession use tool =>
      p.closeKeys maxSessions i now (.lookUp use tool) (p.expiredKeys now)
  | .cleanupIdle => p.closeKeys maxSessions i now (.release none) (p.expiredKeys now)
  | .evict cacheKey expected error =>
      p.closeKeys maxSessions i now (.release error) (p.evictedKeys cacheKey expected)
  | .closeAll => p.closeKeys maxSessions i now (.release none) (p.entries.map Prod.fst)

/-- The end of `_get_session`: the new session is pooled and handed out. -/
def connect (use : SessionUse) (tool : McpTool) : SessionPool :=
  let session : McpSession :=
    { cacheKey := tool.cacheKey, connectionId := tool.connectionId, lastUsedAt := now
      idleTtl := tool.idleTtl, discoveryTtl := tool.discoveryTtl }
  let pooled : SessionPool :=
    { p with sessions := p.sessions ++ [session]
             entries := p.entries ++ [(tool.cacheKey, p.sessions.length)] }
  pooled.leave i (.handed use p.sessions.length)

/-- A warmup that finds the tools is done. -/
def begin (use : SessionUse) (s : Nat) (x : McpSession) : SessionPool :=
  if use = .warmup && x.cached now then
    (p.modifySession s (.touch now)).goto i (.ended none)
  else p.goto i (.atSession use s)

/-- Lock the session and call its client. -/
def issue (use : SessionUse) (s : Nat) (x : McpSession) : SessionPool :=
  let called : SessionPool := { p with calls := p.calls ++ [⟨s, x.status⟩] }
  (called.modifySession s (.lock i)).goto i (.calling use s)

/-- The call has returned or failed; a failure goes on to evict the session. -/
def finish (use : SessionUse) (s : Nat) (x : McpSession) : McpReply → SessionPool
  | .ok tools => (p.modifySession s (McpSession.answered use now tools)).goto i (.ended none)
  | .error message =>
      (p.modifySession s .unlock).goto i (.atPool (.evict x.cacheKey (some s) (some message)))

/-- Task `i` goes on. -/
def resume (reply : McpReply) : TaskPc → Option SessionPool
  | .atPool use =>
      if p.lockedBy = none then
        some ({ p with lockedBy := some i }.enter maxSessions i now use)
      else none
  | .closing s rest after =>
      some ((p.modifySession s .close).closeKeys maxSessions i now after rest)
  | .connecting use tool =>
      match reply with
      | .ok _ => some (p.connect i now use tool)
      | .error message => some (p.leave i (.ended (some message)))
  | .handed use s => (p.sessions[s]?).map (p.begin i now use s)
  | .atSession use s =>
      ((p.sessions[s]?).filter fun x => x.lockedBy.isNone).map (p.issue i use s)
  | .calling use s => (p.sessions[s]?).map fun x => p.finish i now use s x reply
  | .ended _ => none

/-- The locks a cancelled task holds are released on its way out. -/
def cancel : SessionPool :=
  let freed : SessionPool :=
    { p with sessions := p.sessions.map (McpSession.freedBy i)
             lockedBy := if p.lockedBy = some i then none else p.lockedBy }
  freed.goto i (.ended (some "CancelledError"))

end SessionPool

inductive PoolOp where
  /-- `_call_tool`, `_warmup`, `_cleanup_idle_sessions`, `_evict_session`, `_close_sessions`. -/
  | spawn (use : PoolUse)
  | resume (i : Nat) (now : Time) (reply : McpReply)
  | cancel (i : Nat)

def poolStep (maxSessions : Nat) (p : SessionPool) : PoolOp → Option SessionPool
  | .spawn use => some { p with tasks := p.tasks ++ [.atPool use] }
  | .resume i now reply => (p.tasks[i]?).bind (p.resume maxSessions i now reply)
  | .cancel i => (p.tasks[i]?).map fun _ => p.cancel i

end Aegora
