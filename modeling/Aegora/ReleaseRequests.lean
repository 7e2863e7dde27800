import Aegora.PyJson
import Aegora.Runs

/-!
# Publishing and revoking releases

`publish_agent` and `revoke_agent_release` of the Control Plane, step by step:
the checks, each statement on `agent_releases` in a transaction of its own, and
the event that is published at the end. Requests of any number run at the same
time. What the checks and the snapshot of the configuration come out as depends
on other tables; it is given with the request.

The event is sent to Redis on a best-effort basis: whatever happens there, the
request is answered. The times of the rows are left out.
-/

namespace Aegora

open Py

/-! ## Rows -/

inductive ReleaseStatus where
  | published
  | revoked
deriving DecidableEq, Repr

/-- A row of `agent_releases`. -/
structure StoredRelease where
  id : String
  agentId : String
  version : Nat
  status : ReleaseStatus
  configJson : Json
  publishedBy : String
deriving DecidableEq

/-- The versions of an agent. -/
def versionsOf (rows : List StoredRelease) (agentId : String) : List Nat :=
  (rows.filter fun row => row.agentId = agentId).map StoredRelease.version

/-- `next_release_version`: `COALESCE(MAX(version), 0) + 1`. -/
def nextReleaseVersion (rows : List StoredRelease) (agentId : String) : Nat :=
  (versionsOf rows agentId).max?.getD 0 + 1

/-- `save_agent_release`; `none` when it violates the primary key or
`UNIQUE(agent_id, version)`. -/
def saveAgentRelease (rows : List StoredRelease) (releaseId agentId : String) (version : Nat)
    (configJson : Json) (publishedBy : String) : Option (List StoredRelease) :=
  if rows.any fun row => row.id = releaseId || (row.agentId = agentId && row.version = version) then
    none
  else some (rows ++ [{
    id := releaseId
    agentId := agentId
    version := version
    status := .published
    configJson := configJson
    publishedBy := publishedBy }])

/-- The `WHERE` of `revoke_agent_release`. -/
def StoredRelease.revocable (agentId releaseId : String) (row : StoredRelease) : Bool :=
  row.id = releaseId && row.agentId = agentId && row.status = .published

/-- `revoke_agent_release`, with `cursor.rowcount == 1`. -/
def revokeAgentRelease (rows : List StoredRelease) (agentId releaseId : String) :
    List StoredRelease × Bool :=
  (rows.map fun row =>
      if row.revocable agentId releaseId then { row with status := .revoked } else row,
    (rows.filter (StoredRelease.revocable agentId releaseId)).length = 1)

/-- The row that `fetch_agent_release` reads. -/
def storedRelease? (rows : List StoredRelease) (agentId releaseId : String) :
    Option StoredRelease :=
  rows.find? fun row => row.id = releaseId && row.agentId = agentId

/-! ## Requests -/

/-- An `HTTPException`. -/
structure HttpFailure where
  statusCode : Nat
  detail : String
deriving DecidableEq

/-- What a `psycopg.Error` is answered with. -/
def databaseFailure : HttpFailure := ⟨503, "数据库不可用或未配置"⟩

inductive ReleaseAnswer where
  | published (releaseId agentId : String) (version : Nat)
  | revoked (releaseId agentId : String) (version : Nat)
  | failed (failure : HttpFailure)
deriving DecidableEq

/-- How far `publish_agent` has come. -/
inductive PublishStep where
  | begun
  | admitted
  | versioned (version : Nat)
  | built (version : Nat) (configJson : Json)
  | saved (version : Nat)
deriving DecidableEq

/-- How far `revoke_agent_release` has come. -/
inductive RevokeStep where
  | begun
  | admitted
  | fetched (version : Nat)
  | updated (version : Nat)
deriving DecidableEq

/-- A request. `admission` is what the checks raise, `snapshot` what
`release_config_snapshot` returns or raises. -/
inductive ReleaseRequest where
  | publish (agentId releaseId actorId : String) (admission : Option HttpFailure)
      (snapshot : Except HttpFailure Json) (step : PublishStep)
  | revoke (agentId releaseId : String) (admission : Option HttpFailure) (step : RevokeStep)
  | answered (answer : ReleaseAnswer)

/-- The next step of `publish_agent`. -/
def publishStep (rows : List StoredRelease) (agentId releaseId actorId : String)
    (admission : Option HttpFailure) (snapshot : Except HttpFailure Json) :
    PublishStep → List StoredRelease × ReleaseRequest
  | .begun =>
      match admission with
      | some failure => (rows, .answered (.failed failure))
      | none => (rows, .publish agentId releaseId actorId admission snapshot .admitted)
  | .admitted =>
      (rows, .publish agentId releaseId actorId admission snapshot
        (.versioned (nextReleaseVersion rows agentId)))
  | .versioned version =>
      match snapshot with
      | .error failure => (rows, .answered (.failed failure))
      | .ok config => (rows, .publish agentId releaseId actorId admission snapshot
          (.built version config))
  | .built version config =>
      match saveAgentRelease rows releaseId agentId version config actorId with
      | none => (rows, .answered (.failed databaseFailure))
      | some rows => (rows, .publish agentId releaseId actorId admission snapshot (.saved version))
  | .saved version => (rows, .answered (.published releaseId agentId version))

/-- The next step of `revoke_agent_release`. -/
def revokeStep (rows : List StoredRelease) (agentId releaseId : String)
    (admission : Option HttpFailure) : RevokeStep → List StoredRelease × ReleaseRequest
  | .begun =>
      match admission with
      | some failure => (rows, .answered (.failed failure))
      | none => (rows, .revoke agentId releaseId admission .admitted)
  | .admitted =>
      match storedRelease? rows agentId releaseId with
      | none => (rows, .answered (.failed ⟨404, "发布版本不存在"⟩))
      | some row => (rows, .revoke agentId releaseId admission (.fetched row.version))
  | .fetched version =>
      match revokeAgentRelease rows agentId releaseId with
      | (rows, false) => (rows, .answered (.failed ⟨409, "发布版本已撤销"⟩))
      | (rows, true) => (rows, .revoke agentId releaseId admission (.updated version))
  | .updated version => (rows, .answered (.revoked releaseId agentId version))

namespace ReleaseRequest

def next (rows : List StoredRelease) :
    ReleaseRequest → Option (List StoredRelease × ReleaseRequest)
  | .publish agentId releaseId actorId admission snapshot step =>
      some (publishStep rows agentId releaseId actorId admission snapshot step)
  | .revoke agentId releaseId admission step =>
      some (revokeStep rows agentId releaseId admission step)
  | .answered _ => none

/-- The next step asks the database and so may fail. -/
def atDatabase : ReleaseRequest → Bool
  | .publish _ _ _ _ _ (.saved _) | .revoke _ _ _ (.updated _) | .answered _ => false
  | _ => true

end ReleaseRequest

/-! ## Runs -/

structure ReleaseState where
  rows : List StoredRelease
  requests : List ReleaseRequest := []

/-- A request arrives, takes its next step, or the database fails it. -/
inductive ReleaseAction where
  | publish (agentId releaseId actorId : String) (admission : Option HttpFailure)
      (snapshot : Except HttpFailure Json)
  | revoke (agentId releaseId : String) (admission : Option HttpFailure)
  | next (i : Nat)
  | fail (i : Nat)

def releaseStep (s : ReleaseState) : ReleaseAction → Option ReleaseState
  | .publish agentId releaseId actorId admission snapshot =>
      some { s with requests := s.requests
        ++ [.publish agentId releaseId actorId admission snapshot .begun] }
  | .revoke agentId releaseId admission =>
      some { s with requests := s.requests ++ [.revoke agentId releaseId admission .begun] }
  | .next i => do
      let request ← s.requests[i]?
      let (rows, request') ← request.next s.rows
      return ⟨rows, s.requests.set i request'⟩
  | .fail i => do
      let request ← s.requests[i]?
      if request.atDatabase then
        return { s with requests := s.requests.set i (.answered (.failed databaseFailure)) }
      else none

end Aegora
