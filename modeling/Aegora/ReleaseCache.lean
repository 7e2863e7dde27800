import Mathlib.Data.List.Sort
import Aegora.LruCache
import Aegora.PyJson
import Aegora.Runs

/-!
# The release config cache

`fetch_agent_release` and `fetch_agent_release_by_version` with
`RedisReleaseConfigCache`: a first level in each runtime, a second level in the
Redis that the runtimes share, and the database behind them. A call on Redis
may fail; what is stored there may be gone at any time.

A config is an object with an identity: the caller of a read gets a reference
and may change the object. So the first level holds references into a heap, and
`deepcopy`, `json.loads` and the rows of the database give new ones. What is
stored in Redis is a text; it is taken as the JSON value that it is the text of.
-/

namespace Aegora

open Py

/-! ## Rows -/

/-- A row of `agent_releases`. -/
structure ReleaseRecord where
  id : String
  agentId : String
  version : Int
  status : String
  visibility : Option String := none
  publishedAt : Option Int := none
  configJson : Json
deriving DecidableEq

/-- Rows whose `config_json` is immutable: it is determined by the ids. -/
structure Releases (config : String → String → Json) where
  rows : List ReleaseRecord
  immutable : ∀ row ∈ rows, row.configJson = config row.agentId row.id
  agentIds : ∀ row ∈ rows, ':' ∉ row.agentId.toList
  ids : ∀ row ∈ rows, ':' ∉ row.id.toList

/-- `fetch_agent_release` and `fetch_agent_release_by_version`. -/
inductive ReleaseQuery where
  | byId (agentId releaseId : String)
  | byVersion (agentId : String) (version : Int)
deriving DecidableEq

/-- `published_at DESC NULLS LAST, id DESC`. -/
def publishedBefore (a b : ReleaseRecord) : Bool :=
  if a.publishedAt = b.publishedAt then b.id ≤ a.id
  else match a.publishedAt, b.publishedAt with
    | some at_, some bt => bt < at_
    | some _, none => true
    | none, _ => false

/-- The row that the first `SELECT` finds. -/
def selectRelease (rows : List ReleaseRecord) : ReleaseQuery → Option ReleaseRecord
  | .byId agentId releaseId => rows.find? fun row => row.agentId = agentId && row.id = releaseId
  | .byVersion agentId version =>
      ((rows.filter fun row : ReleaseRecord =>
        row.agentId = agentId && row.version = version).insertionSort (publishedBefore · ·)).head?

/-! ## The cache -/

structure RuntimeCacheSettings where
  enabled : Bool
  keyPrefix : String := "aegora:runtime-config:v1"
  l1MaxEntries : Nat := 256
deriving DecidableEq

/-- A reference to an object of the heap. -/
abbrev Ref := Nat

/-- What the runtimes share: Redis, and the objects. -/
structure CacheStore where
  redis : List (String × Json) := []
  heap : List Dict := []
deriving DecidableEq

/-- `RedisReleaseConfigCache`, with a record of the uses of its first level. -/
structure ReleaseConfigCache where
  settings : RuntimeCacheSettings
  l1 : List (String × Ref) := []
  uses : List String := []
deriving DecidableEq

namespace CacheStore

def object (store : CacheStore) (ref : Ref) : Dict := store.heap.getD ref []

/-- A new object. -/
def alloc (store : CacheStore) (value : Dict) : CacheStore × Ref :=
  ({ store with heap := store.heap ++ [value] }, store.heap.length)

def deepcopy (store : CacheStore) (ref : Ref) : CacheStore × Ref := store.alloc (store.object ref)

end CacheStore

/-- `_key`. -/
def releaseKey (keyPrefix agentId releaseId : String) (version : Int) : String :=
  keyPrefix ++ ":agent:" ++ agentId ++ ":release:" ++ releaseId ++ ":version:" ++ toString version

/-- `_artifact_key`. -/
def artifactKey (keyPrefix artifactType artifactVersion agentId releaseId : String)
    (version : Int) : String :=
  keyPrefix ++ ":artifact:" ++ artifactType ++ ":" ++ artifactVersion ++ ":agent:" ++ agentId
    ++ ":release:" ++ releaseId ++ ":version:" ++ toString version

namespace ReleaseConfigCache

variable (cache : ReleaseConfigCache) (store : CacheStore)

/-- `_l1_get`. -/
def l1Get (key : String) : ReleaseConfigCache × CacheStore × Option Ref :=
  match LruCache.find cache.l1 key with
  | none => (cache, store, none)
  | some ref =>
      let copied := store.deepcopy ref
      ({ cache with l1 := LruCache.touch cache.l1 key ref, uses := cache.uses ++ [key] },
        copied.1, some copied.2)

/-- `_l1_set`. -/
def l1Set (key : String) (ref : Ref) : ReleaseConfigCache × CacheStore :=
  let copied := store.deepcopy ref
  ({ cache with
      l1 := LruCache.set cache.settings.l1MaxEntries cache.l1 key copied.2
      uses := cache.uses ++ [key] }, copied.1)

/-- `get` and `get_artifact`; whether Redis answers is given. -/
def get (answers : Bool) (key : String) : ReleaseConfigCache × CacheStore × Option Ref :=
  if !cache.settings.enabled then (cache, store, none)
  else match cache.l1Get store key with
    | (cache, store, some ref) => (cache, store, some ref)
    | (cache, store, none) =>
        if !answers then (cache, store, none)
        else match Dict.get? store.redis key with
          | some (.obj value) =>
              let loaded := store.alloc value
              let (cache, store) := cache.l1Set loaded.1 key loaded.2
              let copied := store.deepcopy loaded.2
              (cache, copied.1, some copied.2)
          | _ => (cache, store, none)

/-- `set` and `set_artifact`; whether Redis stores the value is given. -/
def set (stores : Bool) (key : String) (ref : Ref) : ReleaseConfigCache × CacheStore :=
  if !cache.settings.enabled then (cache, store)
  else
    let (cache, store) := cache.l1Set store key ref
    if stores then
      (cache, { store with redis := Dict.set store.redis key (.obj (store.object ref)) })
    else (cache, store)

/-- `delete`; whether Redis deletes the key is given. -/
def delete (deletes : Bool) (key : String) : ReleaseConfigCache × CacheStore :=
  if !cache.settings.enabled then (cache, store)
  else
    ({ cache with l1 := LruCache.erase cache.l1 key },
      if deletes then
        { store with redis := store.redis.filter fun entry => decide (entry.1 ≠ key) }
      else store)

/-- The same runtime without the cache. -/
def off : ReleaseConfigCache := { cache with settings := { cache.settings with enabled := false } }

end ReleaseConfigCache

/-! ## Reading a release -/

/-- The dictionary of a release that a read returns. -/
structure FetchedRelease where
  releaseId : String
  agentId : String
  version : Int
  status : String
  visibility : Option String
  configJson : Ref
deriving DecidableEq

/-- Whether Redis answers a `get` and takes a `set`. -/
structure RedisOutcome where
  answers : Bool := true
  stores : Bool := true
deriving DecidableEq

section Reading

variable (rows : List ReleaseRecord) (redis : RedisOutcome)

/-- `_release_config_json`. -/
def releaseConfigJson (cache : ReleaseConfigCache) (store : CacheStore) (agentId releaseId : String)
    (version : Int) : ReleaseConfigCache × CacheStore × Except String Ref :=
  let key := releaseKey cache.settings.keyPrefix agentId releaseId version
  match cache.get store redis.answers key with
  | (cache, store, some ref) => (cache, store, .ok ref)
  | (cache, store, none) =>
      match (rows.find? fun row => row.agentId = agentId && row.id = releaseId).map
          ReleaseRecord.configJson with
      | some (.obj config) =>
          let loaded := store.alloc config
          let (cache, store) := cache.set loaded.1 redis.stores key loaded.2
          (cache, store, .ok loaded.2)
      | _ => (cache, store, .error "release config_json 不合法")

/-- The ids that the key of a read is made of. -/
def ReleaseQuery.releaseId (row : ReleaseRecord) : ReleaseQuery → String
  | .byId _ releaseId => releaseId
  | .byVersion _ _ => row.id

def ReleaseQuery.agentId : ReleaseQuery → String
  | .byId agentId _ | .byVersion agentId _ => agentId

/-- `fetch_agent_release` and `fetch_agent_release_by_version`. -/
def fetchRelease (cache : ReleaseConfigCache) (store : CacheStore) (query : ReleaseQuery) :
    ReleaseConfigCache × CacheStore × Except String (Option FetchedRelease) :=
  match selectRelease rows query with
  | none => (cache, store, .ok none)
  | some row =>
      let (cache, store, config) := releaseConfigJson rows redis cache store query.agentId
        (query.releaseId row) row.version
      (cache, store, config.map fun ref => some
        { releaseId := row.id
          agentId := row.agentId
          version := row.version
          status := row.status
          visibility := row.visibility
          configJson := ref })

end Reading

/-- What a release says when it is returned. -/
structure ReleaseValue where
  releaseId : String
  agentId : String
  version : Int
  status : String
  visibility : Option String
  configJson : Dict
deriving DecidableEq

def FetchedRelease.value (store : CacheStore) (release : FetchedRelease) : ReleaseValue where
  releaseId := release.releaseId
  agentId := release.agentId
  version := release.version
  status := release.status
  visibility := release.visibility
  configJson := store.object release.configJson

/-- The result of a read, by value. -/
def fetchedValue (rows : List ReleaseRecord) (redis : RedisOutcome) (cache : ReleaseConfigCache)
    (store : CacheStore) (query : ReleaseQuery) : Except String (Option ReleaseValue) :=
  let (_, store, result) := fetchRelease rows redis cache store query
  result.map fun release => release.map (·.value store)

/-! ## Runs -/

/-- The database, the runtimes, what they share, and the objects that callers hold. -/
structure CacheState (config : String → String → Json) where
  releases : Releases config
  runtimes : List ReleaseConfigCache
  store : CacheStore := {}
  handed : List Ref := []

/-- A read of a release or an artifact, a write of an artifact, an invalidation, a restart
of a runtime; a caller changes an object that it holds; Redis loses a key; and the
database changes. -/
inductive CacheAction (config : String → String → Json) where
  | fetch (i : Nat) (query : ReleaseQuery) (redis : RedisOutcome)
  | getArtifact (i : Nat) (artifactType artifactVersion agentId releaseId : String)
      (version : Int) (answers : Bool)
  | setArtifact (i : Nat) (artifact : Dict)
      (artifactType artifactVersion agentId releaseId : String) (version : Int) (stores : Bool)
  | delete (i : Nat) (agentId releaseId : String) (version : Int) (deletes : Bool)
  | restart (i : Nat)
  | mutate (ref : Ref) (value : Dict)
  | lose (key : String)
  | change (releases : Releases config)

variable {config : String → String → Json}

/-- The state after runtime `i` has done something with the shared objects. -/
def CacheState.after (s : CacheState config) (i : Nat) (cache : ReleaseConfigCache)
    (store : CacheStore) (handed : List Ref) : CacheState config :=
  { s with runtimes := s.runtimes.set i cache, store := store, handed := s.handed ++ handed }

/-- The object that a result hands out. -/
def handedOut (result : Except String (Option FetchedRelease)) : List Ref :=
  match result with
  | .ok (some release) => [release.configJson]
  | _ => []

def cacheStep (s : CacheState config) : CacheAction config → Option (CacheState config)
  | .fetch i query redis => do
      let cache ← s.runtimes[i]?
      let (cache, store, result) := fetchRelease s.releases.rows redis cache s.store query
      return s.after i cache store (handedOut result)
  | .getArtifact i artifactType artifactVersion agentId releaseId version answers => do
      let cache ← s.runtimes[i]?
      let (cache, store, result) := cache.get s.store answers (artifactKey
        cache.settings.keyPrefix artifactType artifactVersion agentId releaseId version)
      return s.after i cache store result.toList
  | .setArtifact i artifact artifactType artifactVersion agentId releaseId version stores => do
      let cache ← s.runtimes[i]?
      let built := s.store.alloc artifact
      let (cache, store) := cache.set built.1 stores (artifactKey cache.settings.keyPrefix
        artifactType artifactVersion agentId releaseId version) built.2
      return s.after i cache store [built.2]
  | .delete i agentId releaseId version deletes => do
      let cache ← s.runtimes[i]?
      let (cache, store) := cache.delete s.store deletes (releaseKey cache.settings.keyPrefix
        agentId releaseId version)
      return s.after i cache store []
  | .restart i => do
      let cache ← s.runtimes[i]?
      return s.after i { settings := cache.settings } s.store []
  | .mutate ref value =>
      if ref ∈ s.handed then
        some { s with store := { s.store with heap := s.store.heap.set ref value } }
      else none
  | .lose key =>
      some { s with store := { s.store with
        redis := s.store.redis.filter fun entry => decide (entry.1 ≠ key) } }
  | .change releases => some { s with releases := releases }

end Aegora
