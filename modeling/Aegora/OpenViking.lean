import Aegora.NativePg

/-!
# The OpenViking memory provider

Memories as documents on an HTTP server, one for each key, addressed by a URI
that names the namespace, the scope and the key but neither tenant nor user:
`viking://~` is whatever the server resolves it to, the account and user of the
identity headers or, without them, the identity of the API key.

A document is the JSON value that its text holds, since `json.loads` reads back
what `json.dumps` writes. The server is a map from identities and URIs to
documents; its search is left open.
-/

namespace Aegora

open Py

/-! ## What the provider takes from outside -/

/-- `hashlib.sha256(text.encode()).hexdigest()` and the texts of timestamps:
`value.isoformat()` in UTC, and `datetime.fromisoformat` with a naive time read
as UTC. -/
structure VikingEnv extends FloatEnv where
  sha256 : String → String
  isoformat : Time → String
  fromisoformat : String → Option Time
  hex : ∀ text, ∀ c ∈ (sha256 text).toList, c ∈ "0123456789abcdef".toList
  fromiso_iso : ∀ time, fromisoformat (isoformat time) = some time
  iso_offset : ∀ time, 'Z' ∉ (isoformat time).toList
  iso_nonempty : ∀ time, isoformat time ≠ ""

/-- The documents of one identity, by URI. -/
abbrev Documents := List (String × Json)

/-- `search/find` over the documents of an identity: a query, a target and a limit. -/
abbrev VikingSearch := Documents → String → String → Int → Json

/-- `memory.openviking_auth_mode`, as the configuration accepts it. -/
inductive AuthMode where
  | trusted
  | apiKey
  | dev
deriving DecidableEq, Repr

structure OpenViking where
  env : VikingEnv
  authMode : AuthMode
  search : VikingSearch

/-! ## Identities -/

/-- What `viking://~` stands for. -/
inductive VikingIdentity where
  | account (account user : String)
  | apiKey
deriving DecidableEq, Repr

/-- The identity headers that `request` sends. -/
def OpenViking.identityHeaders (provider : OpenViking) (scope : MemoryScope) :
    List (String × String) :=
  if provider.authMode = .trusted then
    [("X-OpenViking-Account", scope.tenant), ("X-OpenViking-User", scope.userId)]
      ++ ((nonEmpty scope.agentId).map fun agentId => ("X-OpenViking-Actor-Peer", agentId)).toList
  else []

/-- The identity that the server gives a request. -/
def resolveIdentity (headers : List (String × String)) : VikingIdentity :=
  match Dict.get? headers "X-OpenViking-Account", Dict.get? headers "X-OpenViking-User" with
  | some account, some user => .account account user
  | _, _ => .apiKey

def OpenViking.identity (provider : OpenViking) (scope : MemoryScope) : VikingIdentity :=
  resolveIdentity (provider.identityHeaders scope)

structure VikingServer where
  documents : VikingIdentity → Documents

/-- Replace the documents of an identity. -/
def VikingServer.update (server : VikingServer) (who : VikingIdentity) (documents : Documents) :
    VikingServer where
  documents other := if other = who then documents else server.documents other

/-! ## URIs -/

/-- `_digest`. -/
def VikingEnv.digest (env : VikingEnv) (length : Nat) (value : String) : String :=
  String.ofList ((env.sha256 value).toList.take length)

/-- The characters that `_SAFE` leaves alone. -/
def isSafe (c : Char) : Bool := c.isAlphanum || c = '.' || c = '_' || c = '-'

/-- `_SAFE.sub("-", text)`; `run` when the last character was not safe. -/
def dashed (run : Bool) : List Char → List Char
  | [] => []
  | c :: rest =>
      if isSafe c then c :: dashed false rest
      else if run then dashed true rest
      else '-' :: dashed true rest

/-- The readable part of a segment. -/
def segmentText (value : String) : List Char :=
  let text := (stripOf ['-', '.', '_'] (dashed false (stripChars value.toList))).take 48
  if text.isEmpty then "memory".toList else text

/-- `_safe_segment`. -/
def VikingEnv.safeSegment (env : VikingEnv) (value : String) : String :=
  String.ofList (segmentText value) ++ "-" ++ env.digest 8 value

/-- `memory.openviking_root_uri`, the only value that the configuration accepts. -/
def rootUri : String := "viking://~/memories"

def categoryOf (nameSpace : String) : String :=
  if nameSpace = "preferences" then "preferences" else "entities"

/-- `_category_root`. -/
def categoryRoot (scope : MemoryScope) : String := rootUri ++ "/" ++ categoryOf scope.nameSpace

def VikingEnv.scopeSegment (env : VikingEnv) (scope : MemoryScope) : String :=
  if scope.memoryScope = .userAgent then "user_agent-" ++ env.digest 12 (scope.agentId.getD "")
  else scope.memoryScope.text

/-- `_memory_uri`. -/
def VikingEnv.memoryUri (env : VikingEnv) (scope : MemoryScope) (key : String) : String :=
  categoryRoot scope ++ "/aegora/" ++ env.safeSegment scope.nameSpace ++ "/"
    ++ env.scopeSegment scope ++ "/" ++ env.safeSegment key ++ ".md"

/-- `_scoped_memory_id`. -/
def VikingEnv.scopedMemoryId (env : VikingEnv) (scope : MemoryScope) (uri : String) : String :=
  "openviking:" ++ env.digest 12 scope.tenant ++ ":" ++ env.digest 12 scope.userId ++ ":"
    ++ env.digest 16 uri

/-! ## Documents -/

def documentSchema : String := "aegora.memory.v1"

/-- A text, or null. -/
def optText (value : Option String) : Json := (value.map Json.str).getD .null

/-- `_item_to_document`. -/
def itemToDocument (item : MemoryItem) : Json :=
  .obj [
    ("schema", .str documentSchema),
    ("memory_id", .str item.memoryId),
    ("memory_type", .str item.memoryType),
    ("key", .str item.key),
    ("content", .str item.content),
    ("scope", .str item.scope),
    ("namespace", .str item.nameSpace),
    ("version", .int item.version),
    ("source_agent_id", optText item.sourceAgentId),
    ("source_kind", .str item.sourceKind),
    ("metadata", .obj item.metadata)]

/-- `str(raw.get(field) or fallback)`. -/
def documentText (raw : Dict) (field fallback : String) : String :=
  ((Dict.get raw field).orElse (.str fallback)).pyStr

/-- `_document_to_item`. A version is never negative. -/
def documentToItem (document : Json) (uri : String) : Except String MemoryItem :=
  match document with
  | .obj raw =>
      if Dict.get raw "schema" ≠ .str documentSchema then
        .error ("unsupported Aegora memory document at " ++ uri)
      else do
        let version ← ((Dict.get raw "version").orElse (.int 1)).pyInt
        return {
          memoryId := documentText raw "memory_id" uri
          memoryType := documentText raw "memory_type" "semantic"
          key := documentText raw "key" ""
          content := documentText raw "content" ""
          scope := documentText raw "scope" "user_global"
          nameSpace := documentText raw "namespace" "preferences"
          version := version.toNat
          sourceAgentId :=
            if Dict.get raw "source_agent_id" = .null ∨ Dict.get raw "source_agent_id" = .str ""
            then none else some (Dict.get raw "source_agent_id").pyStr
          sourceKind := documentText raw "source_kind" "legacy"
          metadata := (Dict.get raw "metadata").dictOrEmpty }
  | _ => .error ("unsupported Aegora memory document at " ++ uri)

/-- `str(item.metadata.get(field) or fallback)`. -/
def MemoryItem.metadataText (item : MemoryItem) (field fallback : String) : String :=
  documentText item.metadata field fallback

/-- `_visible_to_scope`. -/
def visibleToScope (item : MemoryItem) (scope : MemoryScope) : Bool :=
  if item.metadataText "tenant_id" "default" ≠ scope.tenant then false
  else if item.metadataText "user_id" "" ≠ scope.userId then false
  else if item.scope = "user_agent" then
    (nonEmpty scope.agentId).any fun agentId => item.metadataText "agent_id" "" = agentId
  else item.scope = "user_global" || item.scope = "tenant_user"

/-- `text.replace("Z", "+00:00")`. -/
def offsetText (text : String) : String :=
  String.ofList (text.toList.flatMap fun c => if c = 'Z' then "+00:00".toList else [c])

/-- The end of an item's validity, as `_expired` reads it. -/
def VikingEnv.validUntil (env : VikingEnv) (item : MemoryItem) : Option Time :=
  let value := Dict.get item.metadata "valid_until"
  if value.truthy then env.fromisoformat (offsetText value.pyStr) else none

/-- `_expired`. -/
def VikingEnv.expired (env : VikingEnv) (item : MemoryItem) (now : Time) : Bool :=
  (env.validUntil item).any (· ≤ now)

/-- `_metadata_iso`. -/
def metadataIso (item : MemoryItem) (field : String) : Option String :=
  let value := Dict.get item.metadata field
  if value.truthy then some value.pyStr else none

/-! ## Search hits -/

def hitLists : List String :=
  ["memories", "entries", "results", "contexts", "items", "resources"]

/-- `str(hit.get("uri") or "")`. -/
def hitText (hit : Dict) : String := documentText hit "uri" ""

/-- Hits of a URI that was seen before are dropped. -/
def dedupeHits (seen : List String) : List Dict → List Dict
  | [] => []
  | hit :: rest =>
      let uri := hitText hit
      if uri = "" then hit :: dedupeHits seen rest
      else if uri ∈ seen then dedupeHits seen rest
      else hit :: dedupeHits (uri :: seen) rest

/-- `_flatten_hits`. -/
def flattenHits : Json → List Dict
  | .arr items => items.filterMap Json.asDict?
  | .obj result =>
      let hits := hitLists.flatMap fun field =>
        ((Dict.get result field).asList?.getD []).filterMap Json.asDict?
      dedupeHits [] (if hits.isEmpty && (Dict.get? result "uri").isSome then [result] else hits)
  | _ => []

def hitUri (hit : Dict) : String := strip (hitText hit)

/-- The documents that the server makes by itself. -/
def generatedUri (uri : String) : Bool :=
  "/.overview.md".toList.isSuffixOf uri.toList || "/.abstract.md".toList.isSuffixOf uri.toList

/-! ## Operations -/

namespace OpenViking

variable (provider : OpenViking)

/-- `_read_item`: `none` for a document that is not there. -/
def readItem (scope : MemoryScope) (uri : String) (server : VikingServer) :
    Except String (Option MemoryItem) :=
  match Dict.get? (server.documents (provider.identity scope)) uri with
  | none => .ok none
  | some document => (documentToItem document uri).map some

/-- The item that `recall` returns for a hit, unless it skips the hit. -/
def recalledItem (scope : MemoryScope) (now : Time) (server : VikingServer) (hit : Dict) :
    Option MemoryItem :=
  let uri := hitUri hit
  if uri = "" || generatedUri uri then none
  else match provider.readItem scope uri server with
    | .error _ => none
    | .ok none => none
    | .ok (some item) =>
        if !visibleToScope item scope then none
        else if provider.env.expired item now then none
        else match Dict.get hit "score" with
          | .null => some item
          | score => some { item with metadata := Dict.set item.metadata "provider_score" score }

/-- The loop of `recall`, with `found` items so far. -/
def collectItems (item : Dict → Option MemoryItem) (limit : Int) :
    Nat → List Dict → List MemoryItem
  | _, [] => []
  | found, hit :: rest =>
      match item hit with
      | none => collectItems item limit found rest
      | some it =>
          if limit ≤ found + 1 then [it] else it :: collectItems item limit (found + 1) rest

/-- `recall`. -/
def «recall» (scope : MemoryScope) (query : String) (limit : Int) (now : Time)
    (server : VikingServer) : List MemoryItem :=
  let result := provider.search (server.documents (provider.identity scope)) query
    (categoryRoot scope ++ "/") (max 1 limit)
  collectItems (provider.recalledItem scope now server) limit 0 (flattenHits result)

/-- `get_current`. -/
def getCurrent (scope : MemoryScope) (key : String) (server : VikingServer) :
    Except String (Option MemoryItem) :=
  provider.readItem scope (provider.env.memoryUri scope key) server

/-- The item that `remember` writes after `current`. -/
def newItem (scope : MemoryScope) (memory : MemoryWrite) (now : Time)
    (current : Option MemoryItem) : MemoryItem where
  memoryId := provider.env.scopedMemoryId scope (provider.env.memoryUri scope memory.key)
  memoryType := memory.memoryType.text
  key := memory.key
  content := memory.value
  scope := scope.memoryScope.text
  nameSpace := scope.nameSpace
  version := (current.map fun item => item.version + 1).getD 1
  sourceAgentId := (nonEmpty memory.sourceAgentId).or scope.agentId
  sourceKind := memory.sourceKind.text
  metadata := [
    ("tenant_id", .str scope.tenant),
    ("user_id", .str scope.userId),
    ("agent_id", optText scope.rowAgent),
    ("source_session_id", optText ((nonEmpty memory.sourceSessionId).or scope.sessionId)),
    ("source_trace_id", optText memory.sourceTraceId),
    ("confidence", .float (provider.env.repr memory.confidence)),
    ("importance", .float (provider.env.repr memory.importance)),
    ("supersedes_id", optText (current.map MemoryItem.memoryId)),
    ("valid_from", .str (provider.env.isoformat now)),
    ("valid_until", optText (memory.expiresAt.map provider.env.isoformat)),
    ("reason", optText memory.reason),
    ("provider", .str "openviking"),
    ("provider_uri", .str (provider.env.memoryUri scope memory.key))]

/-- The current item already says what `memory` would. -/
def sameItem (memory : MemoryWrite) (current : MemoryItem) : Bool :=
  current.content = memory.value
    && metadataIso current "valid_until" = memory.expiresAt.map provider.env.isoformat

/-- `remember`; the item it returns comes with the server. -/
def remember (scope : MemoryScope) (memory : MemoryWrite) (now : Time) (server : VikingServer) :
    Except String (VikingServer × MemoryItem) := do
  let current ← provider.getCurrent scope memory.key server
  match current.filter (provider.sameItem memory) with
  | some item => return (server, item)
  | none =>
      let who := provider.identity scope
      let item := provider.newItem scope memory now current
      let documents := Dict.set (server.documents who) (provider.env.memoryUri scope memory.key)
        (itemToDocument item)
      return (server.update who documents, item)

/-- `forget`. -/
def forget (scope : MemoryScope) (key : String) (server : VikingServer) :
    Except String (VikingServer × Bool) := do
  let uri := provider.env.memoryUri scope key
  match ← provider.readItem scope uri server with
  | none => return (server, false)
  | some _ =>
      let who := provider.identity scope
      return (server.update who
        ((server.documents who).filter fun entry => decide (entry.1 ≠ uri)), true)

end OpenViking

end Aegora
