import Aegora.MemoryMigration
import Aegora.OpenVikingLaws

/-!
# What a remembered item decodes to

`remember` of the OpenViking provider on every write that `MemoryWrite` takes:
the memory type is any text and the end of the validity any `datetime`, with a
zone or without. A version is the integer that the document gives, which need
not have been written by the provider.

The document of an item decodes to the item but for texts that are empty and a
version that is 0, which the decoder replaces (`decodeDocument_documentOf`). So
the value and the moment of expiry always survive, and with them the test by
which a second `remember` writes nothing (`rememberWrite_again`).
-/

namespace Aegora

open Py

/-! ## Expiry -/

/-- A `datetime`: the microseconds that its clock shows since 1970 began, and
how many of them its zone is ahead of UTC. -/
structure Datetime where
  clock : Int
  offset : Option Int := none
deriving DecidableEq, Repr

/-- The moment that it stands for; without a zone it is read as UTC. -/
def Datetime.instant (value : Datetime) : Time := value.clock - value.offset.getD 0

/-- `datetime.min` and `datetime.max` in UTC. -/
def minInstant : Time := -62135596800000000

def maxInstant : Time := 253402300799999999

/-- `_iso`: `astimezone` raises outside the years 1 to 9999. -/
def VikingEnv.iso (env : VikingEnv) : Option Datetime → Except String (Option String)
  | none => .ok none
  | some value =>
      if minInstant ≤ value.instant ∧ value.instant ≤ maxInstant then
        .ok (some (env.isoformat value.instant))
      else .error "date value out of range"

theorem VikingEnv.iso_ne_empty {env : VikingEnv} {value : Option Datetime} {text : String}
    (h : env.iso value = .ok (some text)) : text ≠ "" := by
  unfold VikingEnv.iso at h
  split at h
  · cases h
  · split at h
    · obtain rfl := Option.some.inj (Except.ok.inj h)
      exact env.iso_nonempty _
    · cases h

theorem VikingEnv.iso_eq_ok {env : VikingEnv} {value : Option Datetime} {text : Option String}
    (h : env.iso value = .ok text) :
    value.map (fun other => env.isoformat other.instant) = text := by
  unfold VikingEnv.iso at h
  split at h
  · exact Except.ok.inj h
  · split at h
    · exact Except.ok.inj h
    · cases h

/-- The texts of two ends are the same when the moments are. -/
theorem VikingEnv.iso_congr (env : VikingEnv) {a b : Option Datetime}
    (h : a.map Datetime.instant = b.map Datetime.instant) : env.iso a = env.iso b := by
  cases a with
  | none => rw [Option.map_eq_none_iff.mp h.symm]
  | some value =>
      obtain ⟨other, rfl, hinstant⟩ := Option.map_eq_some_iff.mp h.symm
      unfold VikingEnv.iso
      dsimp only
      rw [hinstant]

/-! ## Writes and items -/

/-- `MemoryWrite`, with what the source checks of it. -/
structure VikingWrite where
  key : String
  value : String
  memoryType : String := "semantic"
  sourceAgentId : Option String := none
  sourceSessionId : Option String := none
  sourceTraceId : Option String := none
  sourceKind : SourceKind := .explicit
  confidence : ℚ := 1
  importance : ℚ := 1 / 2
  expiresAt : Option Datetime := none
  reason : Option String := none
  keyStripped : strip key = key
  keyNonblank : key ≠ ""
  valueNonblank : value ≠ ""
  confidenceUnit : 0 ≤ confidence ∧ confidence ≤ 1
  importanceUnit : 0 ≤ importance ∧ importance ≤ 1

/-- The write with a type of the table and its expiry as a moment. -/
def VikingWrite.toWrite (memory : VikingWrite) (kind : MemoryType) : MemoryWrite where
  key := memory.key
  value := memory.value
  memoryType := kind
  sourceAgentId := memory.sourceAgentId
  sourceSessionId := memory.sourceSessionId
  sourceTraceId := memory.sourceTraceId
  sourceKind := memory.sourceKind
  confidence := memory.confidence
  importance := memory.importance
  expiresAt := memory.expiresAt.map Datetime.instant
  reason := memory.reason
  keyStripped := memory.keyStripped
  keyNonblank := memory.keyNonblank
  valueNonblank := memory.valueNonblank
  confidenceUnit := memory.confidenceUnit
  importanceUnit := memory.importanceUnit

/-- A `MemoryItem`, with any integer for its version. -/
structure VikingItem where
  memoryId : String
  memoryType : String
  key : String
  content : String
  scope : String
  nameSpace : String
  version : Int
  sourceAgentId : Option String
  sourceKind : String
  metadata : Dict
deriving DecidableEq

def VikingItem.toItem (item : VikingItem) : MemoryItem where
  memoryId := item.memoryId
  memoryType := item.memoryType
  key := item.key
  content := item.content
  scope := item.scope
  nameSpace := item.nameSpace
  version := item.version.toNat
  sourceAgentId := item.sourceAgentId
  sourceKind := item.sourceKind
  metadata := item.metadata

/-- `_item_to_document`. -/
def documentOf (item : VikingItem) : Json :=
  .obj [
    ("schema", .str documentSchema),
    ("memory_id", .str item.memoryId),
    ("memory_type", .str item.memoryType),
    ("key", .str item.key),
    ("content", .str item.content),
    ("scope", .str item.scope),
    ("namespace", .str item.nameSpace),
    ("version", .int item.version),
    ("source_agent_id", optText item.sourceAgentId),
    ("source_kind", .str item.sourceKind),
    ("metadata", .obj item.metadata)]

/-- `_document_to_item`. -/
def decodeDocument (document : Json) (uri : String) : Except String VikingItem :=
  match document with
  | .obj raw =>
      if Dict.get raw "schema" ≠ .str documentSchema then
        .error ("unsupported Aegora memory document at " ++ uri)
      else do
        let version ← ((Dict.get raw "version").orElse (.int 1)).pyInt
        return {
          memoryId := documentText raw "memory_id" uri
          memoryType := documentText raw "memory_type" "semantic"
          key := documentText raw "key" ""
          content := documentText raw "content" ""
          scope := documentText raw "scope" "user_global"
          nameSpace := documentText raw "namespace" "preferences"
          version := version
          sourceAgentId :=
            if Dict.get raw "source_agent_id" = .null ∨ Dict.get raw "source_agent_id" = .str ""
            then none else some (Dict.get raw "source_agent_id").pyStr
          sourceKind := documentText raw "source_kind" "legacy"
          metadata := (Dict.get raw "metadata").dictOrEmpty }
  | _ => .error ("unsupported Aegora memory document at " ++ uri)

/-- `decodeDocument` is `documentToItem` before the version is taken for a count. -/
theorem documentToItem_eq_map (document : Json) (uri : String) :
    documentToItem document uri = (decodeDocument document uri).map VikingItem.toItem := by
  unfold documentToItem decodeDocument
  cases document with
  | obj raw =>
      dsimp only
      split
      · rfl
      · cases ((Dict.get raw "version").orElse (.int 1)).pyInt <;> rfl
  | _ => rfl

/-! ## What an item decodes to -/

/-- An item after `_document_to_item` put its defaults for what is empty. -/
def VikingItem.reread (item : VikingItem) (uri : String) : VikingItem where
  memoryId := textOr item.memoryId uri
  memoryType := textOr item.memoryType "semantic"
  key := item.key
  content := item.content
  scope := textOr item.scope "user_global"
  nameSpace := textOr item.nameSpace "preferences"
  version := if item.version = 0 then 1 else item.version
  sourceAgentId := nonEmpty item.sourceAgentId
  sourceKind := textOr item.sourceKind "legacy"
  metadata := item.metadata

theorem decodeDocument_documentOf (item : VikingItem) (uri : String) :
    decodeDocument (documentOf item) uri = .ok (item.reread uri) := by
  unfold decodeDocument documentOf
  simp only [Dict.get, Dict.get?_cons, String.reduceEq, if_true, if_false, Option.getD_some,
    ne_eq, not_true, orElse_one_pyInt, optText_decoded, bind, Except.bind, pure, Except.pure]
  unfold VikingItem.reread
  refine congrArg Except.ok ?_
  rw [documentText_str item.memoryId uri rfl, documentText_str item.memoryType "semantic" rfl,
    documentText_str item.key "" rfl, documentText_str item.content "" rfl,
    documentText_str item.scope "user_global" rfl,
    documentText_str item.nameSpace "preferences" rfl,
    documentText_str item.sourceKind "legacy" rfl, textOr_empty, textOr_empty]
  rfl

theorem textOr_eq_self {text fallback : String} (hfallback : fallback ≠ "") :
    textOr text fallback = text ↔ text ≠ "" := by
  unfold textOr
  split
  · rename_i h
    rw [h]
    exact ⟨fun hfb => absurd hfb hfallback, fun h => absurd rfl h⟩
  · rename_i h
    exact ⟨fun _ => h, fun _ => rfl⟩

theorem nonEmpty_eq_self {value : Option String} : nonEmpty value = value ↔ value ≠ some "" := by
  unfold nonEmpty
  cases value with
  | none => simp
  | some text => by_cases h : text = "" <;> simp [h]

/-- An item decodes to itself when the decoder has nothing to replace. -/
theorem reread_eq_self {item : VikingItem} {uri : String} (hid : item.memoryId ≠ "")
    (hscope : item.scope ≠ "") (hkind : item.sourceKind ≠ "") :
    item.reread uri = item ↔ item.memoryType ≠ "" ∧ item.nameSpace ≠ ""
      ∧ item.sourceAgentId ≠ some "" ∧ item.version ≠ 0 := by
  have hversion : (if item.version = 0 then 1 else item.version) = item.version
      ↔ item.version ≠ 0 := by
    split <;> omega
  have hkeep : ∀ {text : String} (fallback : String), text ≠ "" → textOr text fallback = text :=
    fun _ h => if_neg h
  cases item
  simp only [VikingItem.reread, VikingItem.mk.injEq, hkeep _ hid, hkeep _ hscope, hkeep _ hkind,
    textOr_eq_self (show "semantic" ≠ "" by decide),
    textOr_eq_self (show "preferences" ≠ "" by decide), nonEmpty_eq_self, hversion, true_and,
    and_true]
  tauto

/-! ## Operations -/

/-- `_metadata_iso` of the end of an item's validity. -/
def VikingItem.validUntil (item : VikingItem) : Option String :=
  let value := Dict.get item.metadata "valid_until"
  if value.truthy then some value.pyStr else none

/-- The item already says `value`, to the end `validUntil`. -/
def VikingItem.sameAs (value : String) (validUntil : Option String) (item : VikingItem) : Bool :=
  item.content = value && item.validUntil = validUntil

/-- The server after `remember`, the item that it returns and the document that
it wrote, if it wrote one. -/
structure Remembered where
  server : VikingServer
  item : VikingItem
  written : Option Json

namespace OpenViking

variable (provider : OpenViking)

/-- `get_current`. -/
def currentItem (scope : MemoryScope) (key : String) (server : VikingServer) :
    Except String (Option VikingItem) :=
  let uri := provider.env.memoryUri scope key
  match Dict.get? (server.documents (provider.identity scope)) uri with
  | none => .ok none
  | some document => (decodeDocument document uri).map some

/-- The item that `remember` writes after `current`. -/
def writtenItem (scope : MemoryScope) (memory : VikingWrite) (now : Time)
    (current : Option VikingItem) (validUntil : Option String) : VikingItem where
  memoryId := provider.env.scopedMemoryId scope (provider.env.memoryUri scope memory.key)
  memoryType := memory.memoryType
  key := memory.key
  content := memory.value
  scope := scope.memoryScope.text
  nameSpace := scope.nameSpace
  version := (current.map fun item => item.version + 1).getD 1
  sourceAgentId := (nonEmpty memory.sourceAgentId).or scope.agentId
  sourceKind := memory.sourceKind.text
  metadata := [
    ("tenant_id", .str scope.tenant),
    ("user_id", .str scope.userId),
    ("agent_id", optText scope.rowAgent),
    ("source_session_id", optText ((nonEmpty memory.sourceSessionId).or scope.sessionId)),
    ("source_trace_id", optText memory.sourceTraceId),
    ("confidence", .float (provider.env.repr memory.confidence)),
    ("importance", .float (provider.env.repr memory.importance)),
    ("supersedes_id", optText (current.map VikingItem.memoryId)),
    ("valid_from", .str (provider.env.isoformat now)),
    ("valid_until", optText validUntil),
    ("reason", optText memory.reason),
    ("provider", .str "openviking"),
    ("provider_uri", .str (provider.env.memoryUri scope memory.key))]

/-- `remember`. -/
def rememberWrite (scope : MemoryScope) (memory : VikingWrite) (now : Time)
    (server : VikingServer) : Except String Remembered := do
  let current ← provider.currentItem scope memory.key server
  let validUntil ← provider.env.iso memory.expiresAt
  match current.filter (VikingItem.sameAs memory.value validUntil) with
  | some item => return ⟨server, item, none⟩
  | none =>
      let who := provider.identity scope
      let item := provider.writtenItem scope memory now current validUntil
      let document := documentOf item
      let documents := Dict.set (server.documents who) (provider.env.memoryUri scope memory.key)
        document
      return ⟨server.update who documents, item, some document⟩

variable {provider : OpenViking} {scope : MemoryScope} {memory : VikingWrite} {now : Time}
  {server : VikingServer} {done : Remembered}

theorem getCurrent_eq_map (key : String) :
    provider.getCurrent scope key server
      = (provider.currentItem scope key server).map (Option.map VikingItem.toItem) := by
  unfold getCurrent readItem currentItem
  dsimp only
  cases Dict.get? (server.documents (provider.identity scope)) (provider.env.memoryUri scope key)
    with
  | none => rfl
  | some document =>
      dsimp only
      rw [documentToItem_eq_map]
      cases decodeDocument document (provider.env.memoryUri scope key) <;> rfl

/-- `remember` returns the current item when it says the same and else replaces it. -/
theorem rememberWrite_cases (h : provider.rememberWrite scope memory now server = .ok done) :
    ∃ current validUntil, provider.currentItem scope memory.key server = .ok current
      ∧ provider.env.iso memory.expiresAt = .ok validUntil
      ∧ ((∃ item, current = some item ∧ item.sameAs memory.value validUntil = true
            ∧ done = ⟨server, item, none⟩)
          ∨ done = ⟨server.update (provider.identity scope)
                (Dict.set (server.documents (provider.identity scope))
                  (provider.env.memoryUri scope memory.key)
                  (documentOf (provider.writtenItem scope memory now current validUntil))),
              provider.writtenItem scope memory now current validUntil,
              some (documentOf (provider.writtenItem scope memory now current validUntil))⟩) := by
  unfold rememberWrite at h
  cases hcurrent : provider.currentItem scope memory.key server with
  | error e =>
      rw [hcurrent] at h
      cases h
  | ok current =>
      cases hiso : provider.env.iso memory.expiresAt with
      | error e =>
          rw [hcurrent, hiso] at h
          cases h
      | ok validUntil =>
          rw [hcurrent, hiso] at h
          simp only [bind, Except.bind, pure, Except.pure] at h
          refine ⟨current, validUntil, rfl, rfl, ?_⟩
          cases hfilter : current.filter (VikingItem.sameAs memory.value validUntil) with
          | none =>
              rw [hfilter] at h
              exact Or.inr (Except.ok.inj h).symm
          | some item =>
              rw [hfilter] at h
              obtain ⟨hitem, hsame⟩ := Option.filter_eq_some_iff.mp hfilter
              exact Or.inl ⟨item, hitem, hsame, (Except.ok.inj h).symm⟩

section ToWrite

variable {kind : MemoryType} {validUntil : Option String}

theorem sameItem_toWrite (hiso : provider.env.iso memory.expiresAt = .ok validUntil)
    (item : VikingItem) :
    provider.sameItem (memory.toWrite kind) item.toItem
      = item.sameAs memory.value validUntil := by
  unfold sameItem VikingItem.sameAs
  rw [← VikingEnv.iso_eq_ok hiso]
  simp only [VikingWrite.toWrite, Option.map_map]
  rfl

/-- Over a count, the item and its document are those of the write in the table's types. -/
theorem newItem_toWrite {current : Option VikingItem} (hkind : memory.memoryType = kind.text)
    (hiso : provider.env.iso memory.expiresAt = .ok validUntil)
    (hcount : ∀ item, current = some item → 0 ≤ item.version) :
    itemToDocument (provider.newItem scope (memory.toWrite kind) now
        (current.map VikingItem.toItem))
      = documentOf (provider.writtenItem scope memory now current validUntil)
    ∧ (provider.writtenItem scope memory now current validUntil).toItem
      = provider.newItem scope (memory.toWrite kind) now (current.map VikingItem.toItem) := by
  unfold itemToDocument documentOf newItem writtenItem VikingItem.toItem VikingWrite.toWrite
  simp only [Option.map_map, ← VikingEnv.iso_eq_ok hiso, ← hkind]
  cases current with
  | none => exact ⟨rfl, rfl⟩
  | some item =>
      have hversion := hcount item rfl
      have hsucc : ((item.version.toNat + 1 : Nat) : Int) = item.version + 1 := by omega
      have htoNat : (item.version + 1).toNat = item.version.toNat + 1 := by omega
      exact ⟨by simp [Function.comp_def, ← hsucc], by simp [Function.comp_def, htoNat]⟩

/-- On writes of the table's types over a count, `rememberWrite` is `remember`. -/
theorem rememberWrite_toWrite (hkind : memory.memoryType = kind.text)
    (hiso : provider.env.iso memory.expiresAt = .ok validUntil)
    (hcount : ∀ item, provider.currentItem scope memory.key server = .ok (some item) →
      0 ≤ item.version) :
    (provider.rememberWrite scope memory now server).map (fun d => (d.server, d.item.toItem))
      = provider.remember scope (memory.toWrite kind) now server := by
  have hkey : (memory.toWrite kind).key = memory.key := rfl
  unfold rememberWrite remember
  rw [hkey, getCurrent_eq_map]
  cases hcurrent : provider.currentItem scope memory.key server with
  | error e => rfl
  | ok current =>
      obtain ⟨hdocument, hitem⟩ := @newItem_toWrite provider scope memory now kind validUntil
        current hkind hiso fun item h => hcount item (h ▸ hcurrent)
      have hfilter : (current.map VikingItem.toItem).filter
            (provider.sameItem (memory.toWrite kind))
          = (current.filter (VikingItem.sameAs memory.value validUntil)).map VikingItem.toItem := by
        rw [Option.filter_map]
        congr 2
        exact funext (sameItem_toWrite hiso)
      simp only [hiso, Except.map, bind, Except.bind, pure, Except.pure, hfilter]
      cases current.filter (VikingItem.sameAs memory.value validUntil) with
      | some item => rfl
      | none =>
          dsimp only [Option.map_none]
          rw [hdocument, hitem]

end ToWrite

/-! ## A second `remember` -/

/-- The document at a key that was just written is read back. -/
theorem currentItem_update (key : String) (item : VikingItem) :
    provider.currentItem scope key
        (server.update (provider.identity scope)
          (Dict.set (server.documents (provider.identity scope)) (provider.env.memoryUri scope key)
            (documentOf item)))
      = .ok (some (item.reread (provider.env.memoryUri scope key))) := by
  unfold currentItem VikingServer.update
  simp only [if_true, Dict.get?_set, decodeDocument_documentOf, Except.map]

/-- A written item still says what was to be remembered. -/
theorem sameAs_reread {current : Option VikingItem} {validUntil : Option String}
    (hnonempty : ∀ text, validUntil = some text → text ≠ "") (uri : String) :
    ((provider.writtenItem scope memory now current validUntil).reread uri).sameAs memory.value
      validUntil = true := by
  have huntil : ((provider.writtenItem scope memory now current validUntil).reread uri).validUntil
      = validUntil := by
    unfold VikingItem.validUntil VikingItem.reread writtenItem
    simp only [Dict.get, Dict.get?_cons, String.reduceEq, if_true, if_false, Option.getD_some]
    cases validUntil with
    | none => rfl
    | some text =>
        have htruthy : (optText (some text)).truthy = true := by
          simpa [optText] using hnonempty text rfl
        rw [if_pos htruthy]
        rfl
  unfold VikingItem.sameAs
  rw [huntil]
  simp [VikingItem.reread, writtenItem]

/-- Whatever was remembered, remembering the same writes nothing. -/
theorem rememberWrite_again {again : VikingWrite} (later : Time)
    (h : provider.rememberWrite scope memory now server = .ok done)
    (hkey : again.key = memory.key) (hvalue : again.value = memory.value)
    (hexpires : again.expiresAt.map Datetime.instant = memory.expiresAt.map Datetime.instant) :
    ∃ item, provider.rememberWrite scope again later done.server = .ok ⟨done.server, item, none⟩
      ∧ (done.written = none → item = done.item)
      ∧ (∀ document, done.written = some document →
        item = done.item.reread (provider.env.memoryUri scope memory.key)) := by
  obtain ⟨current, validUntil, hcurrent, hiso, hdone⟩ := rememberWrite_cases h
  have hsecond : ∀ item, provider.currentItem scope memory.key done.server = .ok (some item) →
      item.sameAs memory.value validUntil = true →
      provider.rememberWrite scope again later done.server = .ok ⟨done.server, item, none⟩ := by
    intro item hitem hsame
    unfold rememberWrite
    rw [hkey, hitem, provider.env.iso_congr hexpires, hiso, hvalue]
    simp only [bind, Except.bind, pure, Except.pure]
    rw [Option.filter_some, if_pos hsame]
  rcases hdone with ⟨item, rfl, hsame, rfl⟩ | rfl
  · exact ⟨item, hsecond item hcurrent hsame, fun _ => rfl, fun _ hwritten => (nomatch hwritten)⟩
  · have hread := @currentItem_update provider scope server memory.key
      (provider.writtenItem scope memory now current validUntil)
    have hnonempty : ∀ text, validUntil = some text → text ≠ "" := fun text htext =>
      VikingEnv.iso_ne_empty (htext ▸ hiso)
    exact ⟨_, hsecond _ hread (sameAs_reread hnonempty _), fun hnone => (nomatch hnone),
      fun _ _ => rfl⟩

/-- What is stored at a key does not have the version -1, as nothing has that
`remember` wrote over a count. -/
def Counted (provider : OpenViking) (scope : MemoryScope) (key : String) (server : VikingServer) :
    Prop :=
  ∀ current, provider.currentItem scope key server = .ok (some current) → current.version ≠ -1

theorem writtenItem_version {current : Option VikingItem} {validUntil : Option String}
    (hcurrent : provider.currentItem scope memory.key server = .ok current) :
    (provider.writtenItem scope memory now current validUntil).version ≠ 0
      ↔ provider.Counted scope memory.key server := by
  unfold Counted
  rw [hcurrent]
  unfold writtenItem
  cases current with
  | none => exact ⟨fun _ _ h => (nomatch h), fun _ => Int.one_ne_zero⟩
  | some item =>
      have hsucc : item.version + 1 ≠ 0 ↔ item.version ≠ -1 := by omega
      simp only [Option.map_some, Option.getD_some, hsucc]
      exact ⟨fun h other hother => by cases hother; exact h, fun h => h item rfl⟩

theorem scopedMemoryId_ne_empty {env : VikingEnv} (scope : MemoryScope) (uri : String) :
    env.scopedMemoryId scope uri ≠ "" := by
  intro h
  have hlist := congrArg String.toList h
  unfold VikingEnv.scopedMemoryId at hlist
  simp only [String.toList_append] at hlist
  simp at hlist

/-- The document that `remember` wrote decodes to the item that it returned when
the decoder finds nothing to replace. -/
theorem written_decodes_iff {document : Json} (uri : String)
    (h : provider.rememberWrite scope memory now server = .ok done)
    (hwritten : done.written = some document) :
    decodeDocument document uri = .ok done.item
      ↔ memory.memoryType ≠ "" ∧ scope.nameSpace ≠ ""
        ∧ (nonEmpty memory.sourceAgentId).or scope.agentId ≠ some ""
        ∧ provider.Counted scope memory.key server := by
  obtain ⟨current, validUntil, hcurrent, -, hdone⟩ := rememberWrite_cases h
  rcases hdone with ⟨item, -, -, rfl⟩ | rfl
  · cases hwritten
  · obtain rfl := Option.some.inj hwritten
    dsimp only
    rw [decodeDocument_documentOf, Except.ok.injEq, reread_eq_self, writtenItem_version hcurrent]
    · exact Iff.rfl
    · exact scopedMemoryId_ne_empty scope _
    · cases hkind : scope.memoryScope <;> simp [writtenItem, hkind, ScopeKind.text]
    · cases hkind : memory.sourceKind <;> simp [writtenItem, hkind, SourceKind.text]

end OpenViking

/-- What `remember` writes decodes to the item that it returns if and only if no
text of it is replaced by a default and the count did not start below 0. The
same value until the same moment is then not written again, whatever the zone of
the moment, and the version stays, as it does where `remember` itself wrote nothing. -/
theorem remembered_decodes {provider : OpenViking} {scope : MemoryScope} {memory : VikingWrite}
    {now : Time} {server : VikingServer} {done : Remembered}
    (h : provider.rememberWrite scope memory now server = .ok done) :
    (∀ document, done.written = some document → ∀ uri,
      (decodeDocument document uri = .ok done.item
        ↔ memory.memoryType ≠ "" ∧ scope.nameSpace ≠ ""
          ∧ (nonEmpty memory.sourceAgentId).or scope.agentId ≠ some ""
          ∧ provider.Counted scope memory.key server))
      ∧ ∀ (again : VikingWrite) (later : Time), again.key = memory.key →
        again.value = memory.value →
        again.expiresAt.map Datetime.instant = memory.expiresAt.map Datetime.instant →
        ∃ item,
          provider.rememberWrite scope again later done.server = .ok ⟨done.server, item, none⟩
          ∧ (done.written = none ∨ provider.Counted scope memory.key server →
              item.version = done.item.version) := by
  refine ⟨fun document hwritten uri => OpenViking.written_decodes_iff uri h hwritten, ?_⟩
  intro again later hkey hvalue hexpires
  obtain ⟨item, hagain, hkept, hreplaced⟩ :=
    OpenViking.rememberWrite_again later h hkey hvalue hexpires
  refine ⟨item, hagain, fun hstays => ?_⟩
  obtain ⟨current, validUntil, hcurrent, -, hdone⟩ := OpenViking.rememberWrite_cases h
  rcases hdone with ⟨found, -, -, rfl⟩ | rfl
  · rw [hkept rfl]
  · have hcounted := hstays.resolve_left (Option.some_ne_none _)
    rw [hreplaced _ rfl]
    exact if_neg ((OpenViking.writtenItem_version hcurrent).mpr hcounted)

/-- "Lyon" under "city". -/
def cityWrite (expiresAt : Option Datetime) : VikingWrite where
  key := "city"
  value := "Lyon"
  expiresAt := expiresAt
  keyStripped := city_stripped
  keyNonblank := city_nonblank
  valueNonblank := (cityMemory none).valueNonblank
  confidenceUnit := defaultConfidence_unit
  importanceUnit := defaultImportance_unit

/-- Until 1970 began in UTC, and again until eight o'clock eight hours ahead. -/
theorem remembered_decodes_city :
    ∃ done item,
      (sampleViking .trusted).rememberWrite (preferences "acme") (cityWrite (some ⟨0, none⟩)) 0
          ⟨fun _ => []⟩ = .ok done
        ∧ (∃ document, done.written = some document
          ∧ decodeDocument document "" = .ok done.item)
        ∧ (sampleViking .trusted).rememberWrite (preferences "acme")
            (cityWrite (some ⟨28800000000, some 28800000000⟩)) 1000000 done.server
          = .ok ⟨done.server, item, none⟩
        ∧ item.version = done.item.version := by
  have hcounted : (sampleViking .trusted).Counted (preferences "acme") "city" ⟨fun _ => []⟩ :=
    fun _ hcurrent => nomatch Except.ok.inj hcurrent
  obtain ⟨done, hdone⟩ : ∃ done, (sampleViking .trusted).rememberWrite (preferences "acme")
      (cityWrite (some ⟨0, none⟩)) 0 ⟨fun _ => []⟩ = .ok done := ⟨_, rfl⟩
  obtain ⟨hdecodes, hagain⟩ := remembered_decodes hdone
  obtain ⟨item, hitem, hversion⟩ :=
    hagain (cityWrite (some ⟨28800000000, some 28800000000⟩)) 1000000 rfl rfl rfl
  obtain ⟨document, hdocument⟩ : ∃ document, done.written = some document := by
    cases hdone
    exact ⟨_, rfl⟩
  exact ⟨done, item, hdone, ⟨document, hdocument, (hdecodes document hdocument "").mpr
    ⟨by decide, by decide, by decide, hcounted⟩⟩, hitem,
    hversion (Or.inr hcounted)⟩

/-- "Paris" under "city", in the version -1. -/
def uncountedItem : VikingItem :=
  ⟨"m", "semantic", "city", "Paris", "user_global", "preferences", -1, none, "explicit", []⟩

/-- A server that holds only this item. -/
def uncountedServer : VikingServer :=
  VikingServer.update ⟨fun _ => []⟩ ((sampleViking .trusted).identity (preferences "acme"))
    (Dict.set [] ((sampleViking .trusted).env.memoryUri (preferences "acme") "city")
      (documentOf uncountedItem))

theorem currentItem_uncountedServer :
    (sampleViking .trusted).currentItem (preferences "acme") "city" uncountedServer
      = .ok (some (uncountedItem.reread
          ((sampleViking .trusted).env.memoryUri (preferences "acme") "city"))) :=
  @OpenViking.currentItem_update (sampleViking .trusted) (preferences "acme") ⟨fun _ => []⟩ "city"
    uncountedItem

/-- An empty namespace, an empty source agent and a count from below 0 are
accepted and do not come back. -/
theorem replaced_texts_differ :
    (∃ done document,
      (sampleViking .trusted).rememberWrite { preferences "acme" with nameSpace := "" }
          (cityWrite none) 0 ⟨fun _ => []⟩ = .ok done
        ∧ done.written = some document ∧ decodeDocument document "" ≠ .ok done.item)
    ∧ (∃ done document,
      (sampleViking .trusted).rememberWrite { preferences "acme" with agentId := some "" }
          (cityWrite none) 0 ⟨fun _ => []⟩ = .ok done
        ∧ done.written = some document ∧ decodeDocument document "" ≠ .ok done.item)
    ∧ ∃ done document,
      (sampleViking .trusted).rememberWrite (preferences "acme") (cityWrite none) 0
          uncountedServer = .ok done
        ∧ done.written = some document ∧ decodeDocument document "" ≠ .ok done.item := by
  have hpast : ∃ done document,
      (sampleViking .trusted).rememberWrite (preferences "acme") (cityWrite none) 0
          uncountedServer = .ok done ∧ done.written = some document := by
    unfold OpenViking.rememberWrite
    rw [show (cityWrite none).key = "city" from rfl, currentItem_uncountedServer]
    exact ⟨_, _, rfl, rfl⟩
  have hdiffers : ∀ {scope : MemoryScope} {server : VikingServer},
      (∃ done document, (sampleViking .trusted).rememberWrite scope (cityWrite none) 0 server
          = .ok done ∧ done.written = some document) →
        ¬ ("semantic" ≠ "" ∧ scope.nameSpace ≠ "" ∧ scope.agentId ≠ some ""
          ∧ (sampleViking .trusted).Counted scope "city" server) →
        ∃ done document, (sampleViking .trusted).rememberWrite scope (cityWrite none) 0 server
          = .ok done ∧ done.written = some document
          ∧ decodeDocument document "" ≠ .ok done.item := by
    rintro scope server ⟨done, document, hdone, hdocument⟩ hreplaced
    exact ⟨done, document, hdone, hdocument, fun h =>
      hreplaced ((OpenViking.written_decodes_iff "" hdone hdocument).mp h)⟩
  refine ⟨hdiffers ⟨_, _, rfl, rfl⟩ fun h => h.2.1 rfl,
    hdiffers ⟨_, _, rfl, rfl⟩ fun h => h.2.2.1 rfl,
    hdiffers hpast fun h => h.2.2.2 _ currentItem_uncountedServer rfl⟩

end Aegora
