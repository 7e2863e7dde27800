import Aegora.MemoryLifecycle

/-!
# Turns of a chat session

Three entry points run a turn: `handle_chat_turn`, `run_configured_request`
and `run_configured_webhook_request`. Each reads messages of the session, runs
the agent and saves with `save_chat_turn`: the session's entry, the user's
message, the assistant's message. An upsert of the content store is two
requests, `find_one` and then a write, and the requests of several turns
interleave.

The chat turn does all of it under the session's advisory lock. The configured
turns take no lock; they read two views, which are empty when a read fails.

What the turns do not read back is left out of the entries: the metadata, the
observability of an answer and the times, for which the order of creation
stands.
-/

namespace Aegora

open Py

/-! ## The content store -/

/-- An entry of a collection. -/
structure StrapiRow (α : Type) where
  reference : Nat
  data : α

/-- A collection in the order of creation; a new entry has a reference of its own. -/
structure StrapiRows (α : Type) where
  rows : List (StrapiRow α)
  next : Nat
  below : ∀ row ∈ rows, row.reference < next
  distinct : (rows.map StrapiRow.reference).Nodup

namespace StrapiRows

variable {α : Type}

def data (c : StrapiRows α) : List α := c.rows.map StrapiRow.data

/-- `StrapiClient.find_one`, the reference of the entry it answers. -/
def findOne (c : StrapiRows α) (p : α → Bool) : Option Nat :=
  (c.rows.find? fun row => p row.data).map StrapiRow.reference

/-- `StrapiClient.create`. -/
def create (c : StrapiRows α) (data : α) : StrapiRows α where
  rows := c.rows ++ [⟨c.next, data⟩]
  next := c.next + 1
  below := by
    intro row hrow
    rcases List.mem_append.mp hrow with h | h
    · exact Nat.lt_succ_of_lt (c.below row h)
    · rw [List.mem_singleton.mp h]
      exact Nat.lt_succ_self _
  distinct := by
    rw [List.map_append, List.nodup_append]
    refine ⟨c.distinct, by simp, fun a ha b hb => ?_⟩
    obtain ⟨row, hrow, rfl⟩ := List.mem_map.mp ha
    have hlt := c.below row hrow
    have hb : b = c.next := by simpa using hb
    omega

/-- The entry with new data, when it is the one referred to. -/
def putRow (reference : Nat) (data : α) (row : StrapiRow α) : StrapiRow α :=
  if row.reference = reference then { row with data := data } else row

@[simp] theorem putRow_reference (reference : Nat) (data : α) (row : StrapiRow α) :
    (putRow reference data row).reference = row.reference := by
  unfold putRow
  split <;> rfl

/-- `StrapiClient.update`. -/
def update (c : StrapiRows α) (reference : Nat) (data : α) : StrapiRows α where
  rows := c.rows.map (putRow reference data)
  next := c.next
  below := by
    intro row hrow
    obtain ⟨old, hold, rfl⟩ := List.mem_map.mp hrow
    rw [putRow_reference]
    exact c.below old hold
  distinct := by
    rw [List.map_map]
    simpa [Function.comp_def] using c.distinct

/-- The second request of an upsert, after `find_one` answered `existing`. -/
def put (c : StrapiRows α) (existing : Option Nat) (data : α) : StrapiRows α :=
  match existing with
  | some reference => c.update reference data
  | none => c.create data

@[simp] theorem data_create (c : StrapiRows α) (data : α) :
    (c.create data).data = c.data ++ [data] := by
  simp [StrapiRows.data, create]

/-- No entry is found exactly when none satisfies the filter. -/
theorem findOne_eq_none {c : StrapiRows α} {p : α → Bool} :
    c.findOne p = none ↔ ∀ x ∈ c.data, p x = false := by
  simp [findOne, StrapiRows.data]

/-- An entry that is found exists, and it is the only one of its reference. -/
theorem of_findOne {c : StrapiRows α} {p : α → Bool} {reference : Nat}
    (h : c.findOne p = some reference) :
    reference < c.next
      ∧ ∀ row ∈ c.rows, row.reference = reference → p row.data = true := by
  obtain ⟨found, hfind, rfl⟩ := Option.map_eq_some_iff.mp h
  have hmem := List.mem_of_find?_eq_some hfind
  refine ⟨c.below found hmem, fun row hrow href => ?_⟩
  rw [List.inj_on_of_nodup_map c.distinct hrow hmem href]
  have hp := List.find?_some hfind
  exact hp

section StillFound

variable {κ : Type} {key : α → κ} {k k' : κ} {c : StrapiRows α} {existing existing' : Option Nat}
  {data : α}

/-- What `find_one` answered for the key is still so. -/
def StillFound (c : StrapiRows α) (key : α → κ) (k : κ) : Option Nat → Prop
  | none => ∀ x ∈ c.data, key x ≠ k
  | some reference =>
      reference < c.next ∧ ∀ row ∈ c.rows, row.reference = reference → key row.data = k

theorem stillFound_findOne [DecidableEq κ] (c : StrapiRows α) (key : α → κ) (k : κ) :
    c.StillFound key k (c.findOne fun x => key x = k) := by
  cases hfind : c.findOne fun x => key x = k with
  | none =>
      intro x hx
      simpa using findOne_eq_none.mp hfind x hx
  | some reference =>
      obtain ⟨hlt, hrows⟩ := of_findOne hfind
      exact ⟨hlt, fun row hrow href => by simpa using hrows row hrow href⟩

/-- The upsert of a key leaves each key with one entry. -/
theorem StillFound.nodup_put (h : c.StillFound key k existing) (hdata : key data = k)
    (hnodup : (c.data.map key).Nodup) : ((c.put existing data).data.map key).Nodup := by
  cases existing with
  | none =>
      unfold put
      rw [data_create, List.map_append, List.nodup_append]
      refine ⟨hnodup, by simp, fun x hx y hy => ?_⟩
      obtain ⟨old, hold, rfl⟩ := List.mem_map.mp hx
      rw [show y = k by simpa [hdata] using hy]
      exact h old hold
  | some reference =>
      have hkeys : (c.put (some reference) data).data.map key = c.data.map key := by
        simp only [put, update, StrapiRows.data, List.map_map, List.map_inj_left,
          Function.comp_apply]
        intro row hrow
        unfold putRow
        split
        · rename_i href
          exact hdata.trans (h.2 row hrow href).symm
        · rfl
      rwa [hkeys]

/-- The upsert of another key changes nothing about what was found. -/
theorem StillFound.put_other (h' : c.StillFound key k' existing')
    (h : c.StillFound key k existing) (hdata : key data = k) (hne : k' ≠ k) :
    (c.put existing data).StillFound key k' existing' := by
  cases existing with
  | none =>
      cases existing' with
      | none =>
          intro x hx
          rw [put, data_create] at hx
          obtain hx | hx := List.mem_append.mp hx
          · exact h' x hx
          · rw [List.mem_singleton.mp hx, hdata]
            exact Ne.symm hne
      | some reference' =>
          refine ⟨Nat.lt_succ_of_lt h'.1, fun row hrow href => ?_⟩
          obtain hrow | hrow := List.mem_append.mp hrow
          · exact h'.2 row hrow href
          · have hlt := h'.1
            rw [List.mem_singleton.mp hrow] at href
            simp only at href
            omega
  | some reference =>
      have hrows : ∀ row ∈ (c.put (some reference) data).rows,
          ∃ old ∈ c.rows, old.reference = row.reference ∧ key row.data = key old.data := by
        intro row hrow
        obtain ⟨old, hold, rfl⟩ := List.mem_map.mp hrow
        refine ⟨old, hold, (putRow_reference reference data old).symm, ?_⟩
        unfold putRow
        split
        · rename_i href
          exact hdata.trans (h.2 old hold href).symm
        · rfl
      cases existing' with
      | none =>
          intro x hx
          obtain ⟨row, hrow, rfl⟩ := List.mem_map.mp hx
          obtain ⟨old, hold, -, hkey⟩ := hrows row hrow
          rw [hkey]
          exact h' old.data (List.mem_map_of_mem hold)
      | some reference' =>
          refine ⟨h'.1, fun row hrow href => ?_⟩
          obtain ⟨old, hold, hreference, hkey⟩ := hrows row hrow
          rw [hkey]
          exact h'.2 old hold (hreference.trans href)

end StillFound

end StrapiRows

inductive ChatRole where
  | user
  | assistant
  deriving DecidableEq

def ChatRole.text : ChatRole → String
  | .user => "user"
  | .assistant => "assistant"

/-- An entry of `chat_sessions`. -/
structure ChatSession where
  sessionId : String
  userId : String
  title : String
  source : String
  deriving DecidableEq

/-- An entry of `chat_messages`. -/
structure ChatMessage where
  messageKey : String
  sessionId : String
  userId : String
  traceId : String
  role : ChatRole
  content : String
  source : String
  deriving DecidableEq

/-- `f"{trace_id}:{role}"`. -/
def messageKey (traceId : String) (role : ChatRole) : String := traceId ++ ":" ++ role.text

/-- The two collections of the chat. -/
structure ContentStore where
  sessions : StrapiRows ChatSession
  messages : StrapiRows ChatMessage

/-- The newest messages that pass the filter, the oldest of them first. Every stored message has
a role, a key and a content, so each is visible. -/
def listMessages (c : ContentStore) (p : ChatMessage → Bool) (limit : Nat) : List ChatMessage :=
  ((c.messages.data.filter p).reverse.take limit).reverse

/-- `load_session_messages`. -/
def loadSessionMessages (c : ContentStore) (sessionId : String) (limit : Nat) :
    List ChatMessage :=
  listMessages c (fun m => m.sessionId = sessionId) limit

/-- `session_user_id`. -/
def sessionUserId (sessionId userId : String) : String :=
  textOr (strip userId) (deriveUserIdFromSession sessionId)

/-- `load_session_user_messages`. -/
def loadSessionUserMessages (c : ContentStore) (sessionId userId : String) (limit : Nat) :
    List ChatMessage :=
  listMessages c
    (fun m => m.sessionId = sessionId ∧ m.userId = sessionUserId sessionId userId) limit

/-- The `session_user_context` of `load_session_context_views`: the user's messages that the
session's rows do not have already, the newest of them. -/
def sessionUserContext (sessionRows userRows : List ChatMessage) (limit : Nat) :
    List ChatMessage :=
  let unseen := userRows.filter fun m => m.messageKey ∉ sessionRows.map ChatMessage.messageKey
  unseen.drop (unseen.length - limit)

/-! ## Turns -/

inductive EntryPoint where
  | handleChatTurn
  | runConfiguredRequest
  | runConfiguredWebhookRequest
  deriving DecidableEq

/-- The arguments of a turn. -/
structure ChatRequest where
  entry : EntryPoint
  sessionId : String
  userId : String := ""
  message : String
  source : String := "api"
  deriving DecidableEq

namespace ChatRequest

def session (r : ChatRequest) : String := normalizeSessionId r.sessionId

/-- The user whose messages are saved: that of the session for a chat turn. -/
def user (r : ChatRequest) : String :=
  match r.entry with
  | .handleChatTurn => sessionUserId r.session (deriveUserIdFromSession r.session)
  | .runConfiguredRequest | .runConfiguredWebhookRequest => sessionUserId r.session r.userId

/-- The message as it is saved. -/
def text (r : ChatRequest) : String :=
  match r.entry with
  | .handleChatTurn => strip r.message
  | .runConfiguredRequest | .runConfiguredWebhookRequest => r.message

def origin (r : ChatRequest) : String :=
  match r.entry with
  | .handleChatTurn | .runConfiguredRequest => r.source
  | .runConfiguredWebhookRequest => "webhook"

end ChatRequest

/-- What an upsert of `save_chat_turn` saves. -/
inductive SavedEntry where
  | session
  | message (role : ChatRole)
  deriving DecidableEq

/-- Where a turn stands, between two requests to PostgreSQL or the content store. -/
inductive ChatPhase where
  /-- Before `pg_advisory_lock`. -/
  | waiting
  /-- Before the first read of the session. -/
  | reading
  /-- Before the read of the user's messages; the messages of the session are read. -/
  | readingUser (rows : List ChatMessage)
  | running
  /-- Before `find_one` of an upsert. -/
  | finding (entry : SavedEntry) (answer : String)
  /-- Before the write of an upsert. -/
  | writing (entry : SavedEntry) (answer : String) (existing : Option Nat)
  /-- The entry point returned or raised; the lock is released. -/
  | ended
  deriving DecidableEq

/-- A turn: its request, the trace of its run and the histories it has read. -/
structure SessionTurn where
  request : ChatRequest
  trace : String
  phase : ChatPhase
  views : List (List ChatMessage) := []
  deriving DecidableEq

/-- A turn begins. A chat turn without a message raises, the configured turns read at once. -/
def ChatRequest.begin (r : ChatRequest) (trace : String) : SessionTurn where
  request := r
  trace := trace
  phase :=
    match r.entry with
    | .handleChatTurn => if strip r.message = "" then .ended else .waiting
    | .runConfiguredRequest | .runConfiguredWebhookRequest => .reading

namespace SessionTurn

/-- The turn holds the advisory lock of its session. -/
def holdsLock (t : SessionTurn) : Bool :=
  match t.request.entry, t.phase with
  | .handleChatTurn, .waiting | .handleChatTurn, .ended => false
  | .handleChatTurn, _ => true
  | _, _ => false

/-- What `save_chat_turn` saves for the turn's session. -/
def sessionData (t : SessionTurn) : ChatSession where
  sessionId := t.request.session
  userId := t.request.user
  title := textOr (String.ofList ((strip t.request.text).toList.take 80)) "未命名会话"
  source := t.request.origin

/-- A message that `save_chat_turn` saves. -/
def messageData (t : SessionTurn) (answer : String) (role : ChatRole) : ChatMessage where
  messageKey := messageKey t.trace role
  sessionId := t.request.session
  userId := t.request.user
  traceId := t.trace
  role := role
  content :=
    match role with
    | .user => t.request.text
    | .assistant => answer
  source := t.request.origin

/-- `find_one` of an upsert. -/
def find (t : SessionTurn) (c : ContentStore) : SavedEntry → Option Nat
  | .session => c.sessions.findOne fun row => row.sessionId = t.request.session
  | .message role => c.messages.findOne fun row => row.messageKey = messageKey t.trace role

/-- The write of an upsert. -/
def write (t : SessionTurn) (answer : String) (existing : Option Nat) (c : ContentStore) :
    SavedEntry → ContentStore
  | .session => { c with sessions := c.sessions.put existing t.sessionData }
  | .message role =>
      { c with messages := c.messages.put existing (t.messageData answer role) }

/-- After a write: the next upsert of `save_chat_turn`. -/
def afterWrite (answer : String) : SavedEntry → ChatPhase
  | .session => .finding (.message .user) answer
  | .message .user => .finding (.message .assistant) answer
  | .message .assistant => .ended

/-- The answer to the turn's next request, with the store after it. -/
def next (t : SessionTurn) (c : ContentStore) : Option (ContentStore × SessionTurn) :=
  match t.phase with
  | .waiting => some (c, { t with phase := .reading })
  | .reading =>
      match t.request.entry with
      | .handleChatTurn =>
          some (c, { t with
            phase := .running, views := [loadSessionMessages c t.request.session 20] })
      | .runConfiguredRequest | .runConfiguredWebhookRequest =>
          some (c, { t with phase := .readingUser (loadSessionMessages c t.request.session 8) })
  | .readingUser rows =>
      let userRows := loadSessionUserMessages c t.request.session t.request.user (8 + 8)
      some (c, { t with phase := .running, views := [rows, sessionUserContext rows userRows 8] })
  | .running => none
  | .finding entry answer => some (c, { t with phase := .writing entry answer (t.find c entry) })
  | .writing entry answer existing =>
      some (t.write answer existing c entry, { t with phase := afterWrite answer entry })
  | .ended => none

/-- The turn's next request fails, a write perhaps after it was applied. The exception ends the
turn, except while a configured turn loads its views. -/
def fail (t : SessionTurn) (applied : Bool) (c : ContentStore) :
    Option (ContentStore × SessionTurn) :=
  match t.phase with
  | .waiting | .running | .finding _ _ => some (c, { t with phase := .ended })
  | .reading =>
      match t.request.entry with
      | .handleChatTurn => some (c, { t with phase := .ended })
      | .runConfiguredRequest | .runConfiguredWebhookRequest =>
          some (c, { t with phase := .running })
  | .readingUser _ => some (c, { t with phase := .running })
  | .writing entry answer existing =>
      some (if applied then t.write answer existing c entry else c, { t with phase := .ended })
  | .ended => none

/-- The agent answers. -/
def ran (t : SessionTurn) (answer : Option String) : Option SessionTurn :=
  match t.phase with
  | .running =>
      some { t with phase := .finding .session ((nonEmpty answer).getD "未生成回答") }
  | _ => none

end SessionTurn

/-! ## Interleavings -/

/-- The trace of each run, `uuid4`. -/
structure TraceIds where
  id : Nat → String
  distinct : Function.Injective id

/-- The store with the turns that were started. -/
structure Chats where
  store : ContentStore
  turns : List SessionTurn

inductive ChatAction where
  | start (request : ChatRequest)
  /-- The next request of a turn is answered. -/
  | next (i : Nat)
  /-- The agent of a turn answers. -/
  | ran (i : Nat) (answer : Option String)
  | fail (i : Nat) (applied : Bool)

namespace Chats

/-- The other turns of the turn's session. -/
def others (s : Chats) (i : Nat) (t : SessionTurn) : List SessionTurn :=
  (s.turns.eraseIdx i).filter fun o => o.request.session = t.request.session

/-- A turn with the store after its step. -/
def set (s : Chats) (i : Nat) (moved : ContentStore × SessionTurn) : Chats where
  store := moved.1
  turns := s.turns.set i moved.2

end Chats

/-- One step of one turn. `pg_advisory_lock` returns when no other turn of the session holds it. -/
def chatStep (ids : TraceIds) (s : Chats) : ChatAction → Option Chats
  | .start request =>
      some { s with turns := s.turns ++ [request.begin (ids.id s.turns.length)] }
  | .next i => do
      let t ← s.turns[i]?
      if t.phase = .waiting ∧ ∃ o ∈ s.others i t, o.holdsLock then none
      else return s.set i (← t.next s.store)
  | .ran i answer => do
      let t ← s.turns[i]?
      return s.set i (s.store, ← t.ran answer)
  | .fail i applied => do
      let t ← s.turns[i]?
      return s.set i (← t.fail applied s.store)

end Aegora
