import Aegora.JsonRoundTrip
import Aegora.ReleaseCache

/-!
# Invalidation events

The Control Plane publishes an event when a release is published or revoked or
when the policy of a tool changes, as a JSON text on a channel of Redis
(`RuntimeInvalidationPublisher`). A runtime takes the release of an event out
of its cache (`RuntimeInvalidationSubscriber`); any text may arrive on the
channel. What `apply_event` raises ends the subscription in `run`, and the
messages until the next one are lost.

`applyEvent_other` and `applyEvent_event` say what `apply_event` does with a
text; the events of the publisher are read through the round trip of JSON.
-/

namespace Aegora

open Py

/-! ## The publisher -/

/-- What `publish` puts into an event; the column of a version has 32 bits. -/
structure RuntimeEvent where
  eventId : String
  eventType : String
  /-- `datetime.now(timezone.utc).isoformat()`. -/
  occurredAt : String
  agentId : String
  releaseId : Option String := none
  releaseVersion : Option Int := none
  toolId : Option String := none
  reason : Option String := none
  version_small : ∀ version ∈ releaseVersion, version.natAbs < 2 ^ 31

namespace RuntimeEvent

variable (event : RuntimeEvent)

def payload : Dict :=
  [("schema_version", .int 1),
    ("event_id", .str event.eventId),
    ("event_type", .str event.eventType),
    ("occurred_at", .str event.occurredAt),
    ("agent_id", .str event.agentId),
    ("release_id", event.releaseId.elim .null .str),
    ("release_version", event.releaseVersion.elim .null .int),
    ("tool_id", event.toolId.elim .null .str),
    ("reason", event.reason.elim .null .str)]

/-- The text that is published. -/
def text : String := (Json.obj event.payload).compactText

end RuntimeEvent

/-! ## The subscriber -/

/-- `SUPPORTED_EVENTS`. -/
def supportedEvents : List String :=
  ["release.published", "release.revoked", "tool.policy.changed"]

/-- A `datetime`: the microseconds since the year 1 on its own clock, and its `utcoffset`. -/
structure IsoMoment where
  wall : Int
  offset : Option Int
deriving DecidableEq

/-- The microseconds of the years 1 to 9999. -/
def momentEnd : Int := 3652059 * 86400 * 1000000

/-- `astimezone(timezone.utc)`; a `datetime` without an offset is taken as UTC. -/
def IsoMoment.utc (moment : IsoMoment) : Except String Int :=
  let utc := moment.wall - moment.offset.getD 0
  if 0 ≤ utc ∧ utc < momentEnd then .ok utc else .error "OverflowError"

/-- `repr(float(text))`, the depth of nesting that the interpreter allows, and
`datetime.fromisoformat`. -/
structure ChannelEnv where
  floatRepr : String → String
  maxDepth : Nat
  fromisoformat : PyText → Option IsoMoment

/-- `value.replace("Z", "+00:00")`. -/
def replaceZ (text : PyText) : PyText :=
  text.flatMap fun n => if n = 'Z'.toNat then codePoints "+00:00" else [n]

/-- `_event_lag_seconds`, in microseconds. -/
def eventLag (env : ChannelEnv) (now : Int) : Loaded → Except String (Option Int)
  | .str text =>
      if text.all fun n => isSpace (Char.ofNat n) then .ok none
      else
        match env.fromisoformat (replaceZ text) with
        | none => .ok none
        | some moment => moment.utc.map fun utc => some (max 0 (now - utc))
  | _ => .ok none

/-- The cache of a runtime, and the events it has recorded: type, outcome and lag. -/
structure InvalidationSubscriber where
  cache : ReleaseConfigCache
  store : CacheStore
  recorded : List (PyText × String × Option Int) := []

/-- `payload.get(name)`. -/
def eventField (payload : List (PyText × Loaded)) (name : String) : Loaded :=
  Loaded.get payload (codePoints name)

/-- `str(payload.get("event_type") or "unknown")`. -/
def eventTypeOf (payload : List (PyText × Loaded)) : PyText :=
  let eventType := eventField payload "event_type"
  if eventType.truthy then eventType.pyStr else codePoints "unknown"

/-- `isinstance(x, int)`. -/
def isPyInt : Loaded → Bool
  | .int _ | .bool _ => true
  | _ => false

/-- The text with these code points, unless half of a pair is among them. -/
def stringOf? (text : PyText) : Option String :=
  if text.any isSurrogate then none else some (String.ofList (text.map Char.ofNat))

/-- The key that an event names. No entry has a key that is not a text of Unicode. -/
def eventKey? (keyPrefix : String) (payload : List (PyText × Loaded)) : Option String :=
  let releaseId := eventField payload "release_id"
  let version := eventField payload "release_version"
  let agentId := eventField payload "agent_id"
  if releaseId.truthy && isPyInt version && agentId.truthy then
    stringOf? (codePoints (keyPrefix ++ ":agent:") ++ agentId.pyStr ++ codePoints ":release:"
      ++ releaseId.pyStr ++ codePoints ":version:" ++ version.pyStr)
  else none

namespace InvalidationSubscriber

variable (s : InvalidationSubscriber)

/-- `record_runtime_invalidation_event`. -/
def record (eventType : PyText) (outcome : String) (lag : Option Int) : InvalidationSubscriber :=
  { s with recorded := s.recorded ++ [(eventType, outcome, lag)] }

/-- `self.cache.delete(…)`; whether Redis deletes the key is given. -/
def evict (deletes : Bool) : Option String → InvalidationSubscriber
  | none => s
  | some key =>
      let deleted := s.cache.delete s.store deletes key
      { s with cache := deleted.1, store := deleted.2 }

end InvalidationSubscriber

/-- The condition on `schema_version` and `event_type`. -/
def Supported (payload : List (PyText × Loaded)) : Prop :=
  (eventField payload "schema_version").eqInt 1 = true
    ∧ eventTypeOf payload ∈ supportedEvents.map codePoints

instance (payload : List (PyText × Loaded)) : Decidable (Supported payload) :=
  inferInstanceAs (Decidable (_ ∧ _))

/-- `apply_event` of a text: what it returns, or the name of the exception. -/
def applyEvent (env : ChannelEnv) (now : Int) (deletes : Bool) (s : InvalidationSubscriber)
    (raw : String) : Except String Bool × InvalidationSubscriber :=
  match loads env.floatRepr env.maxDepth raw with
  | .error .value => (.ok false, s.record (codePoints "unknown") "invalid" none)
  | .error _ => (.error "RecursionError", s)
  | .ok (.obj payload) =>
      if ¬ Supported payload then (.ok false, s.record (eventTypeOf payload) "ignored" none)
      else
        let s := s.evict deletes (eventKey? s.cache.settings.keyPrefix payload)
        match eventLag env now (eventField payload "occurred_at") with
        | .error name => (.error name, s)
        | .ok lag => (.ok true, s.record (eventTypeOf payload) "applied" lag)
  | .ok _ => (.error "AttributeError", s)

/-- A message, when it arrives, and whether Redis deletes a key then. -/
structure ChannelMessage where
  raw : String
  now : Int
  deletes : Bool

/-- One message in `run`; an exception ends the subscription. -/
def consumeMessage (env : ChannelEnv) (consumed : InvalidationSubscriber × Nat)
    (message : ChannelMessage) : InvalidationSubscriber × Nat :=
  let applied := applyEvent env message.now message.deletes consumed.1 message.raw
  (applied.2, consumed.2 + if applied.1.isOk then 0 else 1)

/-- `run` on the messages that arrive, with the number of times the subscription ended. -/
def consume (env : ChannelEnv) (s : InvalidationSubscriber) (messages : List ChannelMessage) :
    InvalidationSubscriber × Nat :=
  messages.foldl (consumeMessage env) (s, 0)

/-! ## What an event does -/

section

variable {env : ChannelEnv} {now : Int} {deletes : Bool} {s : InvalidationSubscriber}
  {raw : String} {payload : List (PyText × Loaded)}

/-- The text is no JSON, or an object that is no supported event. -/
def IsOther (env : ChannelEnv) (raw : String) : Prop :=
  loads env.floatRepr env.maxDepth raw = .error .value
    ∨ ∃ payload, loads env.floatRepr env.maxDepth raw = .ok (.obj payload) ∧ ¬ Supported payload

/-- The text is a supported event, and the time in it, if any, one of the years 1 to 9999. -/
structure IsEvent (env : ChannelEnv) (raw : String) (payload : List (PyText × Loaded)) : Prop where
  loads : loads env.floatRepr env.maxDepth raw = .ok (.obj payload)
  supported : Supported payload
  timely : ∀ text moment, eventField payload "occurred_at" = .str text →
    env.fromisoformat (replaceZ text) = some moment → ∃ utc, moment.utc = .ok utc

theorem exists_eventLag (now : Int)
    (h : ∀ text moment, eventField payload "occurred_at" = .str text →
      env.fromisoformat (replaceZ text) = some moment → ∃ utc, moment.utc = .ok utc) :
    ∃ lag, eventLag env now (eventField payload "occurred_at") = .ok lag := by
  cases hfield : eventField payload "occurred_at" with
  | str text =>
      rw [eventLag]
      split
      · exact ⟨none, rfl⟩
      · split
        · exact ⟨none, rfl⟩
        · rename_i moment hmoment
          obtain ⟨utc, hutc⟩ := h text moment hfield hmoment
          rw [hutc]
          exact ⟨_, rfl⟩
  | _ => exact ⟨none, rfl⟩

/-- `False`, and the cache is as it was. -/
def Ignores (s : InvalidationSubscriber)
    (applied : Except String Bool × InvalidationSubscriber) : Prop :=
  applied.1 = .ok false ∧ applied.2.cache = s.cache ∧ applied.2.store = s.store

/-- `True`, and the cache is as it was but for the deletion of the key. -/
def Applies (s : InvalidationSubscriber) (deletes : Bool) (key? : Option String)
    (applied : Except String Bool × InvalidationSubscriber) : Prop :=
  applied.1 = .ok true ∧ applied.2.cache = (s.evict deletes key?).cache
    ∧ applied.2.store = (s.evict deletes key?).store

theorem applyEvent_other (h : IsOther env raw) : Ignores s (applyEvent env now deletes s raw) := by
  unfold applyEvent
  rcases h with hloads | ⟨payload, hloads, hsupported⟩
  · rw [hloads]
    exact ⟨rfl, rfl, rfl⟩
  · rw [hloads]
    dsimp only
    rw [if_pos hsupported]
    exact ⟨rfl, rfl, rfl⟩

theorem applyEvent_event (h : IsEvent env raw payload) :
    Applies s deletes (eventKey? s.cache.settings.keyPrefix payload)
      (applyEvent env now deletes s raw) := by
  obtain ⟨lag, hlag⟩ := exists_eventLag now h.timely
  unfold applyEvent
  rw [h.loads]
  dsimp only
  rw [if_neg (not_not.mpr h.supported), hlag]
  exact ⟨rfl, rfl, rfl⟩

/-- Neither ends the subscription. -/
theorem teardowns_consumeMessage {consumed : InvalidationSubscriber × Nat}
    {message : ChannelMessage}
    (h : IsOther env message.raw ∨ ∃ payload, IsEvent env message.raw payload) :
    (consumeMessage env consumed message).2 = consumed.2 := by
  unfold consumeMessage
  rcases h with hother | ⟨payload, hevent⟩
  · dsimp only
    rw [(applyEvent_other hother).1]
    rfl
  · dsimp only
    rw [(applyEvent_event hevent).1]
    rfl

theorem teardowns_consume {messages : List ChannelMessage}
    (h : ∀ message ∈ messages,
      IsOther env message.raw ∨ ∃ payload, IsEvent env message.raw payload) :
    (consume env s messages).2 = 0 := by
  have hfold : ∀ consumed : InvalidationSubscriber × Nat,
      (messages.foldl (consumeMessage env) consumed).2 = consumed.2 := by
    induction messages with
    | nil => exact fun _ => rfl
    | cons message messages ih =>
        intro consumed
        obtain ⟨hmessage, hmessages⟩ := List.forall_mem_cons.mp h
        rw [List.foldl_cons, ih hmessages, teardowns_consumeMessage hmessage]
  exact hfold (s, 0)

/-- A deletion takes out the entry of the key, in Redis if it answers, and no other one. -/
theorem evict_exact (henabled : s.cache.settings.enabled = true) (key : String) :
    LruCache.find (s.evict deletes (some key)).cache.l1 key = none
      ∧ (deletes = true → Dict.get? (s.evict deletes (some key)).store.redis key = none)
      ∧ ∀ other, other ≠ key →
        LruCache.find (s.evict deletes (some key)).cache.l1 other = LruCache.find s.cache.l1 other
          ∧ Dict.get? (s.evict deletes (some key)).store.redis other
            = Dict.get? s.store.redis other := by
  have hfind := LruCache.find_erase s.cache.l1 key
  have hdelete : s.evict deletes (some key) = { s with
      cache := { s.cache with l1 := LruCache.erase s.cache.l1 key }
      store := if deletes then
          { s.store with redis := s.store.redis.filter fun entry => decide (entry.1 ≠ key) }
        else s.store } := by
    unfold InvalidationSubscriber.evict ReleaseConfigCache.delete
    rw [henabled]
    rfl
  rw [hdelete]
  dsimp only
  refine ⟨(hfind key).trans (if_pos rfl), fun h => ?_, fun other hne =>
    ⟨(hfind other).trans (if_neg hne), ?_⟩⟩
  · rw [if_pos h, Dict.get?_filter_ne, if_pos rfl]
  · cases deletes with
    | false => rfl
    | true => exact (Dict.get?_filter_ne _ _ _).trans (if_neg hne)

/-! ## Release events -/

theorem get_ofEntries (entries : Dict) (key : String) :
    Loaded.get (Loaded.ofEntries entries) (codePoints key)
      = Loaded.ofJson (Dict.get entries key) := by
  induction entries with
  | nil => rfl
  | cons entry entries ih =>
      obtain ⟨name, value⟩ := entry
      unfold Loaded.get Dict.get at ih ⊢
      rw [Loaded.ofEntries, List.find?_cons, Dict.get?_cons]
      by_cases hname : key = name
      · simp [hname]
      · have hcodes : codePoints name ≠ codePoints key := fun h =>
          hname (codePoints_injective h).symm
        rw [decide_eq_false hcodes, if_neg hname]
        exact ih

theorem stringOf?_codePoints (text : String) : stringOf? (codePoints text) = some text := by
  have hany : (codePoints text).any isSurrogate = false := by
    refine List.any_eq_false.mpr fun n hn => ?_
    obtain ⟨c, -, rfl⟩ := List.mem_map.mp hn
    have hvalid := c.valid
    unfold isSurrogate
    rw [Bool.and_eq_true, decide_eq_true_eq, decide_eq_true_eq]
    unfold Char.toNat
    rcases hvalid with hvalid | ⟨hvalid, -⟩
    · omega
    · omega
  have hchars : (codePoints text).map Char.ofNat = text.toList := by
    rw [codePoints, List.map_map]
    refine (List.map_congr_left fun c _ => ?_).trans (List.map_id _)
    exact Char.ofNat_toNat c
  rw [stringOf?, hany, if_neg Bool.false_ne_true, hchars, String.ofList_toList]

theorem truthy_codePoints {text : String} :
    (Loaded.str (codePoints text)).truthy = true ↔ text ≠ "" := by
  have hempty : codePoints text = [] ↔ text = "" :=
    List.map_eq_nil_iff.trans String.toList_eq_nil_iff
  simp only [Loaded.truthy, Bool.not_eq_true', List.isEmpty_eq_false_iff, ne_eq, hempty]

theorem codePoints_append (a b : String) : codePoints (a ++ b) = codePoints a ++ codePoints b := by
  rw [codePoints, String.toList_append, List.map_append]
  rfl

end

namespace RuntimeEvent

variable {event : RuntimeEvent} {releaseId : String} {version : Int}

/-- The event of a release that is published or revoked. -/
structure IsRelease (event : RuntimeEvent) (releaseId : String) (version : Int) : Prop where
  type : event.eventType = "release.published" ∨ event.eventType = "release.revoked"
  agent : event.agentId ≠ ""
  release : event.releaseId = some releaseId ∧ releaseId ≠ ""
  versioned : event.releaseVersion = some version

/-- `fromisoformat` reads back what `isoformat` has written of a moment in UTC. -/
def ReadBack (env : ChannelEnv) (event : RuntimeEvent) : Prop :=
  ∃ wall, 0 ≤ wall ∧ wall < momentEnd
    ∧ env.fromisoformat (replaceZ (codePoints event.occurredAt)) = some ⟨wall, some 0⟩

theorem readable_payload {depth : Nat} (hdepth : 0 < depth) (event : RuntimeEvent) :
    (Json.obj event.payload).Readable depth := by
  have hstr : ∀ value : Option String,
      Json.Readable (depth - 1) (value.elim .null .str) := by
    intro value
    cases value with
    | none => trivial
    | some value => trivial
  have hint : Json.Readable (depth - 1) (event.releaseVersion.elim .null .int) := by
    cases hversion : event.releaseVersion with
    | none => trivial
    | some version =>
        have hsmall := event.version_small version hversion
        have hlength : (Nat.toDigits 10 version.natAbs).length ≤ 10 :=
          (Nat.length_toDigits_le_iff (by decide) (by decide)).mpr (by omega)
        exact Nat.le_trans hlength (by decide)
  refine ⟨hdepth, by simp [payload], ?_⟩
  refine ⟨?_, trivial, trivial, trivial, trivial, hstr _, hint, hstr _, hstr _, trivial⟩
  show (Nat.toDigits 10 1).length ≤ intMaxStrDigits
  decide

theorem loads_text {env : ChannelEnv} (hdepth : 0 < env.maxDepth) (event : RuntimeEvent) :
    loads env.floatRepr env.maxDepth event.text = .ok (.obj (Loaded.ofEntries event.payload)) :=
  loads_compact (readable_payload hdepth event)

/-- Whatever the publisher encodes of a supported type is an event. -/
theorem isEvent_text {env : ChannelEnv} (hdepth : 0 < env.maxDepth)
    (htype : event.eventType ∈ supportedEvents) (hback : event.ReadBack env) :
    IsEvent env event.text (Loaded.ofEntries event.payload) where
  loads := loads_text hdepth event
  supported := by
    have hne : event.eventType ≠ "" := fun h => absurd htype (by rw [h]; decide)
    have hversion : Dict.get event.payload "schema_version" = .int 1 := by
      simp [payload, Dict.get, Dict.get?_cons]
    have hfield : Dict.get event.payload "event_type" = .str event.eventType := by
      simp [payload, Dict.get, Dict.get?_cons]
    unfold Supported eventTypeOf eventField
    rw [get_ofEntries, get_ofEntries, hversion, hfield]
    refine ⟨rfl, ?_⟩
    dsimp only [Loaded.ofJson]
    rw [if_pos (truthy_codePoints.mpr hne)]
    exact List.mem_map_of_mem htype
  timely := by
    intro text moment htext hmoment
    obtain ⟨wall, hlow, hhigh, hread⟩ := hback
    have hfield : Dict.get event.payload "occurred_at" = .str event.occurredAt := by
      simp [payload, Dict.get, Dict.get?_cons]
    rw [eventField, get_ofEntries, hfield] at htext
    cases htext
    cases hread.symm.trans hmoment
    refine ⟨wall, ?_⟩
    unfold IsoMoment.utc
    simp [hlow, hhigh]

theorem eventKey?_release (h : event.IsRelease releaseId version) (keyPrefix : String) :
    eventKey? keyPrefix (Loaded.ofEntries event.payload)
      = some (releaseKey keyPrefix event.agentId releaseId version) := by
  have hagent : Dict.get event.payload "agent_id" = .str event.agentId := by
    simp [payload, Dict.get, Dict.get?_cons]
  have hrelease : Dict.get event.payload "release_id" = .str releaseId := by
    simp [payload, Dict.get, Dict.get?_cons, h.release.1]
  have hversion : Dict.get event.payload "release_version" = .int version := by
    simp [payload, Dict.get, Dict.get?_cons, h.versioned]
  unfold eventKey? eventField
  rw [get_ofEntries, get_ofEntries, get_ofEntries, hagent, hrelease, hversion]
  dsimp only [Loaded.ofJson]
  rw [truthy_codePoints.mpr h.agent, truthy_codePoints.mpr h.release.2]
  rw [if_pos (by rfl), ← stringOf?_codePoints]
  unfold releaseKey
  simp only [codePoints_append]
  rfl

end RuntimeEvent

/-- The events of releases delete their key, and no other text on the channel deletes one that
it does not name as an event; none of these ends the subscription. What the publisher writes is
read back by the round trip of JSON, and other texts are followed through `apply_event`. -/
theorem events_applied (env : ChannelEnv) (hdepth : 0 < env.maxDepth) (now : Int) (deletes : Bool)
    (s : InvalidationSubscriber) :
    (∀ (event : RuntimeEvent) releaseId version, event.IsRelease releaseId version →
        event.ReadBack env →
          Applies s deletes
            (some (releaseKey s.cache.settings.keyPrefix event.agentId releaseId version))
            (applyEvent env now deletes s event.text))
      ∧ (∀ raw payload, IsEvent env raw payload →
        Applies s deletes (eventKey? s.cache.settings.keyPrefix payload)
          (applyEvent env now deletes s raw))
      ∧ (∀ raw, IsOther env raw → Ignores s (applyEvent env now deletes s raw))
      ∧ (s.cache.settings.enabled = true → ∀ key,
        LruCache.find (s.evict deletes (some key)).cache.l1 key = none
          ∧ (deletes = true → Dict.get? (s.evict deletes (some key)).store.redis key = none)
          ∧ ∀ other, other ≠ key →
            LruCache.find (s.evict deletes (some key)).cache.l1 other
                = LruCache.find s.cache.l1 other
              ∧ Dict.get? (s.evict deletes (some key)).store.redis other
                = Dict.get? s.store.redis other)
      ∧ ∀ messages : List ChannelMessage,
        (∀ message ∈ messages,
          IsOther env message.raw ∨ ∃ payload, IsEvent env message.raw payload) →
            (consume env s messages).2 = 0 := by
  refine ⟨fun event releaseId version hrelease hback => ?_,
    fun raw payload hevent => applyEvent_event hevent, fun raw hother => applyEvent_other hother,
    evict_exact, fun messages hmessages => teardowns_consume hmessages⟩
  have htype : event.eventType ∈ supportedEvents := by
    rcases hrelease.type with htype | htype
    · rw [htype]
      decide
    · rw [htype]
      decide
  rw [← RuntimeEvent.eventKey?_release hrelease]
  exact applyEvent_event (RuntimeEvent.isEvent_text hdepth htype hback)

/-! ## Two events -/

def revokedEvent : RuntimeEvent where
  eventId := "evt_1"
  eventType := "release.revoked"
  occurredAt := "2026-09-04T00:00:00+00:00"
  agentId := "agent_1"
  releaseId := some "rel_1"
  releaseVersion := some 3
  version_small := by
    rintro version hversion
    obtain rfl := Option.some.inj hversion
    decide

def policyEvent : RuntimeEvent where
  eventId := "evt_2"
  eventType := "tool.policy.changed"
  occurredAt := "2026-09-04T00:00:00+00:00"
  agentId := "*"
  toolId := some "tool_1"
  reason := some "status:disabled"
  version_small := by simp

/-- The time in both of them is read as it was written. -/
def septemberEnv : ChannelEnv where
  floatRepr := id
  maxDepth := 10000
  fromisoformat := fun text =>
    if text = codePoints "2026-09-04T00:00:00+00:00" then some ⟨63924076800000000, some 0⟩ else none

def emptySubscriber : InvalidationSubscriber where
  cache := { settings := { enabled := true } }
  store := {}

theorem readBack_september {event : RuntimeEvent}
    (h : event.occurredAt = "2026-09-04T00:00:00+00:00") : event.ReadBack septemberEnv := by
  refine ⟨63924076800000000, by decide, by decide, ?_⟩
  rw [h]
  decide +kernel

theorem events_applied_revoked :
    Applies emptySubscriber true (some (releaseKey "aegora:runtime-config:v1" "agent_1" "rel_1" 3))
      (applyEvent septemberEnv 63924076801000000 true emptySubscriber revokedEvent.text) :=
  (events_applied septemberEnv (by decide) 63924076801000000 true emptySubscriber).1 revokedEvent
    "rel_1" 3 ⟨Or.inr rfl, by decide, ⟨rfl, by decide⟩, rfl⟩ (readBack_september rfl)

/-- An event of the publisher that is no release event is applied as well. -/
theorem policy_event_applied :
    ¬ ∀ (env : ChannelEnv) (now : Int) (deletes : Bool) (s : InvalidationSubscriber) (raw : String),
      (∀ (event : RuntimeEvent) releaseId version, event.IsRelease releaseId version →
        raw ≠ event.text) →
          Ignores s (applyEvent env now deletes s raw) := by
  intro hall
  have hdepth : 0 < septemberEnv.maxDepth := by decide
  have hevent : IsEvent septemberEnv policyEvent.text (Loaded.ofEntries policyEvent.payload) :=
    RuntimeEvent.isEvent_text hdepth (by decide) (readBack_september rfl)
  have happlied : Applies emptySubscriber true _
      (applyEvent septemberEnv 0 true emptySubscriber policyEvent.text) := applyEvent_event hevent
  have hignored := hall septemberEnv 0 true emptySubscriber policyEvent.text ?_
  · cases happlied.1.symm.trans hignored.1
  · intro event releaseId version hrelease htext
    have hloads := (RuntimeEvent.loads_text hdepth policyEvent).symm.trans
      ((congrArg _ htext).trans (RuntimeEvent.loads_text hdepth event))
    have hentries := Loaded.obj.inj (Except.ok.inj hloads)
    have hget := congrArg (fun entries => eventField entries "event_type") hentries
    dsimp only [eventField] at hget
    rw [get_ofEntries, get_ofEntries] at hget
    have htype : "tool.policy.changed" = event.eventType :=
      codePoints_injective (Loaded.str.inj hget)
    rcases hrelease.type with hother | hother
    · exact absurd (htype.trans hother) (by decide)
    · exact absurd (htype.trans hother) (by decide)

end Aegora
