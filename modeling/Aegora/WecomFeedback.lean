import Aegora.ContextViews
import Aegora.SerialTurns

/-!
# Feedback on WeCom answers

A WeCom turn answers as a stream. The id of the stream goes two ways: to WeCom,
which hands it back with the user's feedback, and through the metadata of the
request into the entries that `save_chat_turn` writes. `on_feedback` looks for
it in the newest hundred messages of the user's session, from the newest back,
and saves the feedback under the key of the answer it is found on.

The entries of `chat_messages` are in the order of their creation. An upsert is
one step here, and so is the answer to a feedback frame. Exceptions are named by
their texts or types; the handlers log them and go on.
-/

namespace Aegora

open Py

namespace WecomFeedback

/-! ## Values of a frame -/

/-- `x.get(field)`. -/
def field (x : Json) (name : String) : Except String Json :=
  match x with
  | .obj entries => .ok (Dict.get entries name)
  | _ => .error "AttributeError"

/-- `x.get(field) or {}`. -/
def fieldOrEmpty (x : Json) (name : String) : Except String Json :=
  (field x name).map (·.orElse (.obj []))

/-- `str(x or "")`. -/
def textOf (x : Json) : String := (x.orElse (.str "")).pyStr

/-- A text, or null. -/
def orNull (value : Option String) : Json := (value.map Json.str).getD .null

/-- `payload.get("body", payload)`. -/
def bodyOf (payload : Dict) : Json := Dict.getD payload "body" (.obj payload)

def transportOf (payload : Dict) : String :=
  if (Dict.get payload "cmd").truthy then "websocket" else "http"

/-! ## Turns -/

/-- `WE_COM_MENTION_RE.sub("", content, count=1)`, for `^\s*@\S+\s*`. -/
def dropMention (content : List Char) : List Char :=
  match content.dropWhile isSpace with
  | '@' :: c :: rest =>
      if isSpace c then content
      else (rest.dropWhile (!isSpace ·)).dropWhile isSpace
  | _ => content

/-- `strip_wecom_mention`. -/
def stripWecomMention (content : String) : String :=
  strip (String.ofList (dropMention content.toList))

structure WeComTurn where
  sessionId : String
  message : String
  metadata : Dict

/-- The text that a message quotes. -/
def quoteText (quote : Json) : Except String String := do
  if (← field quote "msgtype") = .str "text" then
    return strip (textOf (← field (← fieldOrEmpty quote "text") "content"))
  else return ""

/-- `build_wecom_turn`. -/
def buildWecomTurn (payload : Dict) : Except String WeComTurn := do
  let body := bodyOf payload
  let sender ← fieldOrEmpty body "from"
  let userid := strip (textOf (← field sender "userid"))
  if userid = "" then .error "from.userid is required"
  else
    let msgtype := ((← field body "msgtype").orElse (.str "text")).pyStr
    if msgtype ≠ "text" then .error "only text msgtype is supported"
    else
      let text ← fieldOrEmpty body "text"
      let message := stripWecomMention (textOf (← field text "content"))
      if message = "" then .error "text content is required"
      else
        let quote ← fieldOrEmpty body "quote"
        let quoted ← quoteText quote
        let headers ← fieldOrEmpty (.obj payload) "headers"
        return {
          sessionId := userid
          message := if quoted = "" then message else message ++ "\n\n引用内容：" ++ quoted
          metadata := [
            ("channel", .str "wecom"),
            ("transport", .str (transportOf payload)),
            ("msgid", ← field body "msgid"),
            ("aibotid", ← field body "aibotid"),
            ("chatid", ← field body "chatid"),
            ("chattype", ← field body "chattype"),
            ("from_userid", .str userid),
            ("response_url", ← field body "response_url"),
            ("msgtype", .str msgtype),
            ("quote", quote.orElse .null),
            ("ws_cmd", Dict.get payload "cmd"),
            ("ws_req_id", ← field headers "req_id")] }

/-! ## Ids -/

/-- `build_stream_feedback_id`. -/
def buildStreamFeedbackId (streamId : Option String) : Option String :=
  let value := strip (streamId.getD "")
  if value = "" then none else some ("wecom_stream:" ++ value)

/-- `value[len(prefix):]`, for a value that starts with the prefix. -/
def after (start value : String) : Option String :=
  if start.toList.isPrefixOf value.toList then
    some (String.ofList (value.toList.drop start.toList.length))
  else none

/-- `parse_feedback_id`. -/
def parseFeedbackId (feedbackId : Json) : Option String :=
  nonEmpty (after "assistant_message:" (strip (textOf feedbackId)))

/-- `parse_stream_feedback_id`. -/
def parseStreamFeedbackId (feedbackId : Json) : Option String :=
  nonEmpty ((after "wecom_stream:" (strip (textOf feedbackId))).map strip)

/-! ## Feedback -/

structure WeComFeedback where
  assistantMessageId : Option String
  streamId : Option String
  sessionId : String
  rating : Option String
  reason : Option String
  metadata : Dict

/-- The rating of a type: 1 and 2 as Python compares numbers. -/
def ratingOf (feedbackType : Json) : Option String :=
  if feedbackType.keyScalar = .int 1 then some "positive"
  else if feedbackType.keyScalar = .int 2 then some "negative"
  else none

/-- `inaccurate_reason_list`. -/
def reasonList (feedbackEvent : Dict) : Json :=
  (Dict.get feedbackEvent "inaccurate_reason_list").orElse (.arr [])

def contentOf (feedbackEvent : Dict) : String := strip (textOf (Dict.get feedbackEvent "content"))

/-- `"; ".join(reason_parts) or None`. -/
def reasonOf (feedbackEvent : Dict) : Option String :=
  let parts := (nonEmpty (some (contentOf feedbackEvent))).toList
    ++ if (reasonList feedbackEvent).truthy then
        ["inaccurate_reason_list=" ++ (reasonList feedbackEvent).pyStr]
      else []
  nonEmpty (some ("; ".intercalate parts))

/-- `build_wecom_feedback`. -/
def buildWecomFeedback (payload : Dict) : Except String WeComFeedback := do
  let body := bodyOf payload
  let sender ← fieldOrEmpty body "from"
  let userid := strip (textOf (← field sender "userid"))
  if userid = "" then .error "from.userid is required"
  else
    let event ← fieldOrEmpty body "event"
    match ← fieldOrEmpty event "feedback_event" with
    | .obj feedbackEvent =>
        let rawFeedbackId := Dict.get feedbackEvent "id"
        let assistantMessageId := parseFeedbackId rawFeedbackId
        let streamId := parseStreamFeedbackId rawFeedbackId
        if assistantMessageId = none ∧ streamId = none then
          .error "feedback id is not generated by this service"
        else
          let feedbackType := Dict.get feedbackEvent "type"
          let headers ← fieldOrEmpty (.obj payload) "headers"
          return {
            assistantMessageId := assistantMessageId
            streamId := streamId
            sessionId := userid
            rating := ratingOf feedbackType
            reason := reasonOf feedbackEvent
            metadata := [
              ("channel", .str "wecom"),
              ("transport", .str (transportOf payload)),
              ("msgid", ← field body "msgid"),
              ("aibotid", ← field body "aibotid"),
              ("chatid", ← field body "chatid"),
              ("chattype", ← field body "chattype"),
              ("from_userid", .str userid),
              ("eventtype", ← field event "eventtype"),
              ("feedback_id", rawFeedbackId),
              ("wecom_stream_id", orNull streamId),
              ("feedback_type", feedbackType),
              ("feedback_content", orNull (nonEmpty (some (contentOf feedbackEvent)))),
              ("inaccurate_reason_list", reasonList feedbackEvent),
              ("ws_cmd", Dict.get payload "cmd"),
              ("ws_req_id", ← field headers "req_id")] }
    | _ => .error "AttributeError"

/-! ## Stored messages -/

/-- `learning_lineage`: the fields it takes, under the names it gives them. -/
def lineageFields : List (String × String) :=
  [("agent_id", "agent_id"), ("release_id", "release_id"), ("release_version", "release_version"),
    ("version", "release_version")]

/-- `learning_lineage`. -/
def learningLineage (metadata : Dict) : Dict :=
  lineageFields.foldl (fun result names =>
    let value := Dict.get metadata names.1
    if value ≠ .null ∧ value ≠ .str "" ∧ Dict.get? result names.2 = none then
      Dict.set result names.2 value
    else result) []

/-- The arguments of `save_chat_turn`, and what it computes of the result that
nothing here reads: the ids of the FAQs and skills and the latency. -/
structure SavedTurn where
  sessionId : String
  userId : String
  userMessage : String
  assistantMessage : Json
  result : Dict
  source : String
  requestMetadata : Dict
  retrievedFaqIds : List Int
  injectedSkillIds : List Json
  latencyMs : Option Int
  instanceId : String

namespace SavedTurn

variable (turn : SavedTurn)

def session : String := normalizeSessionId turn.sessionId

def user : String := sessionUserId turn.session turn.userId

/-- `trace_id`. -/
def traceId : String := ((Dict.get turn.result "trace_id").orElse (.str turn.session)).pyStr

def key (role : ChatRole) : String := messageKey turn.traceId role

/-- The entry of the user's message. -/
def userRow : Dict :=
  [("message_key", .str (turn.key .user)), ("session_id", .str turn.session),
    ("user_id", .str turn.user), ("trace_id", .str turn.traceId), ("role", .str "user"),
    ("content", .str turn.userMessage), ("source", .str turn.source),
    ("metadata", .obj (Dict.set (learningLineage turn.requestMetadata) "request_metadata"
      (.obj turn.requestMetadata)))]

/-- What the entry of an answer says about its run. -/
def runMetadata : Dict :=
  [("status", Dict.get turn.result "status"), ("loop_mode", Dict.get turn.result "loop_mode"),
    ("loop_count", Dict.get turn.result "loop_count"),
    ("self_check", (Dict.get turn.result "self_check").orElse (.obj [])),
    ("decision", (Dict.get turn.result "decision").orElse (.obj [])),
    ("injected_skill_ids", .arr turn.injectedSkillIds),
    ("model_usage", (Dict.get turn.result "model_usage").orElse (.obj [])),
    ("instance_id", .str turn.instanceId)]

/-- The entry of the answer. -/
def assistantRow : Dict :=
  [("message_key", .str (turn.key .assistant)), ("session_id", .str turn.session),
    ("user_id", .str turn.user), ("trace_id", .str turn.traceId), ("role", .str "assistant"),
    ("content", turn.assistantMessage), ("route", Dict.get turn.result "route"),
    ("intent", (Dict.get turn.result "intent").orElse (.obj [])),
    ("retrieved_faq_ids", .arr (turn.retrievedFaqIds.map Json.int)),
    ("tool_calls", (Dict.get turn.result "tool_observations").orElse (.arr [])),
    ("observability", (Dict.get turn.result "observability").orElse (.arr [])),
    ("latency_ms", (turn.latencyMs.map Json.int).getD .null), ("source", .str turn.source),
    ("metadata", .obj (Dict.set
      (Dict.merge turn.runMetadata (learningLineage turn.requestMetadata)) "request_metadata"
      (.obj turn.requestMetadata)))]

end SavedTurn

/-- The upsert of an entry of `chat_messages` by its key; an update gives every
field again. -/
def upsertMessage (store : List Dict) (row : Dict) : List Dict :=
  if store.any fun old => Dict.get old "message_key" = Dict.get row "message_key" then
    store.map fun old =>
      if Dict.get old "message_key" = Dict.get row "message_key" then row else old
  else store ++ [row]

/-- `save_chat_turn`, on `chat_messages`. -/
def saveChatTurn (store : List Dict) (turn : SavedTurn) : List Dict :=
  upsertMessage (upsertMessage store turn.userRow) turn.assistantRow

/-- `on_text` for a frame that `run_agent` answers with `result`: what
`handle_chat_turn` saves of the turn. -/
def onText (payload : Dict) (streamId : String) (result : Dict) (retrievedFaqIds : List Int)
    (injectedSkillIds : List Json) (latencyMs : Option Int) (instanceId : String) :
    Except String SavedTurn := do
  let turn ← buildWecomTurn payload
  let sessionId := normalizeSessionId turn.sessionId
  let message := strip turn.message
  if message = "" then .error "message is required"
  else return {
    sessionId := sessionId
    userId := deriveUserIdFromSession sessionId
    userMessage := message
    assistantMessage := (Dict.get result "answer").orElse (.str "未生成回答")
    result := result
    source := "wecom"
    requestMetadata := Dict.set turn.metadata "wecom_stream_id" (.str streamId)
    retrievedFaqIds := retrievedFaqIds
    injectedSkillIds := injectedSkillIds
    latencyMs := latencyMs
    instanceId := instanceId }

/-! ## Saved feedback -/

/-- `row["metadata"]["request_metadata"]`, or nothing where one is no dictionary. -/
def requestMetadataOf (row : Dict) : Dict :=
  (Dict.get (Dict.get row "metadata").dictOrEmpty "request_metadata").dictOrEmpty

/-- An answer to a request whose metadata has `value` under `key`. -/
def answersTo (key value : String) (row : Dict) : Bool :=
  Dict.get row "role" = .str "assistant" && Dict.get (requestMetadataOf row) key = .str value

/-- `find_assistant_message_by_request_metadata`. -/
def findAssistantMessageByRequestMetadata (store : List Dict) (sessionId key value : String) :
    Option String :=
  if key = "" ∨ value = "" then none
  else ((ContextViews.loadSessionMessages store sessionId 100).reverse.find?
    (answersTo key value)).map ContextViews.keyText

/-- An entry of `message_feedback`. -/
structure MessageFeedback where
  assistantMessageKey : String
  traceId : Json
  sessionId : String
  userId : String
  rating : String
  reason : Option String

/-- The collections that feedback touches. -/
structure ChatStore where
  messages : List Dict
  feedback : StrapiRows MessageFeedback

/-- The upsert of feedback by the key of its message. -/
def upsertFeedback (feedback : StrapiRows MessageFeedback) (row : MessageFeedback) :
    StrapiRows MessageFeedback :=
  feedback.put (feedback.findOne fun old => old.assistantMessageKey = row.assistantMessageKey) row

/-- `save_message_feedback`. -/
def saveMessageFeedback (s : ChatStore) (assistantMessageId sessionId userId rating : String)
    (reason : Option String) : Except String ChatStore :=
  let sessionId := normalizeSessionId sessionId
  if rating ∉ ["positive", "negative"] then .error "rating must be positive or negative"
  else match s.messages.find? fun row => Dict.get row "message_key" = .str assistantMessageId with
    | none => .error "assistant message does not belong to this session"
    | some message =>
        if Dict.get message "session_id" ≠ .str sessionId
            ∨ Dict.get message "role" ≠ .str "assistant" then
          .error "assistant message does not belong to this session"
        else .ok { s with feedback := upsertFeedback s.feedback {
          assistantMessageKey := assistantMessageId
          traceId := Dict.get message "trace_id"
          sessionId := sessionId
          userId := sessionUserId sessionId userId
          rating := rating
          reason := nonEmpty (reason.map strip) } }

/-- The body of `on_feedback`. -/
def handleFeedback (s : ChatStore) (payload : Dict) : Except String ChatStore := do
  let feedback ← buildWecomFeedback payload
  let sessionId := normalizeSessionId feedback.sessionId
  match feedback.rating with
  | none => return s
  | some rating =>
      match feedback.assistantMessageId.or ((nonEmpty feedback.streamId).bind
          (findAssistantMessageByRequestMetadata s.messages sessionId "wecom_stream_id")) with
      | none => .error "cannot map wecom feedback to assistant message"
      | some assistantMessageId =>
          saveMessageFeedback s assistantMessageId sessionId
            (deriveUserIdFromSession sessionId) rating feedback.reason

/-- `on_feedback`. -/
def onFeedback (s : ChatStore) (payload : Dict) : ChatStore :=
  (handleFeedback s payload).toOption.getD s

/-! ## Ids come back -/

theorem after_append (start value : String) : after start (start ++ value) = some value := by
  have hprefix : start.toList.isPrefixOf (start ++ value).toList = true := by
    rw [String.toList_append, List.isPrefixOf_iff_prefix]
    exact List.prefix_append _ _
  unfold after
  rw [if_pos hprefix, String.toList_append, List.drop_left, String.ofList_toList]

/-- The id of a stream is parsed as such, and is not the id of a message. -/
theorem parse_buildStreamFeedbackId {streamId id : String}
    (h : buildStreamFeedbackId (some streamId) = some id) :
    parseFeedbackId (.str id) = none ∧ parseStreamFeedbackId (.str id) = some (strip streamId)
      ∧ strip streamId ≠ "" := by
  unfold buildStreamFeedbackId at h
  dsimp only [Option.getD_some] at h
  split at h
  · cases h
  · rename_i hne
    obtain rfl := Option.some.inj h
    have hkept : strip ("wecom_stream:" ++ strip streamId) = "wecom_stream:" ++ strip streamId :=
      strip_append (by decide) (by decide) (strip_strip streamId) hne
    have htext : textOf (.str ("wecom_stream:" ++ strip streamId))
        = "wecom_stream:" ++ strip streamId := by
      unfold textOf Json.orElse
      rw [if_pos (by simp)]
      rfl
    have hother : after "assistant_message:" ("wecom_stream:" ++ strip streamId) = none := by
      unfold after
      rw [if_neg]
      rw [String.toList_append]
      have hstart : "assistant_message:".toList = 'a' :: "ssistant_message:".toList := by decide
      have hstream : "wecom_stream:".toList = 'w' :: "ecom_stream:".toList := by decide
      rw [hstart, hstream]
      intro h
      exact absurd (List.cons_prefix_cons.mp (List.isPrefixOf_iff_prefix.mp h)).1 (by decide)
    refine ⟨?_, ?_, hne⟩
    · unfold parseFeedbackId
      rw [htext, hkept, hother]
      rfl
    · unfold parseStreamFeedbackId
      rw [htext, hkept, after_append, Option.map_some, strip_strip, nonEmpty, Option.bind_some,
        if_neg hne]

/-! ## Frames of feedback -/

/-- A frame as WeCom sends it: what is read of it is a dictionary or missing. -/
structure FeedbackFrame where
  payload : Dict
  body : Dict
  sender : Dict
  event : Dict
  feedbackEvent : Dict
  headers : Dict
  body_eq : bodyOf payload = .obj body
  sender_eq : (Dict.get body "from").orElse (.obj []) = .obj sender
  event_eq : (Dict.get body "event").orElse (.obj []) = .obj event
  feedbackEvent_eq : (Dict.get event "feedback_event").orElse (.obj []) = .obj feedbackEvent
  headers_eq : (Dict.get payload "headers").orElse (.obj []) = .obj headers

namespace FeedbackFrame

variable (frame : FeedbackFrame)

/-- The user who sends the feedback. -/
def userid : String := strip (textOf (Dict.get frame.sender "userid"))

def feedbackId : Json := Dict.get frame.feedbackEvent "id"

def feedbackType : Json := Dict.get frame.feedbackEvent "type"

end FeedbackFrame

/-- What is read of the frame of a user for a stream. -/
theorem buildWecomFeedback_frame {frame : FeedbackFrame} {streamId : String}
    (huser : frame.userid ≠ "") (hmessage : parseFeedbackId frame.feedbackId = none)
    (hstream : parseStreamFeedbackId frame.feedbackId = some streamId) :
    ∃ metadata, buildWecomFeedback frame.payload
      = .ok ⟨none, some streamId, frame.userid, ratingOf frame.feedbackType,
          reasonOf frame.feedbackEvent, metadata⟩ := by
  unfold FeedbackFrame.userid at huser
  unfold FeedbackFrame.feedbackId at hmessage hstream
  unfold buildWecomFeedback
  simp only [frame.body_eq, fieldOrEmpty, field, Except.map, bind, Except.bind, frame.sender_eq,
    if_neg huser, frame.event_eq, frame.feedbackEvent_eq, hmessage, hstream, reduceCtorEq,
    and_false, if_false, frame.headers_eq, pure, Except.pure, Except.ok.injEq]
  exact ⟨_, rfl⟩

/-! ## What a turn leaves -/

/-- A turn has a user. -/
theorem buildWecomTurn_user {payload : Dict} {turn : WeComTurn}
    (h : buildWecomTurn payload = .ok turn) : turn.sessionId ≠ "" := by
  unfold buildWecomTurn at h
  dsimp only at h
  obtain ⟨sender, -, h⟩ := bind_eq_ok.mp h
  obtain ⟨userid, -, h⟩ := bind_eq_ok.mp h
  split at h
  · cases h
  · rename_i huser
    obtain ⟨msgtype, -, h⟩ := bind_eq_ok.mp h
    split at h
    · cases h
    · obtain ⟨text, -, h⟩ := bind_eq_ok.mp h
      obtain ⟨content, -, h⟩ := bind_eq_ok.mp h
      split at h
      · cases h
      · obtain ⟨quote, -, h⟩ := bind_eq_ok.mp h
        obtain ⟨quoted, -, h⟩ := bind_eq_ok.mp h
        obtain ⟨headers, -, h⟩ := bind_eq_ok.mp h
        obtain ⟨msgid, -, h⟩ := bind_eq_ok.mp h
        obtain ⟨aibotid, -, h⟩ := bind_eq_ok.mp h
        obtain ⟨chatid, -, h⟩ := bind_eq_ok.mp h
        obtain ⟨chattype, -, h⟩ := bind_eq_ok.mp h
        obtain ⟨responseUrl, -, h⟩ := bind_eq_ok.mp h
        obtain ⟨reqId, -, h⟩ := bind_eq_ok.mp h
        obtain rfl := Except.ok.inj h
        exact huser

theorem normalizeSessionId_again (sessionId : String) :
    normalizeSessionId (normalizeSessionId sessionId) = normalizeSessionId sessionId := by
  obtain ⟨hstrip, hne⟩ := ContextViews.normalizeSessionId_stripped sessionId
  change textOr (strip (normalizeSessionId sessionId)) _ = _
  rw [hstrip, textOr, if_neg hne]

theorem orElse_ne_null {x y : Json} (hy : y ≠ .null) : x.orElse y ≠ .null := by
  unfold Json.orElse
  split
  · rename_i h
    rintro rfl
    cases h
  · exact hy

theorem deriveUserIdFromSession_again (sessionId : String) :
    deriveUserIdFromSession (normalizeSessionId sessionId) = deriveUserIdFromSession sessionId := by
  unfold deriveUserIdFromSession
  rw [normalizeSessionId_again]

/-- The user that stands for a session is kept. -/
theorem sessionUserId_derive (sessionId : String) :
    sessionUserId sessionId (deriveUserIdFromSession sessionId)
      = deriveUserIdFromSession sessionId := by
  have hblank : sessionUserId sessionId "" = deriveUserIdFromSession sessionId := by
    have hstrip : strip "" = "" := by decide
    unfold sessionUserId
    rw [hstrip, textOr, if_pos rfl]
  rw [← hblank, ContextViews.sessionUserId_again]

/-- The turn is one of the sender's session, and its request carries the stream. -/
theorem onText_spec {payload result : Dict} {streamId instanceId : String} {faqIds : List Int}
    {skillIds : List Json} {latencyMs : Option Int} {sent : WeComTurn} {turn : SavedTurn}
    (hsent : buildWecomTurn payload = .ok sent)
    (h : onText payload streamId result faqIds skillIds latencyMs instanceId = .ok turn) :
    turn.session = normalizeSessionId sent.sessionId
      ∧ turn.user = deriveUserIdFromSession turn.session ∧ turn.assistantMessage ≠ .null
      ∧ Dict.get turn.requestMetadata "wecom_stream_id" = .str streamId := by
  unfold onText at h
  rw [hsent] at h
  simp only [bind, Except.bind, pure, Except.pure] at h
  split at h
  · cases h
  · obtain rfl := Except.ok.inj h
    unfold SavedTurn.user SavedTurn.session
    dsimp only
    rw [← deriveUserIdFromSession_again (normalizeSessionId sent.sessionId), sessionUserId_derive,
      normalizeSessionId_again, Dict.get_set, if_pos rfl]
    exact ⟨rfl, rfl, orElse_ne_null (by decide), rfl⟩

namespace SavedTurn

variable (turn : SavedTurn)

theorem requestMetadataOf_assistantRow :
    requestMetadataOf turn.assistantRow = turn.requestMetadata := by
  have hmetadata : Dict.get turn.assistantRow "metadata" = .obj (Dict.set
      (Dict.merge turn.runMetadata (learningLineage turn.requestMetadata)) "request_metadata"
      (.obj turn.requestMetadata)) := rfl
  unfold requestMetadataOf
  rw [hmetadata]
  change (Dict.get (Dict.set _ _ _) "request_metadata").dictOrEmpty = _
  rw [Dict.get_set, if_pos rfl]
  rfl

theorem answersTo_assistantRow {name value : String}
    (h : Dict.get turn.requestMetadata name = .str value) :
    answersTo name value turn.assistantRow = true := by
  unfold answersTo
  rw [requestMetadataOf_assistantRow, h]
  simp [assistantRow, Dict.get, Dict.get?_cons]

theorem key_ne_empty (role : ChatRole) : turn.key role ≠ "" := by
  intro h
  have hlist := congrArg String.toList h
  unfold key messageKey at hlist
  rw [String.toList_append, String.toList_append] at hlist
  simp at hlist

theorem isVisible_assistantRow (h : turn.assistantMessage ≠ .null) :
    ContextViews.isVisible turn.assistantRow = true := by
  have hkey := turn.key_ne_empty .assistant
  unfold ContextViews.isVisible
  have hrole : Dict.get turn.assistantRow "role" = .str "assistant" := rfl
  have hmessageKey : Dict.get turn.assistantRow "message_key" = .str (turn.key .assistant) := rfl
  have hcontent : Dict.get turn.assistantRow "content" = turn.assistantMessage := rfl
  rw [hrole, hmessageKey, hcontent]
  simp [hkey, h]

end SavedTurn

/-! ## The search -/

/-- The newest messages of a session, from the newest back. -/
theorem reverse_loadSessionMessages (store : List Dict) (sessionId : String) :
    (ContextViews.loadSessionMessages store sessionId 100).reverse
      = ((store.filter (ContextViews.ofSession sessionId)).reverse.take 100).filter
          ContextViews.isVisible := by
  have hfound : ContextViews.foundRows store [("session_id", normalizeSessionId sessionId)]
      = (store.filter (ContextViews.ofSession sessionId)).reverse := by
    refine congrArg List.reverse (List.filter_congr fun row _ => ?_)
    simp [ContextViews.matchesFilters, ContextViews.ofSession]
  unfold ContextViews.loadSessionMessages ContextViews.loadMessages
  dsimp only
  rw [ContextViews.listPages_eq_take (by omega), hfound, List.reverse_reverse,
    List.take_of_length_le]
  exact (List.length_filter_le _ _).trans (List.length_take_le _ _)

/-- The first item with a property is found when few are before it. -/
theorem find?_take_append {α : Type} {p : α → Bool} {xs ys : List α} {x : α} (n : ℕ)
    (hxs : ∀ y ∈ xs, p y = false) (hx : p x = true) :
    ((xs ++ x :: ys).take n).find? p = if xs.length < n then some x else none := by
  have hnone : (xs.take n).find? p = none :=
    List.find?_eq_none.mpr fun y hy => by simp [hxs y (List.mem_of_mem_take hy)]
  rw [List.take_append, List.find?_append, hnone, Option.none_or]
  split
  · rename_i hlt
    obtain ⟨m, hm⟩ := Nat.exists_eq_succ_of_ne_zero (Nat.sub_ne_zero_of_lt hlt)
    rw [hm, Nat.succ_eq_add_one, List.take_succ_cons, List.find?_cons_of_pos hx]
  · rename_i hge
    rw [Nat.sub_eq_zero_of_le (Nat.le_of_not_lt hge)]
    rfl

/-- The stream that an entry answers. -/
def streamIdOf (row : Dict) : Option String :=
  (Dict.get (requestMetadataOf row) "wecom_stream_id").asStr?

def isAnswer (row : Dict) : Bool := Dict.get row "role" = .str "assistant"

theorem answersTo_iff {streamId : String} {row : Dict} :
    answersTo "wecom_stream_id" streamId row = true
      ↔ isAnswer row = true ∧ streamIdOf row = some streamId := by
  unfold answersTo isAnswer streamIdOf
  rw [Bool.and_eq_true, decide_eq_true_iff, decide_eq_true_iff]
  refine and_congr_right fun _ => ?_
  cases Dict.get (requestMetadataOf row) "wecom_stream_id" <;> simp [Json.asStr?]

/-- The history of a session: message keys are unique, as the schema of the
collection has it, and no two answers in the session are to one stream. -/
structure SessionHistory (store : List Dict) (sessionId : String) : Prop where
  keys : (store.map fun row => Dict.get row "message_key").Nodup
  streams : (((store.filter (ContextViews.ofSession sessionId)).filter isAnswer).filterMap
    streamIdOf).Nodup

section

variable {older later : List Dict} {row : Dict} {sessionId streamId : String}

/-- No other answer in the session is to the stream. -/
theorem SessionHistory.others (h : SessionHistory (older ++ row :: later) sessionId)
    (hsession : ContextViews.ofSession sessionId row = true)
    (hrow : answersTo "wecom_stream_id" streamId row = true) :
    ∀ other ∈ older ++ later, ContextViews.ofSession sessionId other = true →
      answersTo "wecom_stream_id" streamId other = false := by
  intro other hother hof
  by_contra hanswers
  rw [Bool.not_eq_false, answersTo_iff] at hanswers
  rw [answersTo_iff] at hrow
  have hstream : ∀ {rows : List Dict}, other ∈ rows → streamId ∈
      ((rows.filter (ContextViews.ofSession sessionId)).filter isAnswer).filterMap streamIdOf :=
    fun hmem => List.mem_filterMap.mpr ⟨other,
      List.mem_filter.mpr ⟨List.mem_filter.mpr ⟨hmem, hof⟩, hanswers.1⟩, hanswers.2⟩
  have hnodup := h.streams
  rw [List.filter_append, List.filter_append, List.filterMap_append,
    List.filter_cons_of_pos hsession, List.filter_cons_of_pos hrow.1,
    List.filterMap_cons_some hrow.2] at hnodup
  have hmiddle := List.nodup_middle.mp hnodup
  rw [List.nodup_cons, List.mem_append, not_or] at hmiddle
  rcases List.mem_append.mp hother with hold | hnew
  · exact hmiddle.1.1 (hstream hold)
  · exact hmiddle.1.2 (hstream hnew)

/-- The answer to a stream is found among the newest hundred messages. -/
theorem find_stream (h : SessionHistory (older ++ row :: later) sessionId)
    (hstream : streamId ≠ "") (hsession : ContextViews.ofSession sessionId row = true)
    (hvisible : ContextViews.isVisible row = true)
    (hrow : answersTo "wecom_stream_id" streamId row = true) :
    findAssistantMessageByRequestMetadata (older ++ row :: later) sessionId "wecom_stream_id"
        streamId
      = if (later.filter (ContextViews.ofSession sessionId)).length < 100 then
          some (ContextViews.keyText row) else none := by
  have hlater : ∀ other ∈ (later.filter (ContextViews.ofSession sessionId)).reverse,
      decide (ContextViews.isVisible other = true
        ∧ answersTo "wecom_stream_id" streamId other = true) = false := by
    intro other hother
    obtain ⟨hmem, hof⟩ := List.mem_filter.mp (List.mem_reverse.mp hother)
    simp [h.others hsession hrow other (List.mem_append_right older hmem) hof]
  unfold findAssistantMessageByRequestMetadata
  rw [if_neg (by simp [hstream]), reverse_loadSessionMessages, List.find?_filter,
    List.filter_append, List.filter_cons_of_pos hsession, List.reverse_append, List.reverse_cons,
    List.append_assoc, List.singleton_append,
    find?_take_append 100 hlater (by simp [hvisible, hrow]), List.length_reverse]
  split <;> rfl

/-- A message is found by its key. -/
theorem find_key (h : SessionHistory (older ++ row :: later) sessionId) {key : String}
    (hkey : Dict.get row "message_key" = .str key) :
    (older ++ row :: later).find? (fun other => Dict.get other "message_key" = .str key)
      = some row := by
  have hnodup := h.keys
  rw [List.map_append, List.map_cons] at hnodup
  have hmiddle := List.nodup_middle.mp hnodup
  rw [List.nodup_cons, List.mem_append, not_or] at hmiddle
  have hnone : older.find? (fun other => Dict.get other "message_key" = .str key) = none := by
    refine List.find?_eq_none.mpr fun other hother => ?_
    simp only [decide_eq_true_eq]
    intro hsame
    exact hmiddle.1.1 (List.mem_map.mpr ⟨other, hother, hsame.trans hkey.symm⟩)
  rw [List.find?_append, hnone, Option.none_or, List.find?_cons_of_pos (by simp [hkey])]

end

/-! ## What feedback does -/

theorem ratingOf_eq {feedbackType : Json}
    (h : feedbackType.keyScalar = .int 1 ∨ feedbackType.keyScalar = .int 2) :
    ratingOf feedbackType
      = some (if feedbackType.keyScalar = .int 1 then "positive" else "negative") := by
  unfold ratingOf
  rcases h with h | h
  · simp [h]
  · simp [h]

/-- Feedback on an answer of the session is saved under its key. -/
theorem saveMessageFeedback_own {s : ChatStore} {row : Dict} {key sessionId userId rating : String}
    {reason : Option String}
    (hfind : s.messages.find? (fun other => Dict.get other "message_key" = .str key) = some row)
    (hsession : ContextViews.ofSession sessionId row = true) (hrole : isAnswer row = true)
    (hrating : rating ∈ ["positive", "negative"]) :
    saveMessageFeedback s key sessionId userId rating reason
      = .ok { s with feedback := upsertFeedback s.feedback {
          assistantMessageKey := key
          traceId := Dict.get row "trace_id"
          sessionId := normalizeSessionId sessionId
          userId := sessionUserId (normalizeSessionId sessionId) userId
          rating := rating
          reason := nonEmpty (reason.map strip) } } := by
  unfold ContextViews.ofSession at hsession
  unfold isAnswer at hrole
  rw [decide_eq_true_iff] at hsession hrole
  unfold saveMessageFeedback
  dsimp only
  rw [if_neg (not_not.mpr hrating), hfind]
  dsimp only
  rw [if_neg (by simp [hsession, hrole])]

/-- An upsert adds its entry only. -/
theorem mem_upsertFeedback {feedback : StrapiRows MessageFeedback} {row other : MessageFeedback}
    (h : other ∈ (upsertFeedback feedback row).data) : other ∈ feedback.data ∨ other = row := by
  unfold upsertFeedback at h
  cases hfind : feedback.findOne fun old => old.assistantMessageKey = row.assistantMessageKey with
  | none =>
      rw [hfind, StrapiRows.put, StrapiRows.data_create] at h
      exact (List.mem_append.mp h).imp_right List.mem_singleton.mp
  | some reference =>
      rw [hfind] at h
      obtain ⟨entry, hentry, rfl⟩ := List.mem_map.mp h
      obtain ⟨old, hold, rfl⟩ := List.mem_map.mp hentry
      unfold StrapiRows.putRow
      split
      · exact Or.inr rfl
      · exact Or.inl (List.mem_map_of_mem hold)

/-! ## Histories -/

/-- Messages with keys of their own are stored in the order in which they were saved. -/
theorem saved_eq_append {store rows : List Dict}
    (h : ((store ++ rows).map fun row => Dict.get row "message_key").Nodup) :
    rows.foldl upsertMessage store = store ++ rows := by
  induction rows generalizing store with
  | nil => exact (List.append_nil store).symm
  | cons row rest ih =>
      have hnew : upsertMessage store row = store ++ [row] := by
        unfold upsertMessage
        rw [if_neg]
        rw [List.map_append, List.nodup_append] at h
        intro hany
        obtain ⟨old, hold, hkey⟩ := List.any_eq_true.mp hany
        exact h.2.2 _ (List.mem_map_of_mem hold) _ List.mem_cons_self (of_decide_eq_true hkey)
      rw [List.foldl_cons, hnew, ih (by simpa using h), List.append_assoc, List.singleton_append]

namespace SavedTurn

/-- The messages of a turn, in the order in which they are saved. -/
def rows (turn : SavedTurn) : List Dict := [turn.userRow, turn.assistantRow]

/-- The stream that the turn's request carries. -/
def streamId (turn : SavedTurn) : Option String :=
  (Dict.get turn.requestMetadata "wecom_stream_id").asStr?

/-- The streams of the turn's answers in a session. -/
theorem streams_rows (turn : SavedTurn) (sessionId : String) :
    ((turn.rows.filter (ContextViews.ofSession sessionId)).filter isAnswer).filterMap streamIdOf
      = ([turn].filter fun t => t.session = normalizeSessionId sessionId).filterMap
          SavedTurn.streamId := by
  have hsession : ∀ row ∈ turn.rows, ContextViews.ofSession sessionId row
      = decide (turn.session = normalizeSessionId sessionId) := by
    intro row hrow
    have hrow : Dict.get row "session_id" = .str turn.session := by
      rcases List.mem_pair.mp hrow with rfl | rfl <;> rfl
    unfold ContextViews.ofSession
    rw [hrow]
    simp
  have hstream : streamIdOf turn.assistantRow = turn.streamId := by
    unfold streamIdOf
    rw [requestMetadataOf_assistantRow]
    rfl
  have hanswers : turn.rows.filter isAnswer = [turn.assistantRow] := rfl
  by_cases h : turn.session = normalizeSessionId sessionId
  · have hkept : turn.rows.filter (ContextViews.ofSession sessionId) = turn.rows :=
      List.filter_eq_self.mpr fun row hrow => by rw [hsession row hrow, decide_eq_true h]
    rw [hkept, hanswers, List.filter_cons_of_pos (by simpa using h), List.filter_nil]
    simp only [List.filterMap_cons, hstream]
    cases turn.streamId <;> rfl
  · have hdropped : turn.rows.filter (ContextViews.ofSession sessionId) = [] :=
      List.filter_eq_nil_iff.mpr fun row hrow => by rw [hsession row hrow]; simpa using h
    rw [hdropped, List.filter_cons_of_neg (by simpa using h)]
    rfl

end SavedTurn

theorem SavedTurn.exists_role {turn : SavedTurn} {key : Json}
    (h : key ∈ turn.rows.map fun row => Dict.get row "message_key") :
    ∃ role, key = .str (messageKey turn.traceId role) := by
  rcases List.mem_pair.mp h with rfl | rfl
  · exact ⟨.user, rfl⟩
  · exact ⟨.assistant, rfl⟩

/-- Turns with traces of their own have messages with keys of their own. -/
theorem nodup_keys_rows {turns : List SavedTurn} (h : (turns.map SavedTurn.traceId).Nodup) :
    ((turns.flatMap SavedTurn.rows).map fun row => Dict.get row "message_key").Nodup := by
  rw [List.map_flatMap, List.nodup_flatMap]
  constructor
  · intro turn _
    refine List.nodup_cons.mpr ⟨fun hmem => ?_, List.nodup_singleton _⟩
    have hsame := Json.str.inj (List.mem_singleton.mp hmem)
    cases (messageKey_inj hsame).2
  · refine (List.pairwise_map.mp h).imp fun {t t'} hne => ?_
    intro key hkey hkey'
    obtain ⟨role, rfl⟩ := SavedTurn.exists_role hkey
    obtain ⟨role', hsame⟩ := SavedTurn.exists_role hkey'
    exact hne (messageKey_inj (Json.str.inj hsame)).1

/-- The streams of the answers in a session are those of its turns. -/
theorem streams_flatMap_rows (turns : List SavedTurn) (sessionId : String) :
    (((turns.flatMap SavedTurn.rows).filter (ContextViews.ofSession sessionId)).filter
        isAnswer).filterMap streamIdOf
      = (turns.filter fun t => t.session = normalizeSessionId sessionId).filterMap
          SavedTurn.streamId := by
  induction turns with
  | nil => rfl
  | cons turn rest ih =>
      rw [List.flatMap_cons, List.filter_append, List.filter_append, List.filterMap_append,
        turn.streams_rows, ih, ← List.filterMap_append, ← List.filter_append,
        List.singleton_append]

/-- A run of turns whose traces are their own, and whose streams in the session,
leaves a history of it. -/
theorem sessionHistory_of_turns {turns : List SavedTurn} {sessionId : String}
    (htraces : (turns.map SavedTurn.traceId).Nodup)
    (hstreams : ((turns.filter fun t => t.session = normalizeSessionId sessionId).filterMap
      SavedTurn.streamId).Nodup) :
    turns.foldl saveChatTurn [] = turns.flatMap SavedTurn.rows
      ∧ SessionHistory (turns.foldl saveChatTurn []) sessionId := by
  have hkeys := nodup_keys_rows htraces
  have hsaved : turns.foldl saveChatTurn [] = turns.flatMap SavedTurn.rows := by
    have hfold : turns.foldl saveChatTurn []
        = (turns.flatMap SavedTurn.rows).foldl upsertMessage [] := by
      rw [List.foldl_flatMap]
      rfl
    rw [hfold, saved_eq_append (by simpa using hkeys), List.nil_append]
  rw [hsaved]
  exact ⟨rfl, hkeys, by rwa [streams_flatMap_rows]⟩

/-! ## Feedback on a stream -/

/-- The feedback of a frame on the answer of a turn. -/
def SavedTurn.feedbackOf (turn : SavedTurn) (frame : FeedbackFrame) : MessageFeedback where
  assistantMessageKey := turn.key .assistant
  traceId := .str turn.traceId
  sessionId := turn.session
  userId := turn.user
  rating := if frame.feedbackType.keyScalar = .int 1 then "positive" else "negative"
  reason := nonEmpty ((reasonOf frame.feedbackEvent).map strip)

section Stream

variable {payload result : Dict} {streamId instanceId id : String} {faqIds : List Int}
  {skillIds : List Json} {latencyMs : Option Int} {sent : WeComTurn} {turn : SavedTurn}
  {older later : List Dict} {frame : FeedbackFrame}

theorem ofSession_assistantRow (hsession : turn.session = normalizeSessionId sent.sessionId) :
    ContextViews.ofSession turn.session turn.assistantRow = true := by
  have hrow : Dict.get turn.assistantRow "session_id" = .str turn.session := rfl
  unfold ContextViews.ofSession
  rw [hrow, hsession, normalizeSessionId_again, decide_eq_true_iff]

/-- Once the answer is found, the frame's feedback on it is saved. -/
theorem saveMessageFeedback_turn (feedback : StrapiRows MessageFeedback)
    (hhistory : SessionHistory (older ++ turn.assistantRow :: later) turn.session)
    (hsession : turn.session = normalizeSessionId sent.sessionId)
    (huser : turn.user = deriveUserIdFromSession turn.session) :
    saveMessageFeedback ⟨older ++ turn.assistantRow :: later, feedback⟩ (turn.key .assistant)
        turn.session (deriveUserIdFromSession turn.session)
        (if frame.feedbackType.keyScalar = .int 1 then "positive" else "negative")
        (reasonOf frame.feedbackEvent)
      = .ok ⟨older ++ turn.assistantRow :: later,
          upsertFeedback feedback (turn.feedbackOf frame)⟩ := by
  have hrating : (if frame.feedbackType.keyScalar = .int 1 then "positive" else "negative")
      ∈ ["positive", "negative"] := by
    split <;> simp
  have hnormal : normalizeSessionId turn.session = turn.session := by
    rw [hsession, normalizeSessionId_again]
  rw [saveMessageFeedback_own (find_key hhistory rfl) (ofSession_assistantRow hsession) rfl
    hrating, hnormal, sessionUserId_derive, ← huser]
  rfl

/-- The feedback of a user of WeCom on a stream that was answered is saved for that
answer, and for nothing else, while no more than 99 messages of the session came
after it; later it is not saved. -/
theorem feedback_on_stream {feedback : StrapiRows MessageFeedback}
    (hstream : strip streamId = streamId)
    (hsent : buildWecomTurn payload = .ok sent)
    (hturn : onText payload streamId result faqIds skillIds latencyMs instanceId = .ok turn)
    (hhistory : SessionHistory (older ++ turn.assistantRow :: later) turn.session)
    (huser : frame.userid = sent.sessionId)
    (hid : buildStreamFeedbackId (some streamId) = some id) (hframe : frame.feedbackId = .str id)
    (htype : frame.feedbackType.keyScalar = .int 1 ∨ frame.feedbackType.keyScalar = .int 2) :
    onFeedback ⟨older ++ turn.assistantRow :: later, feedback⟩ frame.payload
        = ⟨older ++ turn.assistantRow :: later,
            if (later.filter (ContextViews.ofSession turn.session)).length ≤ 99 then
              upsertFeedback feedback (turn.feedbackOf frame)
            else feedback⟩
      ∧ ∀ saved ∈ (onFeedback ⟨older ++ turn.assistantRow :: later, feedback⟩
          frame.payload).feedback.data,
        saved ∈ feedback.data
          ∨ saved.assistantMessageKey = turn.key .assistant ∧ saved.sessionId = turn.session := by
  obtain ⟨hsession, hturnUser, hcontent, hmetadata⟩ := onText_spec hsent hturn
  obtain ⟨hmessageId, hstreamId, hne⟩ := parse_buildStreamFeedbackId hid
  rw [hstream] at hstreamId hne
  obtain ⟨metadata, hbuilt⟩ := buildWecomFeedback_frame
    (by rw [huser]; exact buildWecomTurn_user hsent) (hframe ▸ hmessageId) (hframe ▸ hstreamId)
  have hfound := find_stream hhistory hne (ofSession_assistantRow hsession)
    (turn.isVisible_assistantRow hcontent) (turn.answersTo_assistantRow hmetadata)
  have hkeyText : ContextViews.keyText turn.assistantRow = turn.key .assistant := rfl
  have hsome : nonEmpty (some streamId) = some streamId := if_neg hne
  have hrun : onFeedback ⟨older ++ turn.assistantRow :: later, feedback⟩ frame.payload
      = ⟨older ++ turn.assistantRow :: later,
          if (later.filter (ContextViews.ofSession turn.session)).length ≤ 99 then
            upsertFeedback feedback (turn.feedbackOf frame)
          else feedback⟩ := by
    unfold onFeedback handleFeedback
    simp only [hbuilt, huser, ← hsession, ratingOf_eq htype, bind, Except.bind, Option.none_or,
      hsome, Option.bind_some, hfound]
    by_cases hfew : (later.filter (ContextViews.ofSession turn.session)).length ≤ 99
    · rw [if_pos (by omega), if_pos hfew, hkeyText]
      dsimp only
      rw [saveMessageFeedback_turn feedback hhistory hsession hturnUser]
      rfl
    · rw [if_neg (by omega), if_neg hfew]
      rfl
  refine ⟨hrun, ?_⟩
  rw [hrun]
  intro saved hsaved
  dsimp only at hsaved
  split at hsaved
  · rcases mem_upsertFeedback hsaved with hold | rfl
    · exact Or.inl hold
    · right
      simp only [SavedTurn.feedbackOf, and_self]
  · exact Or.inl hsaved

end Stream

/-! A question of "u1", its answer and the user's thumb. -/

def sampleQuestion : Dict :=
  [("from", .obj [("userid", .str "u1")]), ("text", .obj [("content", .str "hi")])]

def sampleSent : WeComTurn where
  sessionId := "u1"
  message := "hi"
  metadata := [("channel", .str "wecom"), ("transport", .str "http"), ("msgid", .null),
    ("aibotid", .null), ("chatid", .null), ("chattype", .null), ("from_userid", .str "u1"),
    ("response_url", .null), ("msgtype", .str "text"), ("quote", .null), ("ws_cmd", .null),
    ("ws_req_id", .null)]

/-- The turn of a stream, with the trace of its run. -/
def sampleTurn (streamId trace : String) : SavedTurn where
  sessionId := "u1"
  userId := "session-owner:u1"
  userMessage := "hi"
  assistantMessage := .str "hello"
  result := [("trace_id", .str trace), ("answer", .str "hello")]
  source := "wecom"
  requestMetadata := sampleSent.metadata ++ [("wecom_stream_id", .str streamId)]
  retrievedFaqIds := []
  injectedSkillIds := []
  latencyMs := some 5
  instanceId := "runtime-1"

def sampleEvent : Dict := [("id", .str "wecom_stream:s1"), ("type", .int 1)]

def sampleBody : Dict :=
  [("from", .obj [("userid", .str "u1")]), ("event", .obj [("feedback_event", .obj sampleEvent)])]

def sampleFrame : FeedbackFrame where
  payload := sampleBody
  body := sampleBody
  sender := [("userid", .str "u1")]
  event := [("feedback_event", .obj sampleEvent)]
  feedbackEvent := sampleEvent
  headers := []
  body_eq := rfl
  sender_eq := rfl
  event_eq := rfl
  feedbackEvent_eq := rfl
  headers_eq := rfl

def noFeedback : StrapiRows MessageFeedback := ⟨[], 0, nofun, List.nodup_nil⟩

/-- Two questions were answered; the thumb on the first answer goes to the first. -/
theorem feedback_on_stream_first :
    (onFeedback ⟨[sampleTurn "s1" "t1", sampleTurn "s2" "t2"].foldl saveChatTurn [], noFeedback⟩
        sampleFrame.payload).feedback.data.map MessageFeedback.assistantMessageKey
      = ["t1:assistant"] := by
  obtain ⟨hsaved, hhistory⟩ := @sessionHistory_of_turns
    [sampleTurn "s1" "t1", sampleTurn "s2" "t2"] "u1" (by decide) (by decide)
  rw [hsaved] at hhistory
  have hrun := (@feedback_on_stream sampleQuestion
    [("trace_id", .str "t1"), ("answer", .str "hello")] "s1" "runtime-1" "wecom_stream:s1" [] []
    (some 5) sampleSent (sampleTurn "s1" "t1")
    [(sampleTurn "s1" "t1").userRow] (sampleTurn "s2" "t2").rows sampleFrame noFeedback
    (by decide) rfl rfl hhistory (by decide) (by decide) rfl (by decide)).1
  have hfew : ((sampleTurn "s2" "t2").rows.filter
      (ContextViews.ofSession (sampleTurn "s1" "t1").session)).length ≤ 99 := by
    decide
  rw [if_pos hfew] at hrun
  rw [hsaved]
  exact congrArg (fun s => s.feedback.data.map MessageFeedback.assistantMessageKey) hrun

end WecomFeedback

end Aegora
