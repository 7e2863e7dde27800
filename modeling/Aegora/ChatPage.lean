import Aegora.WecomFeedback

/-!
# Feedback on the chat page

The chat page keeps nothing on the server: the history that it shows and the keys of the answers
in it travel with the browser, two lists that `feedback_message_id` reads side by side. Turns of
the page and of other entry points go on between any two of its requests, and a turn may fail to
be saved. The feedback on an answer is saved for the message that shows its text, or for none
(`liked_answer_rated`).
-/

namespace Aegora

open Py

namespace ChatPage

open WecomFeedback

/-! ## The page -/

/-- What the browser holds: the messages of the chatbot, the key of each answer among them, the
session, and the answer that waits for a reason. -/
structure Page where
  history : List Dict := []
  assistantMessageIds : List (Option String) := []
  sessionId : String := ""
  target : String := ""

/-- The user of the page, and `GRADIO_DEFAULT_SESSION_ID`. -/
structure PageEnv where
  username : Option String
  defaultSession : String

/-- `session_id_from_request`. -/
def sessionIdFromRequest (env : PageEnv) (current : String) : String :=
  match nonEmpty env.username with
  | some username => normalizeSessionId ("gradio:" ++ username)
  | none =>
      if current ≠ "" then normalizeSessionId current else normalizeSessionId env.defaultSession

/-- An item of the history. -/
def historyItem (role content : Json) : Dict := [("role", role), ("content", content)]

/-- `load_recent_conversation`. -/
def loadRecentConversation (store : List Dict) (sessionId : String) (limit : ℕ) :
    List Dict × List String :=
  let rows := ContextViews.loadSessionMessages store sessionId limit
  (rows.map fun row => historyItem (Dict.get row "role") (Dict.get row "content"),
    (rows.filter isAnswer).map ContextViews.keyText)

/-- `feedback_message_id`. -/
def feedbackMessageId (history : List Dict) (assistantMessageIds : List (Option String))
    (index : Int) : Option String :=
  if index < 0 ∨ history.length ≤ index then none
  else
    let i := index.toNat
    if Dict.get (history.getD i []) "role" ≠ .str "assistant" then none
    else
      let position := ((history.take (i + 1)).filter isAnswer).length - 1
      (assistantMessageIds[position]?).join

/-- `text.rstrip()`. -/
def rstrip (text : String) : String :=
  String.ofList (text.toList.reverse.dropWhile isSpace).reverse

/-- `url.startswith(("https://", "http://"))`. -/
def isLink (url : String) : Bool :=
  "https://".toList.isPrefixOf url.toList || "http://".toList.isPrefixOf url.toList

/-- `render_answer_with_assets`. -/
def renderAnswerWithAssets (answer : String) (assets : List Dict) : String :=
  if assets = [] then answer
  else
    let images := assets.flatMap fun asset =>
      let platform := ((Dict.get asset "platform").orElse (.str "FAQ")).pyStr
      let url := ((Dict.get asset "url").orElse (.str "")).pyStr
      if isLink url then
        ["", "**" ++ platform ++ "**", "![" ++ platform ++ " 操作配图](" ++ url ++ ")"]
      else []
    "\n".intercalate ([rstrip answer, "", "操作配图："] ++ images)

/-- What a run of the agent gives a turn to save. -/
structure AgentRun where
  result : Dict
  retrievedFaqIds : List Int
  injectedSkillIds : List Json
  latencyMs : Option Int
  instanceId : String

/-- `assistant_message`. -/
def AgentRun.assistantMessage (run : AgentRun) : String :=
  renderAnswerWithAssets ((Dict.get run.result "answer").orElse (.str "未生成回答")).pyStr
    ((((Dict.get run.result "answer_assets").asList?).getD []).filterMap Json.asDict?)

/-- The arguments of `save_chat_turn` in `respond`. -/
def AgentRun.turn (run : AgentRun) (sessionId message : String) : SavedTurn where
  sessionId := sessionId
  userId := deriveUserIdFromSession sessionId
  userMessage := message
  assistantMessage := .str run.assistantMessage
  result := run.result
  source := "gradio"
  requestMetadata := []
  retrievedFaqIds := run.retrievedFaqIds
  injectedSkillIds := run.injectedSkillIds
  latencyMs := run.latencyMs
  instanceId := run.instanceId

/-! ## The requests of the page -/

/-- A call of `respond`, with what it was given and how far it is. -/
structure Respond where
  history : List Dict
  assistantMessageIds : List (Option String)
  sessionId : String
  message : String
  saved : Bool := false

structure ChatSystem where
  store : ChatStore
  page : Page := {}
  responds : List Respond := []

/-- What the page and others do. -/
inductive PageEvent where
  /-- `load_user_session`, whose read may fail -/
  | load (fails : Bool)
  /-- `respond` begins: the message is shown -/
  | send (message : String)
  /-- the turn of a `respond` is saved -/
  | answered (i : Nat) (run : AgentRun)
  /-- it is not: `save_chat_turn` raised after some of its writes -/
  | unsaved (i : Nat) (run : AgentRun) (written : Nat)
  /-- `respond` ends with the history read back -/
  | refreshed (i : Nat)
  /-- `respond` raises -/
  | raised (i : Nat)
  | clear
  | like (index : Int) (liked : Bool)
  | reason (text : String)
  /-- a turn of another entry point or page -/
  | other (turn : SavedTurn)

/-- A run has a trace of its own, so its messages have keys of their own. -/
def FreshTurn (messages : List Dict) (turn : SavedTurn) : Prop :=
  ∀ row ∈ turn.rows, ∀ old ∈ messages, Dict.get old "message_key" ≠ Dict.get row "message_key"

instance (messages : List Dict) (turn : SavedTurn) : Decidable (FreshTurn messages turn) :=
  inferInstanceAs (Decidable (∀ row ∈ turn.rows, ∀ old ∈ messages,
    Dict.get old "message_key" ≠ Dict.get row "message_key"))

section Requests

variable (env : PageEnv) (s : ChatSystem)

/-- `handle_message_feedback`. -/
def handleMessageFeedback (index : Int) (liked : Bool) : ChatSystem :=
  let sessionId := sessionIdFromRequest env s.page.sessionId
  let unsaved := { s with page := { s.page with target := "" } }
  match feedbackMessageId s.page.history s.page.assistantMessageIds index with
  | none => unsaved
  | some messageId =>
      let rating := if liked then "positive" else "negative"
      match saveMessageFeedback s.store messageId sessionId (deriveUserIdFromSession sessionId)
          rating none with
      | .error _ => unsaved
      | .ok store => { s with
          store := store
          page := { s.page with target := if rating = "negative" then messageId else "" } }

/-- `submit_feedback_reason`. -/
def submitFeedbackReason (reason : String) : ChatSystem :=
  let sessionId := sessionIdFromRequest env s.page.sessionId
  if s.page.target = "" then s
  else match saveMessageFeedback s.store s.page.target sessionId
      (deriveUserIdFromSession sessionId) "negative" (some reason) with
    | .error _ => s
    | .ok store => { s with store := store, page := { s.page with target := "" } }

/-- The page after `load_recent_conversation`. -/
def Page.shows (page : Page) (messages : List Dict) (sessionId : String) : Page :=
  let (history, assistantIds) := loadRecentConversation messages sessionId 20
  { page with
    history := history
    assistantMessageIds := assistantIds.map some
    sessionId := sessionId }

/-- One request of the page, or a turn of another. -/
def pageStep : PageEvent → Option ChatSystem
  | .load fails =>
      let sessionId := sessionIdFromRequest env ""
      some { s with page :=
        if fails then
          { s.page with history := [], assistantMessageIds := [], sessionId := sessionId }
        else s.page.shows s.store.messages sessionId }
  | .send message =>
      let sessionId := sessionIdFromRequest env s.page.sessionId
      let history := s.page.history ++ [historyItem (.str "user") (.str message)]
      some { s with
        page := { s.page with history := history, sessionId := sessionId }
        responds := s.responds ++ [{
          history := history
          assistantMessageIds := s.page.assistantMessageIds
          sessionId := sessionId
          message := message }] }
  | .answered i run => do
      let respond ← s.responds[i]?
      let turn := run.turn respond.sessionId respond.message
      if ¬ respond.saved ∧ FreshTurn s.store.messages turn then
        return { s with
          store := { s.store with messages := saveChatTurn s.store.messages turn }
          responds := s.responds.set i { respond with saved := true } }
      else none
  | .unsaved i run written => do
      let respond ← s.responds[i]?
      let turn := run.turn respond.sessionId respond.message
      if ¬ respond.saved ∧ FreshTurn s.store.messages turn then
        return { s with
          store := { s.store with
            messages := (turn.rows.take written).foldl upsertMessage s.store.messages }
          page := { s.page with
            history := respond.history
              ++ [historyItem (.str "assistant") (.str run.assistantMessage)]
            assistantMessageIds := respond.assistantMessageIds ++ [none]
            sessionId := respond.sessionId }
          responds := s.responds.eraseIdx i }
      else none
  | .refreshed i => do
      let respond ← s.responds[i]?
      if respond.saved then
        return { s with
          page := s.page.shows s.store.messages respond.sessionId
          responds := s.responds.eraseIdx i }
      else none
  | .raised i => some { s with responds := s.responds.eraseIdx i }
  | .clear => some { s with page := { s.page with
      history := []
      assistantMessageIds := []
      sessionId := sessionIdFromRequest env s.page.sessionId } }
  | .like index liked => some (handleMessageFeedback env s index liked)
  | .reason text => some (submitFeedbackReason env s text)
  | .other turn =>
      if FreshTurn s.store.messages turn then
        some { s with store := { s.store with messages := saveChatTurn s.store.messages turn } }
      else none

end Requests

/-! ## What the page shows -/

/-- The session of the page's user. -/
def pageSession (env : PageEnv) : String := sessionIdFromRequest env ""

/-- The answer shown at a position. -/
def answerAt (history : List Dict) (index : Int) : Option Dict :=
  if index < 0 then none else history[index.toNat]?.filter isAnswer

/-- The message of a session that is an answer with the given text. -/
structure AnswerRow (messages : List Dict) (sessionId key : String) (content : Json)
    (row : Dict) : Prop where
  mem : row ∈ messages
  named : Dict.get row "message_key" = .str key
  nonempty : key ≠ ""
  session : ContextViews.ofSession sessionId row = true
  role : isAnswer row = true
  text : Dict.get row "content" = content

/-- Messages have texts as keys, each its own, as the schema of the collection has it. -/
structure Keyed (messages : List Dict) : Prop where
  keys : (messages.map fun row => Dict.get row "message_key").Nodup
  texts : ∀ row ∈ messages, ∃ key, Dict.get row "message_key" = .str key

/-- The key beside an answer is that of a message with its text; there is none beside an
answer that was not saved. -/
def Matches (unsaved : Json → Prop) (messages : List Dict) (sessionId : String) (item : Dict) :
    Option String → Prop
  | none => unsaved (Dict.get item "content")
  | some key => ∃ row, AnswerRow messages sessionId key (Dict.get item "content") row

/-- The keys stand beside the answers of the history. -/
def Aligned (unsaved : Json → Prop) (messages : List Dict) (sessionId : String)
    (history : List Dict) (ids : List (Option String)) : Prop :=
  List.Forall₂ (Matches unsaved messages sessionId) (history.filter isAnswer) ids

section Shown

variable {unsaved : Json → Prop} {messages messages' : List Dict} {sessionId key : String}
  {content : Json} {row item : Dict} {id : Option String} {history : List Dict}
  {ids : List (Option String)}

theorem AnswerRow.mono (h : AnswerRow messages sessionId key content row)
    (hsub : messages ⊆ messages') : AnswerRow messages' sessionId key content row :=
  { h with mem := hsub h.mem }

theorem Matches.mono (h : Matches unsaved messages sessionId item id)
    (hsub : messages ⊆ messages') : Matches unsaved messages' sessionId item id := by
  cases id with
  | none => exact h
  | some key =>
      obtain ⟨row, hrow⟩ := h
      exact ⟨row, hrow.mono hsub⟩

theorem Aligned.mono (h : Aligned unsaved messages sessionId history ids)
    (hsub : messages ⊆ messages') : Aligned unsaved messages' sessionId history ids :=
  List.Forall₂.imp (fun _ _ hmatches => hmatches.mono hsub) h

/-- A question stands beside no key. -/
theorem Aligned.question (h : Aligned unsaved messages sessionId history ids) (text : Json) :
    Aligned unsaved messages sessionId (history ++ [historyItem (.str "user") text]) ids := by
  have huser : isAnswer (historyItem (.str "user") text) = false := rfl
  unfold Aligned
  rw [List.filter_append, List.filter_cons_of_neg (by simp [huser]), List.filter_nil,
    List.append_nil]
  exact h

theorem Aligned.answer (h : Aligned unsaved messages sessionId history ids) {text : Json}
    (htext : unsaved text) :
    Aligned unsaved messages sessionId (history ++ [historyItem (.str "assistant") text])
      (ids ++ [none]) := by
  have hanswer : isAnswer (historyItem (.str "assistant") text) = true := rfl
  unfold Aligned
  rw [List.filter_append, List.filter_cons_of_pos hanswer, List.filter_nil]
  exact List.rel_append h (.cons htext .nil)

/-- A conversation that is read back has its answers beside their keys. -/
theorem aligned_loaded (hkeyed : Keyed messages) (limit : ℕ) :
    Aligned unsaved messages sessionId (loadRecentConversation messages sessionId limit).1
      ((loadRecentConversation messages sessionId limit).2.map some) := by
  have hanswers : ∀ rows : List Dict,
      (rows.map fun row => historyItem (Dict.get row "role") (Dict.get row "content")).filter
          isAnswer
        = (rows.filter isAnswer).map
            fun row => historyItem (Dict.get row "role") (Dict.get row "content") := by
    intro rows
    rw [List.filter_map]
    rfl
  unfold Aligned loadRecentConversation
  dsimp only
  rw [hanswers, List.map_map, List.forall₂_map_left_iff, List.forall₂_map_right_iff,
    List.forall₂_same]
  intro row hrow
  obtain ⟨hmem, hrole⟩ := List.mem_filter.mp hrow
  obtain ⟨hstored, hsession, hvisible⟩ := ContextViews.mem_loadSessionMessages hmem
  obtain ⟨key, hkey⟩ := hkeyed.texts row hstored
  have hkeyText : ContextViews.keyText row = key := by
    unfold ContextViews.keyText
    rw [hkey]
    rfl
  refine ⟨row, hstored, by rw [hkeyText, hkey], ?_, hsession, hrole, rfl⟩
  unfold ContextViews.isVisible at hvisible
  rw [hkey] at hvisible
  rw [hkeyText]
  rintro rfl
  simp at hvisible

/-! ## From a position to a message -/

/-- An item with a property is, among those with it, as many from the start as there are up
to it. -/
theorem getElem?_filter_count {α : Type} {p : α → Bool} {xs : List α} {i : ℕ} {x : α}
    (h : xs[i]? = some x) (hp : p x = true) :
    (xs.filter p)[((xs.take (i + 1)).filter p).length - 1]? = some x := by
  have htake : (xs.take (i + 1)).filter p = (xs.take i).filter p ++ [x] := by
    rw [List.take_add_one, h, List.filter_append]
    simp [hp]
  have hsplit : xs.filter p = (xs.take i).filter p ++ x :: (xs.drop (i + 1)).filter p := by
    rw [List.append_cons, ← htake, ← List.filter_append, List.take_append_drop]
  rw [htake, List.length_append, List.length_singleton, Nat.add_sub_cancel, hsplit,
    List.getElem?_append_right le_rfl, Nat.sub_self]
  rfl

theorem feedbackMessageId_none {index : Int} (h : answerAt history index = none) :
    feedbackMessageId history ids index = none := by
  unfold feedbackMessageId
  unfold answerAt at h
  split
  · rfl
  · rename_i hin
    rw [not_or, not_le] at hin
    rw [if_neg hin.1] at h
    have hlt : index.toNat < history.length := by omega
    rw [List.getElem?_eq_getElem hlt, Option.filter_some] at h
    dsimp only
    rw [List.getD_eq_getElem?_getD, List.getElem?_eq_getElem hlt, Option.getD_some, if_pos]
    intro hrole
    simp [isAnswer, hrole] at h

/-- The key of the answer at a position is the one that stands beside it. -/
theorem feedbackMessageId_answer {index : Int}
    (halign : Aligned unsaved messages sessionId history ids)
    (h : answerAt history index = some item) :
    Matches unsaved messages sessionId item (feedbackMessageId history ids index) := by
  unfold answerAt at h
  split at h
  · cases h
  · rename_i hnonneg
    obtain ⟨hitem, hrole⟩ := Option.filter_eq_some_iff.mp h
    obtain ⟨hlt, -⟩ := List.getElem?_eq_some_iff.mp hitem
    have hassistant : Dict.get item "role" = .str "assistant" := of_decide_eq_true hrole
    have hposition := getElem?_filter_count hitem hrole
    obtain ⟨hposlt, hposget⟩ := List.getElem?_eq_some_iff.mp hposition
    have hidlt := hposlt
    rw [halign.length_eq] at hidlt
    unfold feedbackMessageId
    dsimp only
    rw [if_neg (by omega), List.getD_eq_getElem?_getD, hitem, Option.getD_some,
      if_neg (not_not.mpr hassistant), List.getElem?_eq_getElem hidlt, Option.join_some,
      ← hposget]
    exact List.Forall₂.get halign hposlt hidlt

end Shown

/-! ## What is saved -/

/-- Messages of a run with a trace of its own come after those that are there. -/
theorem saved_fresh {messages rows : List Dict} {turn : SavedTurn} (hkeyed : Keyed messages)
    (hfresh : FreshTurn messages turn) (hrows : rows.Sublist turn.rows) :
    rows.foldl upsertMessage messages = messages ++ rows ∧ Keyed (messages ++ rows) := by
  have hown : (turn.rows.map fun row => Dict.get row "message_key").Nodup := by
    have htraces : ([turn].map SavedTurn.traceId).Nodup := List.nodup_singleton _
    simpa using nodup_keys_rows htraces
  have hkeys : ((messages ++ rows).map fun row => Dict.get row "message_key").Nodup := by
    rw [List.map_append, List.nodup_append]
    refine ⟨hkeyed.keys, hown.sublist (hrows.map _), ?_⟩
    rintro _ hold _ hnew rfl
    obtain ⟨old, holdMem, hkey⟩ := List.mem_map.mp hold
    obtain ⟨row, hrow, hrowKey⟩ := List.mem_map.mp hnew
    exact hfresh row (hrows.subset hrow) old holdMem (hkey.trans hrowKey.symm)
  refine ⟨saved_eq_append hkeys, hkeys, fun row hrow => ?_⟩
  rcases List.mem_append.mp hrow with hold | hnew
  · exact hkeyed.texts row hold
  · rcases List.mem_pair.mp (hrows.subset hnew) with rfl | rfl
    · exact ⟨turn.key .user, rfl⟩
    · exact ⟨turn.key .assistant, rfl⟩

/-- The store with feedback on a message. -/
def rated (s : ChatStore) (sessionId : String) (row : Dict) (key rating : String)
    (reason : Option String) : ChatStore :=
  { s with feedback := upsertFeedback s.feedback {
      assistantMessageKey := key
      traceId := Dict.get row "trace_id"
      sessionId := sessionId
      userId := deriveUserIdFromSession sessionId
      rating := rating
      reason := nonEmpty (reason.map strip) } }

theorem saveMessageFeedback_row {s : ChatStore} {sessionId key rating : String} {content : Json}
    {row : Dict} {reason : Option String} (hkeyed : Keyed s.messages)
    (hrow : AnswerRow s.messages sessionId key content row)
    (hsession : normalizeSessionId sessionId = sessionId)
    (hrating : rating ∈ ["positive", "negative"]) :
    saveMessageFeedback s key sessionId (deriveUserIdFromSession sessionId) rating reason
      = .ok (rated s sessionId row key rating reason) := by
  have hfind : s.messages.find? (fun other => Dict.get other "message_key" = .str key)
      = some row := by
    obtain ⟨found, hfound⟩ : ∃ found, s.messages.find?
        (fun other => Dict.get other "message_key" = .str key) = some found :=
      Option.isSome_iff_exists.mp
        (List.find?_isSome.mpr ⟨row, hrow.mem, decide_eq_true hrow.named⟩)
    have hkey : Dict.get found "message_key" = .str key := by
      simpa using List.find?_some hfound
    rw [hfound, List.inj_on_of_nodup_map hkeyed.keys (List.mem_of_find?_eq_some hfound) hrow.mem
      (hkey.trans hrow.named.symm)]
  rw [saveMessageFeedback_own hfind hrow.session hrow.role hrating, hsession,
    sessionUserId_derive]
  rfl

/-! ## Runs of the page -/

section Runs

variable {env : PageEnv} {unsaved : Json → Prop} {s t : ChatSystem} {event : PageEvent}

theorem normalize_pageSession : normalizeSessionId (pageSession env) = pageSession env := by
  unfold pageSession sessionIdFromRequest
  split
  · exact normalizeSessionId_again _
  · rw [if_neg (by simp)]
    exact normalizeSessionId_again _

/-- The session of the page stays the same. -/
theorem session_again {current : String} (h : current = "" ∨ current = pageSession env) :
    sessionIdFromRequest env current = pageSession env := by
  rcases h with rfl | rfl
  · rfl
  · have hne : pageSession env ≠ "" := by
      rw [← normalize_pageSession]
      exact (ContextViews.normalizeSessionId_stripped _).2
    have hsame := @normalize_pageSession env
    unfold sessionIdFromRequest
    split
    · rename_i username husername
      unfold pageSession sessionIdFromRequest
      rw [husername]
    · rw [if_pos hne, hsame]

/-- What holds of the page at any time. -/
structure PageSound (env : PageEnv) (unsaved : Json → Prop) (s : ChatSystem) : Prop where
  keyed : Keyed s.store.messages
  session : s.page.sessionId = "" ∨ s.page.sessionId = pageSession env
  shown : Aligned unsaved s.store.messages (pageSession env) s.page.history
    s.page.assistantMessageIds
  responds : ∀ respond ∈ s.responds, respond.sessionId = pageSession env
    ∧ Aligned unsaved s.store.messages (pageSession env) respond.history
      respond.assistantMessageIds

/-- The page while the messages grow and calls end. -/
theorem PageSound.grow {messages : List Dict} {responds : List Respond}
    (h : PageSound env unsaved s) (hkeyed : Keyed messages) (hsub : s.store.messages ⊆ messages)
    (hresponds : ∀ respond ∈ responds, ∃ old ∈ s.responds, respond.sessionId = old.sessionId
      ∧ respond.history = old.history
      ∧ respond.assistantMessageIds = old.assistantMessageIds) :
    PageSound env unsaved { s with
      store := { s.store with messages := messages }
      responds := responds } where
  keyed := hkeyed
  session := h.session
  shown := h.shown.mono hsub
  responds := by
    intro respond hrespond
    obtain ⟨old, hold, hsession, hhistory, hids⟩ := hresponds respond hrespond
    obtain ⟨holdSession, holdAligned⟩ := h.responds old hold
    rw [hsession, hhistory, hids]
    exact ⟨holdSession, holdAligned.mono hsub⟩

/-- The page with other contents. -/
theorem PageSound.turn {page : Page} (h : PageSound env unsaved s)
    (hsession : page.sessionId = "" ∨ page.sessionId = pageSession env)
    (hshown : Aligned unsaved s.store.messages (pageSession env) page.history
      page.assistantMessageIds) : PageSound env unsaved { s with page := page } :=
  { h with session := hsession, shown := hshown }

theorem PageSound.shows {sessionId : String} (h : PageSound env unsaved s)
    (hsession : sessionId = pageSession env) :
    PageSound env unsaved { s with page := s.page.shows s.store.messages sessionId } := by
  obtain rfl := hsession
  exact h.turn (Or.inr rfl) (aligned_loaded h.keyed 20)

theorem PageSound.feedback {store : ChatStore} {target : String} (h : PageSound env unsaved s)
    (hmessages : store.messages = s.store.messages) :
    PageSound env unsaved { s with store := store, page := { s.page with target := target } } := by
  obtain ⟨messages, feedback⟩ := store
  obtain rfl := hmessages
  exact ⟨h.keyed, h.session, h.shown, h.responds⟩

theorem messages_saveMessageFeedback {store store' : ChatStore}
    {messageId sessionId userId rating : String} {reason : Option String}
    (h : saveMessageFeedback store messageId sessionId userId rating reason = .ok store') :
    store'.messages = store.messages := by
  unfold saveMessageFeedback at h
  dsimp only at h
  split at h
  · cases h
  · split at h
    · cases h
    · split at h
      · cases h
      · obtain rfl := Except.ok.inj h
        rfl

/-- A click on an answer is about the message whose key stands at the position of the answer. -/
theorem handleMessageFeedback_spec (h : PageSound env unsaved s) (index : Int) (liked : Bool) :
    match answerAt s.page.history index with
    | none => handleMessageFeedback env s index liked
        = { s with page := { s.page with target := "" } }
    | some item =>
        (feedbackMessageId s.page.history s.page.assistantMessageIds index = none
            ∧ unsaved (Dict.get item "content") ∧ handleMessageFeedback env s index liked
            = { s with page := { s.page with target := "" } })
          ∨ ∃ row key,
            feedbackMessageId s.page.history s.page.assistantMessageIds index = some key
            ∧ AnswerRow s.store.messages (pageSession env) key (Dict.get item "content") row
            ∧ handleMessageFeedback env s index liked = { s with
                store := rated s.store (pageSession env) row key
                  (if liked then "positive" else "negative") none
                page := { s.page with target := if liked then "" else key } } := by
  split
  · rename_i hnone
    unfold handleMessageFeedback
    dsimp only
    rw [feedbackMessageId_none hnone]
  · rename_i item hitem
    have hmatches := feedbackMessageId_answer h.shown hitem
    unfold handleMessageFeedback
    dsimp only
    rw [session_again h.session]
    cases hid : feedbackMessageId s.page.history s.page.assistantMessageIds index with
    | none =>
        rw [hid] at hmatches
        exact Or.inl ⟨rfl, hmatches, rfl⟩
    | some key =>
        rw [hid] at hmatches
        obtain ⟨row, hrow⟩ := hmatches
        refine Or.inr ⟨row, key, rfl, hrow, ?_⟩
        dsimp only
        cases liked with
        | true =>
            rw [if_pos rfl, saveMessageFeedback_row h.keyed hrow normalize_pageSession (by simp)]
            rfl
        | false =>
            rw [if_neg (by simp),
              saveMessageFeedback_row h.keyed hrow normalize_pageSession (by simp)]
            rfl

theorem PageSound.like (h : PageSound env unsaved s) (index : Int) (liked : Bool) :
    PageSound env unsaved (handleMessageFeedback env s index liked)
      ∧ (handleMessageFeedback env s index liked).store.messages = s.store.messages := by
  have hspec := handleMessageFeedback_spec h index liked
  split at hspec
  · rw [hspec]
    exact ⟨h.feedback rfl, rfl⟩
  · rcases hspec with ⟨-, -, heq⟩ | ⟨row, key, -, -, heq⟩
    · rw [heq]
      exact ⟨h.feedback rfl, rfl⟩
    · rw [heq]
      exact ⟨h.feedback rfl, rfl⟩

theorem PageSound.reason (h : PageSound env unsaved s) (text : String) :
    PageSound env unsaved (submitFeedbackReason env s text)
      ∧ (submitFeedbackReason env s text).store.messages = s.store.messages := by
  unfold submitFeedbackReason
  dsimp only
  split
  · exact ⟨h, rfl⟩
  · split
    · exact ⟨h, rfl⟩
    · rename_i store hsaved
      have hmessages := messages_saveMessageFeedback hsaved
      exact ⟨h.feedback hmessages, hmessages⟩

/-- What leaves the answer that waits for a reason. -/
def PageEvent.keepsTarget : PageEvent → Bool
  | .like _ _ | .reason _ => false
  | _ => true

/-- The answers that were shown and not saved. -/
def UnsavedAnswer (events : List PageEvent) (content : Json) : Prop :=
  ∃ i run written, PageEvent.unsaved i run written ∈ events
    ∧ content = .str run.assistantMessage

/-- An event keeps the page sound and the messages that are there. -/
structure PageKept (env : PageEnv) (unsaved : Json → Prop) (s : ChatSystem) (event : PageEvent)
    (t : ChatSystem) : Prop where
  sound : PageSound env unsaved t
  messages : s.store.messages ⊆ t.store.messages
  target : event.keepsTarget = true → t.page.target = s.page.target

/-- What a load shows are stored messages, or none. -/
theorem kept_load {fails : Bool} (h : PageSound env unsaved s)
    (hstep : pageStep env s (.load fails) = some t) : PageKept env unsaved s (.load fails) t := by
  obtain rfl := Option.some.inj hstep
  cases fails with
  | true => exact ⟨h.turn (Or.inr rfl) .nil, List.Subset.refl _, fun _ => rfl⟩
  | false => exact ⟨h.shows rfl, List.Subset.refl _, fun _ => rfl⟩

theorem kept_send {message : String} (h : PageSound env unsaved s)
    (hstep : pageStep env s (.send message) = some t) :
    PageKept env unsaved s (.send message) t := by
  obtain rfl := Option.some.inj hstep
  have hsession := session_again h.session
  have hshown := h.shown.question (.str message)
  refine ⟨⟨h.keyed, Or.inr hsession, hshown, fun respond hrespond => ?_⟩, List.Subset.refl _,
    fun _ => rfl⟩
  rcases List.mem_append.mp hrespond with hold | hnew
  · exact h.responds respond hold
  · obtain rfl := List.mem_singleton.mp hnew
    exact ⟨hsession, hshown⟩

/-- A saved turn adds messages; what is shown waits for the reading back. -/
theorem kept_answered {i : Nat} {run : AgentRun} (h : PageSound env unsaved s)
    (hstep : pageStep env s (.answered i run) = some t) :
    PageKept env unsaved s (.answered i run) t := by
  unfold pageStep at hstep
  obtain ⟨respond, hrespond, hstep⟩ := Option.bind_eq_some_iff.mp hstep
  dsimp only at hstep
  split at hstep
  · rename_i hguard
    obtain rfl := Option.some.inj hstep
    obtain ⟨hsaved, hkeyed⟩ := saved_fresh h.keyed hguard.2 (List.Sublist.refl _)
    change saveChatTurn _ _ = _ at hsaved
    rw [hsaved]
    have hsub := List.subset_append_left s.store.messages
      (run.turn respond.sessionId respond.message).rows
    refine ⟨h.grow hkeyed hsub fun other hother => ?_, hsub, fun _ => rfl⟩
    rcases List.mem_or_eq_of_mem_set hother with hold | rfl
    · exact ⟨other, hold, rfl, rfl, rfl⟩
    · exact ⟨respond, List.mem_of_getElem? hrespond, rfl, rfl, rfl⟩
  · cases hstep

/-- An answer that was not saved is shown without a key. -/
theorem kept_unsaved {i : Nat} {run : AgentRun} {written : Nat} (h : PageSound env unsaved s)
    (hunsaved : unsaved (.str run.assistantMessage))
    (hstep : pageStep env s (.unsaved i run written) = some t) :
    PageKept env unsaved s (.unsaved i run written) t := by
  unfold pageStep at hstep
  obtain ⟨respond, hrespond, hstep⟩ := Option.bind_eq_some_iff.mp hstep
  dsimp only at hstep
  split at hstep
  · rename_i hguard
    obtain rfl := Option.some.inj hstep
    obtain ⟨hsaved, hkeyed⟩ := saved_fresh h.keyed hguard.2 (List.take_sublist written _)
    rw [hsaved]
    have hsub := List.subset_append_left s.store.messages
      ((run.turn respond.sessionId respond.message).rows.take written)
    have hcalls : ∀ other ∈ s.responds.eraseIdx i, ∃ old ∈ s.responds,
        other.sessionId = old.sessionId ∧ other.history = old.history
          ∧ other.assistantMessageIds = old.assistantMessageIds := fun other hother =>
      ⟨other, List.mem_of_mem_eraseIdx hother, rfl, rfl, rfl⟩
    have hgrown := h.grow hkeyed hsub hcalls
    obtain ⟨hsession, haligned⟩ := h.responds respond (List.mem_of_getElem? hrespond)
    exact ⟨hgrown.turn (Or.inr hsession)
      ((haligned.mono hsub).answer (hunsaved)), hsub, fun _ => rfl⟩
  · cases hstep

theorem kept_refreshed {i : Nat} (h : PageSound env unsaved s)
    (hstep : pageStep env s (.refreshed i) = some t) : PageKept env unsaved s (.refreshed i) t := by
  unfold pageStep at hstep
  obtain ⟨respond, hrespond, hstep⟩ := Option.bind_eq_some_iff.mp hstep
  split at hstep
  · obtain rfl := Option.some.inj hstep
    have hsession := (h.responds respond (List.mem_of_getElem? hrespond)).1
    exact ⟨(h.shows hsession).grow h.keyed (List.Subset.refl _) fun other hother =>
      ⟨other, List.mem_of_mem_eraseIdx hother, rfl, rfl, rfl⟩, List.Subset.refl _, fun _ => rfl⟩
  · cases hstep

theorem kept_raised {i : Nat} (h : PageSound env unsaved s)
    (hstep : pageStep env s (.raised i) = some t) : PageKept env unsaved s (.raised i) t := by
  obtain rfl := Option.some.inj hstep
  exact ⟨h.grow h.keyed (List.Subset.refl _) fun other hother =>
    ⟨other, List.mem_of_mem_eraseIdx hother, rfl, rfl, rfl⟩, List.Subset.refl _, fun _ => rfl⟩

theorem kept_clear (h : PageSound env unsaved s) (hstep : pageStep env s .clear = some t) :
    PageKept env unsaved s .clear t := by
  obtain rfl := Option.some.inj hstep
  exact ⟨h.turn (Or.inr (session_again h.session)) .nil, List.Subset.refl _, fun _ => rfl⟩

theorem kept_like {index : Int} {liked : Bool} (h : PageSound env unsaved s)
    (hstep : pageStep env s (.like index liked) = some t) :
    PageKept env unsaved s (.like index liked) t := by
  obtain rfl := Option.some.inj hstep
  obtain ⟨hsound, hmessages⟩ := h.like index liked
  exact ⟨hsound, by rw [hmessages]; exact List.Subset.refl _, nofun⟩

theorem kept_reason {text : String} (h : PageSound env unsaved s)
    (hstep : pageStep env s (.reason text) = some t) : PageKept env unsaved s (.reason text) t := by
  obtain rfl := Option.some.inj hstep
  obtain ⟨hsound, hmessages⟩ := h.reason text
  exact ⟨hsound, by rw [hmessages]; exact List.Subset.refl _, nofun⟩

theorem kept_other {turn : SavedTurn} (h : PageSound env unsaved s)
    (hstep : pageStep env s (.other turn) = some t) : PageKept env unsaved s (.other turn) t := by
  unfold pageStep at hstep
  dsimp only at hstep
  split at hstep
  · rename_i hfresh
    obtain rfl := Option.some.inj hstep
    obtain ⟨hsaved, hkeyed⟩ := saved_fresh h.keyed hfresh (List.Sublist.refl _)
    change saveChatTurn _ _ = _ at hsaved
    rw [hsaved]
    have hsub := List.subset_append_left s.store.messages turn.rows
    exact ⟨h.grow hkeyed hsub fun respond hrespond =>
      ⟨respond, hrespond, rfl, rfl, rfl⟩, hsub, fun _ => rfl⟩
  · cases hstep

theorem pageSound_step (h : PageSound env unsaved s)
    (hunsaved : ∀ i run written, event = .unsaved i run written →
      unsaved (.str run.assistantMessage))
    (hstep : pageStep env s event = some t) : PageKept env unsaved s event t := by
  cases event with
  | load _ => exact kept_load h hstep
  | send _ => exact kept_send h hstep
  | answered _ _ => exact kept_answered h hstep
  | unsaved i run written => exact kept_unsaved h (hunsaved i run written rfl) hstep
  | refreshed _ => exact kept_refreshed h hstep
  | raised _ => exact kept_raised h hstep
  | clear => exact kept_clear h hstep
  | like _ _ => exact kept_like h hstep
  | reason _ => exact kept_reason h hstep
  | other _ => exact kept_other h hstep

/-- A page that nothing was done on, over any messages. -/
structure Opened (s : ChatSystem) : Prop where
  page : s.page = {}
  responds : s.responds = []
  keyed : Keyed s.store.messages

theorem pageSound_run {start : ChatSystem} {events : List PageEvent} (hstart : Opened start)
    (hrun : Runs.run (pageStep env) start events = some s) :
    PageSound env (UnsavedAnswer events) s := by
  have hopened : PageSound env (UnsavedAnswer events) start := by
    refine ⟨hstart.keyed, ?_, ?_, ?_⟩
    · rw [hstart.page]
      exact Or.inl rfl
    · rw [hstart.page]
      exact .nil
    · rw [hstart.responds]
      exact nofun
  refine Runs.run_invariant (C := fun _ event => True ∧ event ∈ events)
    (fun u event v hu hevent hstep => ?_) hopened
    (Runs.meets_and (Runs.meets_true start events) fun _ hevent => hevent) hrun
  refine (pageSound_step hu (fun i run written hunsaved => ?_) hstep).sound
  exact ⟨i, run, written, hunsaved ▸ hevent.2, rfl⟩

/-- An answer that waits for a reason keeps waiting. -/
theorem waiting_run {key : String} {content : Json} {row : Dict} {later : List PageEvent}
    (hsound : PageSound env unsaved s)
    (hrow : AnswerRow s.store.messages (pageSession env) key content row)
    (htarget : s.page.target = key) (hkeeps : ∀ event ∈ later, event.keepsTarget = true)
    (hrun : Runs.run (pageStep env) s later = some t) :
    PageSound env (fun _ => True) t
      ∧ AnswerRow t.store.messages (pageSession env) key content row ∧ t.page.target = key := by
  have hany : PageSound env (fun _ => True) s := by
    have hforget : ∀ item id, Matches unsaved s.store.messages (pageSession env) item id →
        Matches (fun _ => True) s.store.messages (pageSession env) item id := by
      intro item id hmatches
      cases id with
      | none => trivial
      | some key => exact hmatches
    exact { hsound with
      shown := List.Forall₂.imp hforget hsound.shown
      responds := fun respond hrespond => (hsound.responds respond hrespond).imp_right
        (List.Forall₂.imp hforget) }
  refine Runs.run_invariant (C := fun _ event => True ∧ event.keepsTarget = true)
    (I := fun u => PageSound env (fun _ => True) u
      ∧ AnswerRow u.store.messages (pageSession env) key content row ∧ u.page.target = key)
    (fun u event v hu hevent hstep => ?_) ⟨hany, hrow, htarget⟩
    (Runs.meets_and (Runs.meets_true s later) hkeeps) hrun
  obtain ⟨hsound, hrow, htarget⟩ := hu
  obtain ⟨hsound', hsub, htarget'⟩ := pageSound_step hsound (fun _ _ _ _ => trivial) hstep
  exact ⟨hsound', hrow.mono hsub, (htarget' hevent.2).trans htarget⟩

/-- The reason goes to the answer that waits for it. -/
theorem submitFeedbackReason_waiting {key : String} {content : Json} {row : Dict}
    (hsound : PageSound env unsaved s)
    (hrow : AnswerRow s.store.messages (pageSession env) key content row)
    (htarget : s.page.target = key) (text : String) :
    submitFeedbackReason env s text = { s with
      store := rated s.store (pageSession env) row key "negative" (some text)
      page := { s.page with target := "" } } := by
  unfold submitFeedbackReason
  dsimp only
  rw [session_again hsound.session, htarget, if_neg hrow.nonempty,
    saveMessageFeedback_row hsound.keyed hrow normalize_pageSession (by simp)]

/-- At any time, whatever calls of the page and turns of others went on, a thumb on the page
saves feedback on the message of the user's session that has the text shown there, and on none
where no answer is shown or the answer was never saved, which the missing key at its position
tells; and the reason that follows a thumb down goes to the same message, whatever is shown by
then. -/
theorem liked_answer_rated {start : ChatSystem} {events : List PageEvent} (hstart : Opened start)
    (hrun : Runs.run (pageStep env) start events = some s) (index : Int) (liked : Bool) :
    match answerAt s.page.history index with
    | none => handleMessageFeedback env s index liked
        = { s with page := { s.page with target := "" } }
    | some item =>
        (feedbackMessageId s.page.history s.page.assistantMessageIds index = none
            ∧ UnsavedAnswer events (Dict.get item "content")
            ∧ handleMessageFeedback env s index liked
              = { s with page := { s.page with target := "" } })
          ∨ ∃ row key,
            feedbackMessageId s.page.history s.page.assistantMessageIds index = some key
            ∧ AnswerRow s.store.messages (pageSession env) key (Dict.get item "content") row
            ∧ handleMessageFeedback env s index liked = { s with
                store := rated s.store (pageSession env) row key
                  (if liked then "positive" else "negative") none
                page := { s.page with target := if liked then "" else key } }
            ∧ (liked = false → ∀ later t text, (∀ event ∈ later, event.keepsTarget = true) →
                Runs.run (pageStep env) (handleMessageFeedback env s index liked) later = some t →
                submitFeedbackReason env t text = { t with
                  store := rated t.store (pageSession env) row key "negative" (some text)
                  page := { t.page with target := "" } }) := by
  have hsound := pageSound_run hstart hrun
  have hspec := handleMessageFeedback_spec hsound index liked
  obtain ⟨hafter, hmessages⟩ := hsound.like index liked
  cases hitem : answerAt s.page.history index with
  | none =>
      rw [hitem] at hspec
      exact hspec
  | some item =>
      rw [hitem] at hspec
      refine hspec.imp_right fun hsaved => ?_
      obtain ⟨row, key, hkey, hrow, heq⟩ := hsaved
      refine ⟨row, key, hkey, hrow, heq, ?_⟩
      rintro rfl later t text hkeeps hlater
      have hwaits : (handleMessageFeedback env s index false).page.target = key := by
        rw [heq]
        rfl
      obtain ⟨hlast, hkept, hstill⟩ := waiting_run hafter (hmessages ▸ hrow) hwaits hkeeps hlater
      exact submitFeedbackReason_waiting hlast hkept hstill text

end Runs

/-! Ann's first question is answered; while she reads, a turn of another entry point goes on. -/

def annEnv : PageEnv := ⟨some "ann", "web"⟩

def annRun : AgentRun where
  result := [("trace_id", .str "t1"), ("answer", .str "hello")]
  retrievedFaqIds := []
  injectedSkillIds := []
  latencyMs := some 5
  instanceId := "runtime-1"

def annEvents : List PageEvent :=
  [.load false, .send "hi", .other (sampleTurn "s1" "t0"), .answered 0 annRun, .refreshed 0]

def annStart : ChatSystem where
  store := ⟨[], WecomFeedback.noFeedback⟩

/-- Ann's thumb down is saved for a message with the text of the answer. -/
theorem liked_answer_rated_ann :
    ∃ s row key, Runs.run (pageStep annEnv) annStart annEvents = some s
      ∧ AnswerRow s.store.messages "gradio:ann" key (.str "hello") row
      ∧ (handleMessageFeedback annEnv s 1 false).store
        = rated s.store "gradio:ann" row key "negative" none := by
  have hshown : (Runs.run (pageStep annEnv) annStart annEvents).map
      (fun s => answerAt s.page.history 1)
        = some (some (historyItem (.str "assistant") (.str "hello"))) := by
    decide +kernel
  obtain ⟨s, hrun, hitem⟩ := Option.map_eq_some_iff.mp hshown
  have hstart : Opened annStart := ⟨rfl, rfl, List.nodup_nil, nofun⟩
  have hspec := liked_answer_rated hstart hrun 1 false
  rw [hitem] at hspec
  have hsession : pageSession annEnv = "gradio:ann" := by decide
  rcases hspec with ⟨-, ⟨i, run, written, hevent, -⟩, -⟩ | ⟨row, key, -, hrow, heq, -⟩
  · simp [annEvents] at hevent
  · rw [hsession] at hrow heq
    refine ⟨s, row, key, hrun, hrow, ?_⟩
    rw [heq]
    rfl

end ChatPage

end Aegora
