import Aegora.ChatStream
import Aegora.WecomChunks

/-!
# Replies to a WeCom message

`on_text` answers a message as one stream of replies: an opening, the progress that the nodes of
the turn report, and the answer in chunks. The turn runs in a thread, its reports arrive while
replies are sent, and any reply may fail; then an apology ends the stream. However that goes, the
replies are told in the order in which they came about, and nothing is said after the end
(`wecom_replies`).
-/

namespace Aegora

open Py

namespace WecomReplies

open ChatPage ChatStream WecomFeedback WecomChunks

/-! ## What is said -/

/-- `WECOM_PROGRESS_EVENT_TYPES`. -/
def progressEventTypes : List String :=
  ["node_start", "skill_retrieval", "intent_classified", "pre_guard", "retrieval",
    "agent_decision", "tool_batch", "tool_call", "self_check"]

/-- `wecom_progress_message`; the type of an event is looked up in a set, so it is hashed. -/
def wecomProgressMessage (event : Dict) : Except String (Option String) := do
  let payload := (Dict.get event "payload").orElse (.obj [])
  let eventType ← if (Dict.get event "type").truthy then .ok (Dict.get event "type")
    else field payload "event"
  match eventType with
  | .arr _ | .obj _ => .error "TypeError"
  | .str kind =>
      let message := strip (textOf (Dict.get event "message"))
      return if kind ∈ progressEventTypes ∧ message ≠ "" then some ("进度：" ++ message) else none
  | _ => return none

/-- `format_answer_for_wecom`. -/
def formatAnswerForWecom (answer : Json) (assets : List Dict) : String :=
  let text := rstrip (answer.orElse (.str "未生成回答")).pyStr
  let imageLines := assets.filterMap fun asset =>
    let platform := textOr (strip ((Dict.get asset "platform").orElse (.str "FAQ")).pyStr) "FAQ"
    let url := strip (textOf (Dict.get asset "url"))
    if isLink url then some ("- " ++ platform ++ " 操作图：" ++ url) else none
  "\n".intercalate (text :: if imageLines = [] then [] else ["", "操作配图："] ++ imageLines)

/-- The answer to a turn that `handle_chat_turn` has returned. -/
def answerText (response : Dict) : String :=
  formatAnswerForWecom ((Dict.get response "answer").orElse (.str "未生成回答"))
    ((((Dict.get response "assets").asList?).getD []).filterMap Json.asDict?)

/-- `chunk_text(answer)`. -/
def answerChunks (response : Dict) : Option (List String) :=
  let answer := answerText response
  chunkText 700 answer.length answer

def openingReply : String := "开始处理你的问题。"

def apologyReply : String := "抱歉，当前暂时无法处理这条消息，请稍后再试。"

/-! ## The handler and the thread -/

/-- What a node of the turn reports through `stream_handler`: an event with a name. -/
structure NodeReport where
  message : String
  kind : String
  event : Dict
  traceId : Json
  createdAt : String
  event_kind : Dict.get event "event" = .str kind
  kind_ne : kind ≠ ""

/-- The session of a frame that is not refused. -/
def frameSession (payload : Dict) : String :=
  match buildWecomTurn payload with
  | .ok turn => normalizeSessionId turn.sessionId
  | .error _ => ""

def NodeReport.streamed (report : NodeReport) (session : String) : Dict :=
  normalizeStreamEvent report.message report.event report.traceId session
    (deriveUserIdFromSession session) report.createdAt

/-- Where `on_text` is. -/
inductive OnTextPhase where
  | opening
  | watching
  | answering (rest : List String)
  | apologising
  | answered
  | apologised
  /-- the apology could not be sent either -/
  | lost
deriving DecidableEq

structure OnText where
  phase : OnTextPhase := .opening
  /-- the thread has started -/
  started : Bool := false
  /-- what the thread has ended with; `none` inside when the turn raised -/
  task : Option (Option Dict) := none
  reports : List NodeReport := []
  queue : List Dict := []
  lastProgressMessage : String := ""
  /-- the replies that were sent, each with `finish` -/
  sent : List (String × Bool) := []

inductive OnTextAction where
  /-- the opening is sent, or the frame is refused -/
  | opens (sends : Bool)
  | reports (report : NodeReport)
  /-- the thread ends -/
  | ends (response : Option Dict)
  /-- an event is taken, and told where it is news -/
  | takes (sends : Bool)
  /-- the loop over the events ends -/
  | leaves
  | answers (sends : Bool)
  | apologises (sends : Bool)

section Step

variable (payload : Dict) (s : OnText)

/-- A reply is sent and the handler goes on, or it raises. -/
def OnText.reply (sends : Bool) (text : String) (finish : Bool) (next : OnTextPhase) : OnText :=
  if sends then { s with sent := s.sent ++ [(text, finish)], phase := next }
  else { s with phase := .apologising }

/-- A step of `on_text`, of the thread that it starts, or of the queue between them. -/
def onTextStep : OnTextAction → Option OnText
  | .opens sends =>
      if s.phase = .opening then
        match buildWecomTurn payload with
        | .error _ => some { s with phase := .apologising }
        | .ok _ => some { s.reply sends openingReply false .watching with started := sends }
      else none
  | .reports report =>
      if s.started ∧ s.task = none then
        some { s with
          reports := s.reports ++ [report]
          queue := s.queue ++ [report.streamed (frameSession payload)] }
      else none
  | .ends response =>
      if s.started ∧ s.task = none then some { s with task := some response } else none
  | .takes sends =>
      if s.phase = .watching then
        match s.queue with
        | [] => none
        | event :: queue =>
            let s := { s with queue := queue }
            match wecomProgressMessage event with
            | .error _ => some { s with phase := .apologising }
            | .ok none => some s
            | .ok (some message) =>
                if message = s.lastProgressMessage then some s
                else some ({ s with lastProgressMessage := message }.reply sends message false
                  .watching)
      else none
  | .leaves =>
      if s.phase = .watching ∧ s.queue = [] then
        match s.task with
        | none => none
        | some none => some { s with phase := .apologising }
        | some (some response) =>
            (answerChunks response).map fun chunks => { s with phase := .answering chunks }
      else none
  | .answers sends =>
      match s.phase with
      | .answering [] => none
      | .answering [chunk] => some (s.reply sends chunk true .answered)
      | .answering (chunk :: rest) => some (s.reply sends chunk false (.answering rest))
      | _ => none
  | .apologises sends =>
      if s.phase = .apologising then
        some (if sends then { s with
          sent := s.sent ++ [(apologyReply, true)]
          phase := .apologised }
        else { s with phase := .lost })
      else none

end Step

/-! ## The script -/

/-- The progress message of a report. -/
def NodeReport.progress (report : NodeReport) : Option String :=
  if report.kind ∈ progressEventTypes ∧ strip report.message ≠ "" then
    some ("进度：" ++ strip report.message)
  else none

/-- One report more: its progress message, unless it was the last one told. -/
def tellProgress (told : List String) (report : NodeReport) : List String :=
  match report.progress with
  | some message => if told.getLast? = some message then told else told ++ [message]
  | none => told

/-- The opening, and the progress of the reports. -/
def progressReplies (reports : List NodeReport) : List (String × Bool) :=
  (openingReply, false) :: (reports.foldl tellProgress []).map (·, false)

/-- The last chunk of an answer ends the stream. -/
def answerReplies : List String → List (String × Bool)
  | [] => []
  | [chunk] => [(chunk, true)]
  | chunk :: rest => (chunk, false) :: answerReplies rest

/-- The replies to a message, as far as the turn has come. -/
def script (s : OnText) : List (String × Bool) :=
  progressReplies s.reports ++ match s.task with
    | some (some response) => ((answerChunks response).map answerReplies).getD []
    | _ => []

theorem answerReplies_append (before : List String) {rest : List String} (hrest : rest ≠ []) :
    answerReplies (before ++ rest) = before.map (·, false) ++ answerReplies rest := by
  induction before with
  | nil => rfl
  | cons chunk before ih =>
      obtain ⟨next, more, hnext⟩ := List.exists_cons_of_ne_nil
        (List.append_ne_nil_of_right_ne_nil before hrest)
      rw [List.map_cons, List.cons_append, List.cons_append, ← ih, hnext]
      rfl

section Progress

variable {reports : List NodeReport} {report : NodeReport}

theorem tellProgress_extends (told : List String) (report : NodeReport) :
    told <+: tellProgress told report := by
  unfold tellProgress
  split
  · split
    · exact List.prefix_rfl
    · exact List.prefix_append _ _
  · exact List.prefix_rfl

theorem progressReplies_concat (reports : List NodeReport) (report : NodeReport) :
    progressReplies reports <+: progressReplies (reports ++ [report]) := by
  unfold progressReplies
  rw [List.foldl_concat, List.cons_prefix_cons]
  exact ⟨rfl, (tellProgress_extends _ report).map _⟩

theorem progressReplies_append (reports more : List NodeReport) :
    progressReplies reports <+: progressReplies (reports ++ more) := by
  induction more using List.reverseRecOn with
  | nil => rw [List.append_nil]
  | append_singleton more report ih =>
      rw [← List.append_assoc]
      exact ih.trans (progressReplies_concat _ report)

theorem progressReplies_open (reports : List NodeReport) :
    ∀ reply ∈ progressReplies reports, reply.2 = false := by
  intro reply hreply
  rcases List.mem_cons.mp hreply with rfl | hreply
  · rfl
  · obtain ⟨message, -, rfl⟩ := List.mem_map.mp hreply
    rfl

theorem wecomProgressMessage_streamed (report : NodeReport) (session : String) :
    wecomProgressMessage (report.streamed session) = .ok report.progress := by
  have htype : Dict.get (report.streamed session) "type" = .str report.kind := by
    change Json.str ((Dict.get report.event "event").orElse _).pyStr = _
    rw [report.event_kind, Json.pyStr_orElse_str, if_neg report.kind_ne]
  have hmessage : textOf (Dict.get (report.streamed session) "message") = report.message := by
    change textOf (.str report.message) = _
    unfold textOf
    rw [Json.pyStr_orElse_str]
    split
    · rename_i hempty
      exact hempty.symm
    · rfl
  unfold wecomProgressMessage
  rw [htype, hmessage]
  simp only [Json.truthy_str, bne_iff_ne, ne_eq, report.kind_ne, not_false_eq_true, if_true]
  rfl

end Progress

/-! ## A run of the handler -/

/-- Replies of the script that leave the stream open. -/
def Unfinished (s : OnText) (replies : List (String × Bool)) : Prop :=
  replies <+: script s ∧ ∀ reply ∈ replies, reply.2 = false

/-- What was said after the reports that were taken, by where the handler is. -/
def Said (s : OnText) (taken : List NodeReport) : Prop :=
  match s.phase with
  | .opening => s.sent = [] ∧ s.started = false ∧ s.reports = [] ∧ s.lastProgressMessage = ""
  | .watching => s.sent = progressReplies taken
      ∧ s.lastProgressMessage = (taken.foldl tellProgress []).getLastD ""
  | .answering rest => taken = s.reports ∧ rest ≠ [] ∧ ∃ response before,
      s.task = some (some response) ∧ answerChunks response = some (before ++ rest)
        ∧ s.sent = progressReplies taken ++ before.map (·, false)
  | .answered => ∃ response chunks, s.task = some (some response)
      ∧ answerChunks response = some chunks ∧ s.sent = progressReplies s.reports
        ++ answerReplies chunks
  | .apologising | .lost => Unfinished s s.sent
  | .apologised => ∃ before, s.sent = before ++ [(apologyReply, true)] ∧ Unfinished s before

structure Replying (payload : Dict) (s : OnText) : Prop where
  queue : ∃ taken waiting, s.reports = taken ++ waiting
    ∧ s.queue = waiting.map (·.streamed (frameSession payload)) ∧ Said s taken

section Run

variable {payload : Dict} {s t : OnText} {action : OnTextAction} {taken waiting : List NodeReport}

theorem progressReplies_script (h : s.reports = taken ++ waiting) :
    progressReplies taken <+: script s := by
  unfold script
  rw [h]
  exact (progressReplies_append taken waiting).trans (List.prefix_append _ _)

theorem unfinished_taken (h : s.reports = taken ++ waiting) :
    Unfinished s (progressReplies taken) :=
  ⟨progressReplies_script h, progressReplies_open taken⟩

/-- Whatever the thread does next, the script only gets longer. -/
theorem Unfinished.mono {replies : List (String × Bool)} (h : Unfinished s replies)
    (hscript : script s <+: script t) : Unfinished t replies :=
  ⟨h.1.trans hscript, h.2⟩

/-- The replies to an answer of which a part was sent. -/
theorem unfinished_answering {response : Dict} {before rest : List String}
    (hrest : rest ≠ []) (htask : s.task = some (some response))
    (hchunks : answerChunks response = some (before ++ rest)) :
    Unfinished s (progressReplies s.reports ++ before.map (·, false)) := by
  constructor
  · unfold script
    rw [htask]
    dsimp only
    rw [hchunks, Option.map_some, Option.getD_some, answerReplies_append before hrest,
      ← List.append_assoc]
    exact List.prefix_append _ _
  · intro reply hreply
    rcases List.mem_append.mp hreply with hreply | hreply
    · exact progressReplies_open _ reply hreply
    · obtain ⟨chunk, -, rfl⟩ := List.mem_map.mp hreply
      rfl

/-- The thread goes on while the handler stays where it is. -/
theorem said_thread (h : Said s taken) (hstarted : s.started = true) (htask : s.task = none)
    (hphase : t.phase = s.phase) (hsent : t.sent = s.sent)
    (hlast : t.lastProgressMessage = s.lastProgressMessage)
    (hscript : script s <+: script t) : Said t taken := by
  unfold Said at h ⊢
  rw [hphase]
  cases hcase : s.phase with
  | opening =>
      rw [hcase] at h
      exact absurd hstarted (by simp [h.2.1])
  | watching =>
      rw [hcase] at h
      dsimp only at h ⊢
      rwa [hsent, hlast]
  | answering rest =>
      rw [hcase] at h
      obtain ⟨-, -, response, before, hended, -⟩ := h
      cases htask.symm.trans hended
  | apologising =>
      rw [hcase] at h
      dsimp only at h ⊢
      rw [hsent]
      exact h.mono hscript
  | answered =>
      rw [hcase] at h
      obtain ⟨response, chunks, hended, -⟩ := h
      cases htask.symm.trans hended
  | apologised =>
      rw [hcase] at h
      obtain ⟨before, hbefore, hopen⟩ := h
      exact ⟨before, hsent.trans hbefore, hopen.mono hscript⟩
  | lost =>
      rw [hcase] at h
      dsimp only at h ⊢
      rw [hsent]
      exact h.mono hscript

/-- A progress message is news when it is not the last one told. -/
theorem tellProgress_message {told : List String} {report : NodeReport} {message : String}
    (hprogress : report.progress = some message) :
    tellProgress told report
      = if message = told.getLastD "" then told else told ++ [message] := by
  have hne : message ≠ "" := by
    unfold NodeReport.progress at hprogress
    split at hprogress
    · obtain rfl := Option.some.inj hprogress
      intro hempty
      have hlist := congrArg String.toList hempty
      rw [String.toList_append] at hlist
      simp at hlist
    · cases hprogress
  unfold tellProgress
  rw [hprogress]
  dsimp only
  rw [List.getLastD_eq_getLast?]
  cases told.getLast? with
  | none => simp [hne]
  | some last => simp [eq_comm]

theorem replying_opens {sends : Bool} (h : Replying payload s)
    (hstep : onTextStep payload s (.opens sends) = some t) : Replying payload t := by
  obtain ⟨taken, waiting, hreports, hqueue, hsaid⟩ := h.queue
  unfold onTextStep at hstep
  dsimp only at hstep
  split at hstep
  · rename_i hphase
    unfold Said at hsaid
    rw [hphase] at hsaid
    obtain ⟨hsent, -, hnone, hlast⟩ := hsaid
    have hsilent : ∀ started, Said { s with started := started, phase := .apologising } taken := by
      intro started
      have hnil : s.sent <+: script s := hsent ▸ List.nil_prefix
      exact ⟨hnil, by rw [hsent]; exact nofun⟩
    split at hstep
    · obtain rfl := Option.some.inj hstep
      exact ⟨taken, waiting, hreports, hqueue, hsilent s.started⟩
    · obtain rfl := Option.some.inj hstep
      cases sends with
      | false => exact ⟨taken, waiting, hreports, hqueue, hsilent false⟩
      | true =>
          obtain ⟨rfl, rfl⟩ := List.append_eq_nil_iff.mp (hreports.symm.trans hnone)
          refine ⟨[], [], hnone, hqueue, ?_, hlast⟩
          change s.sent ++ [_] = _
          rw [hsent]
          rfl
  · cases hstep

theorem replying_reports {report : NodeReport} (h : Replying payload s)
    (hstep : onTextStep payload s (.reports report) = some t) : Replying payload t := by
  obtain ⟨taken, waiting, hreports, hqueue, hsaid⟩ := h.queue
  unfold onTextStep at hstep
  dsimp only at hstep
  split at hstep
  · rename_i hguard
    obtain rfl := Option.some.inj hstep
    refine ⟨taken, waiting ++ [report], ?_, ?_, ?_⟩
    · rw [← List.append_assoc, ← hreports]
    · rw [List.map_append, ← hqueue]
      rfl
    · refine said_thread hsaid hguard.1 hguard.2 rfl rfl rfl ?_
      unfold script
      rw [hguard.2, List.append_nil]
      exact (progressReplies_concat s.reports report).trans (List.prefix_append _ _)
  · cases hstep

theorem replying_ends {response : Option Dict} (h : Replying payload s)
    (hstep : onTextStep payload s (.ends response) = some t) : Replying payload t := by
  obtain ⟨taken, waiting, hreports, hqueue, hsaid⟩ := h.queue
  unfold onTextStep at hstep
  dsimp only at hstep
  split at hstep
  · rename_i hguard
    obtain rfl := Option.some.inj hstep
    refine ⟨taken, waiting, hreports, hqueue, ?_⟩
    refine said_thread hsaid hguard.1 hguard.2 rfl rfl rfl ?_
    unfold script
    rw [hguard.2, List.append_nil]
    exact List.prefix_append _ _
  · cases hstep

theorem replying_takes {sends : Bool} (h : Replying payload s)
    (hstep : onTextStep payload s (.takes sends) = some t) : Replying payload t := by
  obtain ⟨taken, waiting, hreports, hqueue, hsaid⟩ := h.queue
  unfold onTextStep at hstep
  dsimp only at hstep
  split at hstep
  · rename_i hphase
    unfold Said at hsaid
    rw [hphase] at hsaid
    obtain ⟨hsent, hlast⟩ := hsaid
    cases waiting with
    | nil =>
        rw [hqueue] at hstep
        cases hstep
    | cons report waiting =>
        have htaken : s.reports = (taken ++ [report]) ++ waiting := by
          rw [hreports, List.append_cons]
        have htold : (taken ++ [report]).foldl tellProgress []
            = tellProgress (taken.foldl tellProgress []) report := List.foldl_concat _ _ _ _
        rw [hqueue, List.map_cons] at hstep
        dsimp only at hstep
        rw [wecomProgressMessage_streamed] at hstep
        cases hprogress : report.progress with
        | none =>
            rw [hprogress] at hstep
            obtain rfl := Option.some.inj hstep
            have hsame : (taken ++ [report]).foldl tellProgress []
                = taken.foldl tellProgress [] := by
              rw [htold]
              unfold tellProgress
              rw [hprogress]
            refine ⟨taken ++ [report], waiting, htaken, rfl, ?_⟩
            unfold Said progressReplies
            dsimp only
            rw [hphase, hsame]
            exact ⟨hsent, hlast⟩
        | some message =>
            rw [tellProgress_message hprogress, ← hlast] at htold
            rw [hprogress] at hstep
            dsimp only at hstep
            split at hstep
            · rename_i hsame
              rw [if_pos hsame] at htold
              obtain rfl := Option.some.inj hstep
              refine ⟨taken ++ [report], waiting, htaken, rfl, ?_⟩
              unfold Said progressReplies
              dsimp only
              rw [hphase, htold]
              exact ⟨hsent, hlast⟩
            · rename_i hnews
              rw [if_neg hnews] at htold
              obtain rfl := Option.some.inj hstep
              cases sends with
              | false =>
                  have hopen := unfinished_taken hreports
                  rw [← hsent] at hopen
                  exact ⟨taken ++ [report], waiting, htaken, rfl, hopen⟩
              | true =>
                  refine ⟨taken ++ [report], waiting, htaken, rfl, ?_, ?_⟩
                  · change s.sent ++ [(message, false)] = _
                    unfold progressReplies
                    rw [htold, hsent, List.map_append]
                    rfl
                  · rw [htold, List.getLastD_concat]
                    rfl
  · cases hstep

/-- An answer has a chunk. -/
theorem answerChunks_ne_nil {response : Dict} {chunks : List String}
    (h : answerChunks response = some chunks) : chunks ≠ [] := by
  unfold answerChunks chunkText at h
  obtain ⟨pieces, hpieces, rfl⟩ := Option.map_eq_some_iff.mp h
  rw [Ne, List.map_eq_nil_iff]
  rintro rfl
  unfold chunkChars at hpieces
  split at hpieces
  · cases hpieces
  · obtain ⟨state, -, hlast⟩ := Option.bind_eq_some_iff.mp hpieces
    dsimp only at hlast
    generalize (if state.current ≠ [] then state.flush.chunks else state.chunks) = collected
      at hlast
    have hcollected := Option.some.inj hlast
    split at hcollected
    · cases hcollected
    · contradiction

theorem replying_leaves (h : Replying payload s)
    (hstep : onTextStep payload s .leaves = some t) : Replying payload t := by
  obtain ⟨taken, waiting, hreports, hqueue, hsaid⟩ := h.queue
  unfold onTextStep at hstep
  dsimp only at hstep
  split at hstep
  · rename_i hguard
    unfold Said at hsaid
    rw [hguard.1] at hsaid
    obtain rfl := List.map_eq_nil_iff.mp (hqueue.symm.trans hguard.2)
    have hopen := unfinished_taken hreports
    rw [← hsaid.1] at hopen
    rw [List.append_nil] at hreports
    split at hstep
    · cases hstep
    · obtain rfl := Option.some.inj hstep
      exact ⟨s.reports, [], (List.append_nil _).symm, hguard.2, hopen⟩
    · rename_i response htask
      obtain ⟨chunks, hchunks, rfl⟩ := Option.map_eq_some_iff.mp hstep
      refine ⟨s.reports, [], (List.append_nil _).symm, hguard.2, rfl, answerChunks_ne_nil hchunks,
        response, [], htask, hchunks, ?_⟩
      change s.sent = _
      rw [hsaid.1, hreports, List.map_nil, List.append_nil]
  · cases hstep

theorem replying_answers {sends : Bool} (h : Replying payload s)
    (hstep : onTextStep payload s (.answers sends) = some t) : Replying payload t := by
  obtain ⟨taken, waiting, hreports, hqueue, hsaid⟩ := h.queue
  unfold onTextStep at hstep
  dsimp only at hstep
  cases hphase : s.phase with
  | answering rest =>
      unfold Said at hsaid
      rw [hphase] at hsaid hstep
      obtain ⟨rfl, hrest, response, before, htask, hchunks, hsent⟩ := hsaid
      have hopen := unfinished_answering hrest htask hchunks
      rw [← hsent] at hopen
      cases rest with
      | nil => exact absurd rfl hrest
      | cons chunk rest =>
          have hsplit : answerChunks response = some ((before ++ [chunk]) ++ rest) := by
            rw [hchunks, List.append_cons]
          cases rest with
          | nil =>
              obtain rfl := Option.some.inj hstep
              cases sends with
              | false => exact ⟨s.reports, waiting, hreports, hqueue, hopen⟩
              | true =>
                  refine ⟨s.reports, waiting, hreports, hqueue, response, before ++ [chunk],
                    htask, hchunks, ?_⟩
                  change s.sent ++ [(chunk, true)] = _
                  rw [hsent, answerReplies_append before (List.cons_ne_nil chunk []),
                    ← List.append_assoc]
                  rfl
          | cons next rest =>
              obtain rfl := Option.some.inj hstep
              cases sends with
              | false => exact ⟨s.reports, waiting, hreports, hqueue, hopen⟩
              | true =>
                  refine ⟨s.reports, waiting, hreports, hqueue, rfl, List.cons_ne_nil next rest,
                    response, before ++ [chunk], htask, hsplit, ?_⟩
                  change s.sent ++ [(chunk, false)] = _
                  rw [hsent, List.map_append, ← List.append_assoc]
                  rfl
  | _ =>
      rw [hphase] at hstep
      cases hstep

theorem replying_apologises {sends : Bool} (h : Replying payload s)
    (hstep : onTextStep payload s (.apologises sends) = some t) : Replying payload t := by
  obtain ⟨taken, waiting, hreports, hqueue, hsaid⟩ := h.queue
  unfold onTextStep at hstep
  dsimp only at hstep
  split at hstep
  · rename_i hphase
    unfold Said at hsaid
    rw [hphase] at hsaid
    obtain rfl := Option.some.inj hstep
    cases sends with
    | false => exact ⟨taken, waiting, hreports, hqueue, hsaid⟩
    | true => exact ⟨taken, waiting, hreports, hqueue, s.sent, rfl, hsaid⟩
  · cases hstep

theorem replying_step (h : Replying payload s) (hstep : onTextStep payload s action = some t) :
    Replying payload t := by
  cases action with
  | opens sends => exact replying_opens h hstep
  | reports report => exact replying_reports h hstep
  | ends response => exact replying_ends h hstep
  | takes sends => exact replying_takes h hstep
  | leaves => exact replying_leaves h hstep
  | answers sends => exact replying_answers h hstep
  | apologises sends => exact replying_apologises h hstep

theorem replying_run {actions : List OnTextAction}
    (hrun : Runs.run (onTextStep payload) {} actions = some s) : Replying payload s := by
  have hstart : Said {} [] := ⟨rfl, rfl, rfl, rfl⟩
  exact Runs.run_invariant' (fun _ _ _ hs hstep => replying_step hs hstep)
    ⟨[], [], rfl, rfl, hstart⟩ hrun

/-- An answer is cut into chunks that may be sent, and they are the answer. -/
theorem answerChunks_spec (response : Dict) :
    ∃ chunks, answerChunks response = some chunks ∧ String.join chunks = answerText response
      ∧ ∀ chunk ∈ chunks, chunk.length ≤ 700 := by
  have hlength : (answerText response).toList.length ≤ (answerText response).length := by
    rw [String.length_toList]
  obtain ⟨pieces, hpieces, hflat, hbound⟩ := @chunkChars_spec 700 (by decide) _ _ hlength
  refine ⟨pieces.map String.ofList, ?_, ?_, fun chunk hchunk => ?_⟩
  · unfold answerChunks chunkText
    dsimp only
    rw [hpieces]
    rfl
  · apply String.toList_inj.mp
    rw [String.toList_join, List.flatMap_map]
    simpa using hflat
  · obtain ⟨piece, hpiece, rfl⟩ := List.mem_map.mp hchunk
    rw [String.length_ofList]
    exact (hbound piece hpiece).1

/-- What `on_text` itself can do when its replies are sent. -/
def handlerActions : List OnTextAction :=
  [.opens true, .takes true, .leaves, .answers true, .apologises true]

/-- The handler goes on by itself, unless it is through or waits for the thread. -/
theorem handler_goes_on (h : Replying payload s) :
    s.phase ∈ [.answered, .apologised, .lost]
      ∨ s.phase = .watching ∧ s.queue = [] ∧ s.task = none
      ∨ ∃ action ∈ handlerActions, (onTextStep payload s action).isSome = true := by
  obtain ⟨taken, waiting, -, hqueue, hsaid⟩ := h.queue
  unfold Said at hsaid
  cases hphase : s.phase with
  | opening =>
      refine Or.inr (Or.inr ⟨.opens true, by simp [handlerActions], ?_⟩)
      unfold onTextStep
      dsimp only
      rw [if_pos hphase]
      split <;> rfl
  | watching =>
      cases waiting with
      | cons report waiting =>
          refine Or.inr (Or.inr ⟨.takes true, by simp [handlerActions], ?_⟩)
          unfold onTextStep
          dsimp only
          rw [if_pos hphase, hqueue, List.map_cons]
          dsimp only
          rw [wecomProgressMessage_streamed]
          cases report.progress with
          | none => rfl
          | some message =>
              dsimp only
              split <;> rfl
      | nil =>
          have hempty : s.queue = [] := hqueue
          by_cases htask : s.task = none
          · exact Or.inr (Or.inl ⟨rfl, hempty, htask⟩)
          · refine Or.inr (Or.inr ⟨.leaves, by simp [handlerActions], ?_⟩)
            unfold onTextStep
            dsimp only
            rw [if_pos ⟨hphase, hempty⟩]
            split
            · contradiction
            · rfl
            · rename_i response _
              obtain ⟨chunks, hchunks, -⟩ := answerChunks_spec response
              rw [hchunks]
              rfl
  | answering rest =>
      rw [hphase] at hsaid
      refine Or.inr (Or.inr ⟨.answers true, by simp [handlerActions], ?_⟩)
      unfold onTextStep
      dsimp only
      rw [hphase]
      obtain ⟨chunk, more, rfl⟩ := List.exists_cons_of_ne_nil hsaid.2.1
      cases more <;> rfl
  | apologising =>
      refine Or.inr (Or.inr ⟨.apologises true, by simp [handlerActions], ?_⟩)
      unfold onTextStep
      dsimp only
      rw [if_pos hphase]
      rfl
  | answered => exact Or.inl (by simp)
  | apologised => exact Or.inl (by simp)
  | lost => exact Or.inl (by simp)

/-- However the replies to a message, their failures and the reports of its turn fall together:
what was sent is the opening, then each progress message that is news, in the order of the reports,
then the answer in chunks that make it up, as far as it came. Only the last reply ends the stream:
the last chunk of the whole answer, or the apology after a failure, and nothing follows it. The
handler never waits but for the turn. -/
theorem wecom_replies {actions : List OnTextAction}
    (hrun : Runs.run (onTextStep payload) {} actions = some s) :
    (match s.phase with
      | .answered => ∃ response chunks, s.task = some (some response)
          ∧ s.sent = progressReplies s.reports ++ answerReplies chunks
          ∧ String.join chunks = answerText response ∧ ∀ chunk ∈ chunks, chunk.length ≤ 700
      | .apologised => ∃ before, s.sent = before ++ [(apologyReply, true)]
          ∧ before <+: script s ∧ ∀ reply ∈ before, reply.2 = false
      | _ => s.sent <+: script s ∧ ∀ reply ∈ s.sent, reply.2 = false)
      ∧ (s.phase ∈ [.answered, .apologised, .lost]
        ∨ s.phase = .watching ∧ s.queue = [] ∧ s.task = none
        ∨ ∃ action ∈ handlerActions, (onTextStep payload s action).isSome = true) := by
  have hreplying := replying_run hrun
  refine ⟨?_, handler_goes_on hreplying⟩
  obtain ⟨taken, waiting, hreports, -, hsaid⟩ := hreplying.queue
  unfold Said at hsaid
  cases hphase : s.phase with
  | opening =>
      rw [hphase] at hsaid
      dsimp only at hsaid ⊢
      rw [hsaid.1]
      exact ⟨List.nil_prefix, nofun⟩
  | watching =>
      rw [hphase] at hsaid
      dsimp only at hsaid ⊢
      rw [hsaid.1]
      exact unfinished_taken hreports
  | answering rest =>
      rw [hphase] at hsaid
      obtain ⟨rfl, hrest, response, before, htask, hchunks, hsent⟩ := hsaid
      dsimp only
      rw [hsent]
      exact unfinished_answering hrest htask hchunks
  | answered =>
      rw [hphase] at hsaid
      obtain ⟨response, chunks, htask, hchunks, hsent⟩ := hsaid
      obtain ⟨chunks', hsome, hjoin, hbound⟩ := answerChunks_spec response
      obtain rfl := Option.some.inj (hchunks.symm.trans hsome)
      exact ⟨response, chunks, htask, hsent, hjoin, hbound⟩
  | apologising | lost | apologised =>
      rw [hphase] at hsaid
      exact hsaid

end Run

/-! A question of a WeCom user: one node reports twice, and the answer is short. -/

def thinking : NodeReport where
  message := "模型思考..."
  kind := "node_start"
  event := [("event", .str "node_start"), ("node", .str "ThinkNode")]
  traceId := .str "t1"
  createdAt := "1.0"
  event_kind := rfl
  kind_ne := by decide

def questionActions : List OnTextAction :=
  [.opens true, .reports thinking, .takes true, .reports thinking, .ends (some annRun.result),
    .takes true, .leaves, .answers true]

/-- The stream of replies ends with the answer. -/
theorem wecom_replies_question :
    ∃ s, Runs.run (onTextStep sampleQuestion) {} questionActions = some s
      ∧ ∃ response chunks, s.task = some (some response)
        ∧ s.sent = progressReplies s.reports ++ answerReplies chunks
        ∧ String.join chunks = answerText response ∧ ∀ chunk ∈ chunks, chunk.length ≤ 700 := by
  have hended : (Runs.run (onTextStep sampleQuestion) {} questionActions).map OnText.phase
      = some .answered := by
    decide +kernel
  obtain ⟨s, hrun, hphase⟩ := Option.map_eq_some_iff.mp hended
  have hreplies := (wecom_replies hrun).1
  rw [hphase] at hreplies
  exact ⟨s, hrun, hreplies⟩

end WecomReplies

end Aegora
