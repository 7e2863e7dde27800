import Aegora.ChatPage
import Aegora.EventStream
import Aegora.JsonRoundTrip

/-!
# Answers as event streams

`POST /v1/chat/stream` runs a turn in a thread of its own. The thread puts what the nodes of the
run report into a queue, then the answer once it is saved, an error where the turn raises, and at
last the end; the response takes from the queue and writes frames. The two go on in any order,
turns of others are saved in between, and the client may leave at any time
(`chat_stream_read`).
-/

namespace Aegora

open Py

namespace ChatStream

open ChatPage WecomFeedback

/-! ## Events -/

/-- `normalize_stream_event`, with the message that `event_to_message` makes of the event. -/
def normalizeStreamEvent (message : String) (event : Dict) (traceId : Json)
    (sessionId userId createdAt : String) : Dict :=
  [("type", .str ((Dict.get event "event").orElse (.str "event")).pyStr),
    ("node", Dict.get event "node"), ("trace_id", traceId), ("session_id", .str sessionId),
    ("user_id", .str userId), ("message", .str message), ("payload", .obj event),
    ("created_at", .float createdAt)]

/-- `answer`; what a run answers is a text. -/
def answerOf (run : AgentRun) : String :=
  ((Dict.get run.result "answer").orElse (.str "未生成回答")).pyStr

/-- What `emit_final_stream_event` tells of a run. -/
def finalEvent (run : AgentRun) (assistantMessageId : String) : Dict :=
  [("event", .str "final_answer"), ("route", Dict.get run.result "route"),
    ("status", Dict.get run.result "status"),
    ("assistant_message_id", .str assistantMessageId),
    ("answer_preview", .str (String.ofList ((answerOf run).toList.take 200))),
    ("latency_ms", Dict.get run.result "total_latency_ms")]

/-- `emit_final_stream_event`. -/
def emitFinalStreamEvent (run : AgentRun) (sessionId assistantMessageId createdAt : String) :
    Dict :=
  normalizeStreamEvent "最终回答已生成。" (finalEvent run assistantMessageId)
    (Dict.get run.result "trace_id") sessionId (deriveUserIdFromSession sessionId) createdAt

/-- The event that `worker` puts when the turn raises. -/
def errorEvent (sessionId errorType error : String) : Dict :=
  [("type", .str "error"), ("message", .str "agent turn failed"),
    ("payload", .obj [("event", .str "error"), ("error_type", .str errorType),
      ("error", .str error)]),
    ("session_id", .str sessionId)]

/-! ## Frames -/

mutual

/-- Floats are written as one line. -/
def FloatsInline : Json → Prop
  | .null | .bool _ | .int _ | .str _ => True
  | .float repr => EventStream.OneLine repr.toList
  | .arr items => ItemsInline items
  | .obj entries => EntriesInline entries

def ItemsInline : List Json → Prop
  | [] => True
  | item :: items => FloatsInline item ∧ ItemsInline items

def EntriesInline : List (String × Json) → Prop
  | [] => True
  | (_, value) :: entries => FloatsInline value ∧ EntriesInline entries

end

/-- `"data: " + json.dumps(event, ensure_ascii=False, default=str) + "\n\n"`. -/
def eventFrame (event : Dict) : List Char :=
  EventStream.dataFrame (Json.obj event).text.toList

def doneFrame : List Char :=
  EventStream.namedFrame "done".toList [Char.ofNat 123, Char.ofNat 125]

/-! ## The stream -/

/-- `payload`, with its session normalized, and what `handle_chat_turn` makes of it. -/
structure StreamCall where
  message : String
  payloadSession : String
  metadata : Dict

namespace StreamCall

variable (call : StreamCall)

def session : String := normalizeSessionId call.payloadSession

/-- The turn that `handle_chat_turn` saves. -/
def turn (run : AgentRun) : SavedTurn where
  sessionId := call.session
  userId := deriveUserIdFromSession call.session
  userMessage := strip call.message
  assistantMessage := .str (answerOf run)
  result := run.result
  source := "api_stream"
  requestMetadata := call.metadata
  retrievedFaqIds := run.retrievedFaqIds
  injectedSkillIds := run.injectedSkillIds
  latencyMs := run.latencyMs
  instanceId := run.instanceId

end StreamCall

/-- How far `worker` is. -/
inductive WorkerPhase where
  | running
  | answered
  | failed
  | ended
deriving DecidableEq

/-- The response: it writes frames until the end of the queue or until the client leaves. -/
inductive Generator where
  | writing
  | finished
  | left
deriving DecidableEq

structure StreamSystem where
  messages : List Dict
  phase : WorkerPhase := .running
  /-- what the nodes reported -/
  nodes : List Dict := []
  final : Option Dict := none
  error : Option Dict := none
  queue : List (Option Dict) := []
  frames : List (List Char) := []
  generator : Generator := .writing

/-- All that was put into the queue, up to its end. -/
def StreamSystem.put (s : StreamSystem) : List Dict := s.nodes ++ s.final.toList ++ s.error.toList

inductive StreamAction where
  /-- a node reports -/
  | node (message : String) (event : Dict) (traceId : Json) (createdAt : String)
  /-- the turn is saved and its answer told -/
  | answered (run : AgentRun) (createdAt : String)
  /-- `save_chat_turn` raises after some of its writes -/
  | unsaved (run : AgentRun) (written : Nat) (errorType error : String)
  /-- anything else of the turn raises -/
  | raised (errorType error : String)
  /-- `events.put(None)` -/
  | ended
  /-- the response takes from the queue -/
  | next
  | leave
  /-- a turn of another request -/
  | other (turn : SavedTurn)

section Step

variable (call : StreamCall) (s : StreamSystem)

def streamStep : StreamAction → Option StreamSystem
  | .node message event traceId createdAt =>
      let event := normalizeStreamEvent message event traceId call.session
        (deriveUserIdFromSession call.session) createdAt
      if s.phase = .running ∧ strip call.message ≠ "" then
        some { s with nodes := s.nodes ++ [event], queue := s.queue ++ [some event] }
      else none
  | .answered run createdAt =>
      let turn := call.turn run
      if s.phase = .running ∧ strip call.message ≠ "" ∧ FreshTurn s.messages turn then
        let event := emitFinalStreamEvent run call.session (turn.key .assistant) createdAt
        some { s with
          phase := .answered
          messages := saveChatTurn s.messages turn
          final := some event
          queue := s.queue ++ [some event] }
      else none
  | .unsaved run written errorType error =>
      let turn := call.turn run
      if s.phase = .running ∧ strip call.message ≠ "" ∧ FreshTurn s.messages turn then
        let event := errorEvent call.session errorType error
        some { s with
          phase := .failed
          messages := (turn.rows.take written).foldl upsertMessage s.messages
          error := some event
          queue := s.queue ++ [some event] }
      else none
  | .raised errorType error =>
      if s.phase = .running ∨ s.phase = .answered then
        let event := errorEvent call.session errorType error
        some { s with phase := .failed, error := some event, queue := s.queue ++ [some event] }
      else none
  | .ended =>
      if s.phase = .answered ∨ s.phase = .failed then
        some { s with phase := .ended, queue := s.queue ++ [none] }
      else none
  | .next =>
      if s.generator = .writing then
        match s.queue with
        | [] => none
        | some event :: queue =>
            some { s with queue := queue, frames := s.frames ++ [eventFrame event] }
        | none :: queue => some { s with
            queue := queue
            frames := s.frames ++ [doneFrame]
            generator := .finished }
      else none
  | .leave =>
      if s.generator = .writing then some { s with generator := .left } else none
  | .other turn =>
      if FreshTurn s.messages turn then
        some { s with messages := saveChatTurn s.messages turn }
      else none

end Step

/-! ## A frame is read as it was written -/

open EventStream (OneLine)

theorem oneLine_jsonChar (c : Char) : OneLine (jsonChar c) := by
  have hhex : ∀ m < 16, Nat.digitChar m ≠ '\n' ∧ Nat.digitChar m ≠ EventStream.carriageReturn := by
    decide
  have hdigit : ∀ n, hexDigit n ≠ '\n' ∧ hexDigit n ≠ EventStream.carriageReturn := fun n =>
    hhex (n % 16) (Nat.mod_lt n (by decide))
  unfold jsonChar
  split
  · rename_i hc
    rw [Bool.or_eq_true, decide_eq_true_iff, decide_eq_true_iff] at hc
    rcases hc with rfl | rfl <;> decide
  split
  · decide
  split
  · decide
  split
  · decide
  split
  · decide
  split
  · decide
  split
  · have hstart : OneLine [backslash, 'u', '0', '0'] := by decide
    refine hstart.append (b := [hexDigit (c.toNat / 16), hexDigit c.toNat]) fun d hd => ?_
    rcases List.mem_pair.mp hd with rfl | rfl <;> exact hdigit _
  · rename_i hlf _ hcr hlarge
    intro d hd
    rw [List.mem_singleton.mp hd]
    constructor
    · rintro rfl
      exact hlf rfl
    · rintro rfl
      exact hcr rfl

theorem oneLine_jsonString (s : String) : OneLine (jsonString s).toList := by
  have hquote : OneLine [doubleQuote] := by decide
  unfold jsonString
  rw [String.toList_ofList]
  refine (hquote.append (fun c hc => ?_)).append hquote
  obtain ⟨d, -, hd⟩ := List.mem_flatMap.mp hc
  exact oneLine_jsonChar d c hd

theorem oneLine_intercalate {sep : String} {parts : List String} (hsep : OneLine sep.toList)
    (hparts : ∀ part ∈ parts, OneLine part.toList) : OneLine (sep.intercalate parts).toList := by
  rw [String.toList_intercalate]
  induction parts with
  | nil => exact fun c hc => absurd hc List.not_mem_nil
  | cons part rest ih =>
      have hpart := hparts part List.mem_cons_self
      have hrest := ih fun other hother => hparts other (List.mem_cons_of_mem part hother)
      cases rest with
      | nil => simpa using hpart
      | cons next rest =>
          rw [List.map_cons, List.map_cons, List.intercalate_cons_cons, ← List.map_cons]
          exact (hpart.append hsep).append hrest

theorem oneLine_toString (n : Int) : OneLine (toString n).toList := by
  have hminus : OneLine (if n < 0 then ['-'] else []) := by split <;> decide
  rw [toList_toString]
  refine hminus.append fun c hc => ?_
  have hdigit : c.isDigit = true := Nat.isDigit_of_mem_toDigits (by decide) (by decide) hc
  constructor
  · rintro rfl
    exact absurd hdigit (by decide)
  · rintro rfl
    exact absurd hdigit (by decide)

theorem oneLine_jsonFloat {repr : String} (h : OneLine repr.toList) :
    OneLine (jsonFloat repr).toList := by
  unfold jsonFloat
  split
  · decide
  split
  · decide
  split
  · decide
  · exact h

mutual

theorem oneLine_text : ∀ {x : Json}, FloatsInline x → OneLine x.text.toList
  | .null, _ => by decide
  | .bool true, _ => by decide
  | .bool false, _ => by decide
  | .int n, _ => oneLine_toString n
  | .float _, h => oneLine_jsonFloat h
  | .str s, _ => oneLine_jsonString s
  | .arr items, h => by
      have hopen : OneLine "[".toList := by decide
      have hclose : OneLine "]".toList := by decide
      rw [Json.text, String.toList_append, String.toList_append]
      exact (hopen.append (oneLine_intercalate (by decide) (oneLine_textItems h))).append hclose
  | .obj entries, h => by
      have hopen : OneLine "\x7b".toList := by decide
      have hclose : OneLine "\x7d".toList := by decide
      rw [Json.text, String.toList_append, String.toList_append]
      exact (hopen.append (oneLine_intercalate (by decide) (oneLine_textEntries h))).append hclose

theorem oneLine_textItems : ∀ {items : List Json}, ItemsInline items →
    ∀ part ∈ Json.textItems items, OneLine part.toList
  | [], _ => fun _ h => absurd h List.not_mem_nil
  | item :: items, h => by
      intro part hpart
      rcases List.mem_cons.mp hpart with rfl | hrest
      · exact oneLine_text h.1
      · exact oneLine_textItems h.2 part hrest

theorem oneLine_textEntries : ∀ {entries : List (String × Json)}, EntriesInline entries →
    ∀ part ∈ Json.textEntries entries, OneLine part.toList
  | [], _ => fun _ h => absurd h List.not_mem_nil
  | (key, value) :: entries, h => by
      have hcolon : OneLine ": ".toList := by decide
      intro part hpart
      rcases List.mem_cons.mp hpart with rfl | hrest
      · rw [String.toList_append, String.toList_append]
        exact ((oneLine_jsonString key).append hcolon).append (oneLine_text h.1)
      · exact oneLine_textEntries h.2 part hrest

end

/-- An event as the client reads it. -/
def messageEvent (event : Dict) : EventStream.Event :=
  ⟨"message".toList, (Json.obj event).text.toList⟩

def doneEvent : EventStream.Event := ⟨"done".toList, [Char.ofNat 123, Char.ofNat 125]⟩

/-- What is taken from the queue, as a frame and as it is read. -/
def frameOf : Option Dict → List Char
  | some event => eventFrame event
  | none => doneFrame

def readAs : Option Dict → EventStream.Event
  | some event => messageEvent event
  | none => doneEvent

theorem events_frames {items : List (Option Dict)}
    (hinline : ∀ event, some event ∈ items → FloatsInline (.obj event)) :
    EventStream.events (items.map frameOf).flatten = items.map readAs := by
  have hread : ∀ before, EventStream.Reader.read { events := before } (items.map frameOf).flatten
      = { events := before ++ items.map readAs } := by
    induction items with
    | nil =>
        intro before
        rw [List.map_nil, List.map_nil, List.append_nil]
        rfl
    | cons item items ih =>
        intro before
        have hframe : EventStream.Reader.read { events := before } (frameOf item)
            = { events := before ++ [readAs item] } := by
          cases item with
          | some event =>
              exact EventStream.read_dataFrame ⟨rfl, rfl, rfl, rfl⟩
                (oneLine_text (hinline event List.mem_cons_self))
          | none =>
              exact EventStream.read_namedFrame ⟨rfl, rfl, rfl, rfl⟩ (by decide) (by decide)
                (by decide)
        rw [List.map_cons, List.flatten_cons, EventStream.read_append, hframe,
          ih (fun event hevent => hinline event (List.mem_cons_of_mem item hevent)),
          List.append_assoc]
        rfl
  unfold EventStream.events
  rw [hread []]
  rfl

/-! ## The queue -/

/-- All that the queue was given. -/
def StreamSystem.script (s : StreamSystem) : List (Option Dict) :=
  s.put.map some ++ if s.phase = .ended then [none] else []

/-- What was taken was written, and the rest waits. -/
structure Written (script queue : List (Option Dict)) (frames : List (List Char))
    (generator : Generator) (taken : List (Option Dict)) : Prop where
  split : script = taken ++ queue
  frames : frames = taken.map frameOf
  writing : generator = .writing → none ∉ taken

/-- A stored answer that an event tells of. -/
def TellsOf (call : StreamCall) (messages : List Dict) (event : Dict) : Prop :=
  ∃ run createdAt row,
    event = emitFinalStreamEvent run call.session ((call.turn run).key .assistant) createdAt
      ∧ AnswerRow messages call.session ((call.turn run).key .assistant) (.str (answerOf run)) row

/-- What the thread has put, by how far it is. -/
def Told (s : StreamSystem) : Prop :=
  match s.phase with
  | .running => s.final = none ∧ s.error = none
  | .answered => s.final.isSome = true ∧ s.error = none
  | .failed => s.error.isSome = true
  | .ended => s.final.isSome = true ∨ s.error.isSome = true

structure Streamed (call : StreamCall) (s : StreamSystem) : Prop where
  keyed : Keyed s.messages
  told : Told s
  final : ∀ event, s.final = some event → TellsOf call s.messages event
  session : ∀ event ∈ s.put, Dict.get event "session_id" = .str call.session
  written : ∃ taken, Written s.script s.queue s.frames s.generator taken

section Run

variable {call : StreamCall} {s t : StreamSystem} {action : StreamAction}

theorem TellsOf.mono {messages messages' : List Dict} {event : Dict}
    (h : TellsOf call messages event) (hsub : messages ⊆ messages') :
    TellsOf call messages' event := by
  obtain ⟨run, createdAt, row, hevent, hrow⟩ := h
  exact ⟨run, createdAt, row, hevent, hrow.mono hsub⟩

theorem Told.running (h : Told s) (hphase : s.phase = .running) :
    s.final = none ∧ s.error = none := by
  unfold Told at h
  rwa [hphase] at h

theorem Told.answered (h : Told s) (hphase : s.phase = .answered) :
    s.final.isSome = true ∧ s.error = none := by
  unfold Told at h
  rwa [hphase] at h

/-- More is put at the end of the queue. -/
theorem Written.more {script queue added : List (Option Dict)} {frames : List (List Char)}
    {generator : Generator} {taken : List (Option Dict)}
    (h : Written script queue frames generator taken) :
    Written (script ++ added) (queue ++ added) frames generator taken :=
  { h with split := by rw [h.split, List.append_assoc] }

/-- The answer of a saved turn. -/
theorem answerRow_turn (run : AgentRun) (messages : List Dict) :
    AnswerRow (messages ++ (call.turn run).rows) call.session ((call.turn run).key .assistant)
      (.str (answerOf run)) (call.turn run).assistantRow where
  mem := List.mem_append_right _ (List.mem_cons_of_mem _ List.mem_cons_self)
  named := rfl
  nonempty := (call.turn run).key_ne_empty .assistant
  session := by
    have hsession : Dict.get (call.turn run).assistantRow "session_id"
        = .str (normalizeSessionId call.session) := rfl
    unfold ContextViews.ofSession
    rw [hsession, decide_eq_true rfl]
  role := rfl
  text := rfl

/-- An event put while nothing after it can have been. -/
theorem script_put {s t : StreamSystem} {event : Dict} (hs : s.phase ≠ .ended)
    (ht : t.phase ≠ .ended) (hput : t.put = s.put ++ [event]) :
    t.script = s.script ++ [some event] := by
  unfold StreamSystem.script
  rw [if_neg hs, if_neg ht, hput, List.map_append, List.append_nil, List.append_nil]
  rfl

/-- One more event, whatever is saved with it. -/
theorem Streamed.put {messages : List Dict} {event : Dict} (h : Streamed call s)
    (hsub : s.messages ⊆ messages) (hkeyed : Keyed messages) (hs : s.phase ≠ .ended)
    (ht : t.phase ≠ .ended) (hput : t.put = s.put ++ [event])
    (hsession : Dict.get event "session_id" = .str call.session) (hmessages : t.messages = messages)
    (hqueue : t.queue = s.queue ++ [some event]) (hframes : t.frames = s.frames)
    (hgenerator : t.generator = s.generator) (htold : Told t)
    (hfinal : ∀ event, t.final = some event → s.final = some event
      ∨ TellsOf call messages event) : Streamed call t where
  keyed := hmessages ▸ hkeyed
  told := htold
  final := by
    intro event hevent
    rw [hmessages]
    rcases hfinal event hevent with hold | hnew
    · exact (h.final event hold).mono hsub
    · exact hnew
  session := by
    intro other hother
    rw [hput] at hother
    rcases List.mem_append.mp hother with hold | hnew
    · exact h.session other hold
    · rw [List.mem_singleton.mp hnew, hsession]
  written := by
    obtain ⟨taken, hwritten⟩ := h.written
    refine ⟨taken, ?_⟩
    rw [script_put hs ht hput, hqueue, hframes, hgenerator]
    exact hwritten.more

/-- An error put last, while there is none. -/
theorem put_error (h : s.error = none) (event : Dict) :
    s.nodes ++ s.final.toList ++ (some event).toList = s.put ++ [event] := by
  unfold StreamSystem.put
  rw [h]
  simp

/-- A node reports. -/
theorem streamed_node {message createdAt : String} {event : Dict} {traceId : Json}
    (h : Streamed call s)
    (hstep : streamStep call s (.node message event traceId createdAt) = some t) :
    Streamed call t := by
  unfold streamStep at hstep
  dsimp only at hstep
  split at hstep
  · rename_i hguard
    obtain rfl := Option.some.inj hstep
    have htold := h.told.running hguard.1
    have hput : ∀ event, s.nodes ++ [event] ++ s.final.toList ++ s.error.toList
        = s.put ++ [event] := by
      intro event
      unfold StreamSystem.put
      rw [htold.1, htold.2]
      simp
    exact h.put (List.Subset.refl _) h.keyed (by simp [hguard.1]) (by simp [hguard.1]) (hput _)
      rfl rfl rfl rfl rfl h.told fun event hevent => Or.inl hevent
  · cases hstep

/-- The answer is told after it was stored. -/
theorem streamed_answered {run : AgentRun} {createdAt : String} (h : Streamed call s)
    (hstep : streamStep call s (.answered run createdAt) = some t) : Streamed call t := by
  unfold streamStep at hstep
  dsimp only at hstep
  split at hstep
  · rename_i hguard
    obtain rfl := Option.some.inj hstep
    have htold := h.told.running hguard.1
    obtain ⟨hsaved, hkeyed⟩ := saved_fresh h.keyed hguard.2.2 (List.Sublist.refl _)
    change saveChatTurn _ _ = _ at hsaved
    have hput : ∀ event, s.nodes ++ (some event).toList ++ s.error.toList
        = s.put ++ [event] := by
      intro event
      unfold StreamSystem.put
      rw [htold.1, htold.2]
      simp
    refine h.put (List.subset_append_left _ _) hkeyed (by simp [hguard.1]) (by simp) (hput _)
      rfl hsaved rfl rfl rfl ⟨rfl, htold.2⟩ fun event hevent => ?_
    obtain rfl := Option.some.inj hevent
    exact Or.inr ⟨run, createdAt, _, rfl, answerRow_turn run s.messages⟩
  · cases hstep

/-- The writes before the failure stay. -/
theorem streamed_unsaved {run : AgentRun} {written : Nat} {errorType error : String}
    (h : Streamed call s)
    (hstep : streamStep call s (.unsaved run written errorType error) = some t) :
    Streamed call t := by
  unfold streamStep at hstep
  dsimp only at hstep
  split at hstep
  · rename_i hguard
    obtain rfl := Option.some.inj hstep
    have htold := h.told.running hguard.1
    obtain ⟨hsaved, hkeyed⟩ := saved_fresh h.keyed hguard.2.2 (List.take_sublist written _)
    exact h.put (List.subset_append_left _ _) hkeyed (by simp [hguard.1]) (by simp)
      (put_error htold.2 _) rfl hsaved rfl rfl rfl rfl fun event hevent => Or.inl hevent
  · cases hstep

theorem streamed_raised {errorType error : String} (h : Streamed call s)
    (hstep : streamStep call s (.raised errorType error) = some t) : Streamed call t := by
  unfold streamStep at hstep
  dsimp only at hstep
  split at hstep
  · rename_i hguard
    obtain rfl := Option.some.inj hstep
    have hnone : s.error = none := by
      rcases hguard with hphase | hphase
      · exact (h.told.running hphase).2
      · exact (h.told.answered hphase).2
    have hopen : s.phase ≠ .ended := by
      rcases hguard with hphase | hphase <;> simp [hphase]
    exact h.put (List.Subset.refl _) h.keyed hopen (by simp) (put_error hnone _) rfl rfl rfl rfl
      rfl rfl fun event hevent => Or.inl hevent
  · cases hstep

/-- The end goes after the answer or after the error. -/
theorem streamed_ended (h : Streamed call s) (hstep : streamStep call s .ended = some t) :
    Streamed call t := by
  unfold streamStep at hstep
  dsimp only at hstep
  split at hstep
  · rename_i hguard
    obtain rfl := Option.some.inj hstep
    have hopen : s.phase ≠ .ended := by
      rcases hguard with hphase | hphase <;> simp [hphase]
    obtain ⟨taken, hwritten⟩ := h.written
    have hscript : s.script = s.put.map some := by
      unfold StreamSystem.script
      rw [if_neg hopen, List.append_nil]
    rw [hscript] at hwritten
    refine ⟨h.keyed, ?_, h.final, h.session, taken, hwritten.more⟩
    rcases hguard with hphase | hphase
    · exact Or.inl (h.told.answered hphase).1
    · have htold := h.told
      unfold Told at htold
      rw [hphase] at htold
      exact Or.inr htold
  · cases hstep

/-- What the response takes, it writes. -/
theorem streamed_next (h : Streamed call s) (hstep : streamStep call s .next = some t) :
    Streamed call t := by
  unfold streamStep at hstep
  dsimp only at hstep
  split at hstep
  · rename_i hwriting
    obtain ⟨taken, hwritten⟩ := h.written
    cases hqueue : s.queue with
    | nil =>
        rw [hqueue] at hstep
        cases hstep
    | cons item queue =>
        have hsplit : s.script = taken ++ [item] ++ queue := by
          rw [hwritten.split, hqueue, List.append_cons]
        have hframes : ∀ frame, frameOf item = frame →
            s.frames ++ [frame] = (taken ++ [item]).map frameOf := by
          rintro _ rfl
          rw [hwritten.frames, List.map_append]
          rfl
        rw [hqueue] at hstep
        cases item with
        | some event =>
            obtain rfl := Option.some.inj hstep
            refine ⟨h.keyed, h.told, h.final, h.session, taken ++ [some event], hsplit,
              hframes _ rfl, fun _ hmem => ?_⟩
            rcases List.mem_append.mp hmem with hold | hnew
            · exact hwritten.writing hwriting hold
            · cases List.mem_singleton.mp hnew
        | none =>
            obtain rfl := Option.some.inj hstep
            exact ⟨h.keyed, h.told, h.final, h.session, taken ++ [none], hsplit,
              hframes _ rfl, nofun⟩
  · cases hstep

theorem streamed_leave (h : Streamed call s) (hstep : streamStep call s .leave = some t) :
    Streamed call t := by
  unfold streamStep at hstep
  dsimp only at hstep
  split at hstep
  · obtain rfl := Option.some.inj hstep
    obtain ⟨taken, hwritten⟩ := h.written
    exact ⟨h.keyed, h.told, h.final, h.session, taken,
      { hwritten with writing := nofun }⟩
  · cases hstep

/-- Another turn adds messages; those that were told of stay. -/
theorem streamed_other {turn : SavedTurn} (h : Streamed call s)
    (hstep : streamStep call s (.other turn) = some t) : Streamed call t := by
  unfold streamStep at hstep
  dsimp only at hstep
  split at hstep
  · rename_i hfresh
    obtain rfl := Option.some.inj hstep
    obtain ⟨hsaved, hkeyed⟩ := saved_fresh h.keyed hfresh (List.Sublist.refl _)
    change saveChatTurn _ _ = _ at hsaved
    refine ⟨hsaved ▸ hkeyed, h.told, fun event hevent => ?_, h.session, h.written⟩
    rw [hsaved]
    exact (h.final event hevent).mono (List.subset_append_left _ _)
  · cases hstep

/-- Whatever the thread, the response, the client or another turn does next. -/
theorem streamed_step (h : Streamed call s) (hstep : streamStep call s action = some t) :
    Streamed call t := by
  cases action with
  | node _ _ _ _ => exact streamed_node h hstep
  | answered _ _ => exact streamed_answered h hstep
  | unsaved _ _ _ _ => exact streamed_unsaved h hstep
  | raised _ _ => exact streamed_raised h hstep
  | ended => exact streamed_ended h hstep
  | next => exact streamed_next h hstep
  | leave => exact streamed_leave h hstep
  | other _ => exact streamed_other h hstep

theorem streamed_run {messages : List Dict} {actions : List StreamAction}
    (hkeyed : Keyed messages)
    (hrun : Runs.run (streamStep call) { messages := messages } actions = some s) :
    Streamed call s := by
  refine Runs.run_invariant' (fun _ _ _ hs hstep => streamed_step hs hstep) ?_ hrun
  exact ⟨hkeyed, ⟨rfl, rfl⟩, nofun, nofun, [], rfl, rfl, fun _ => List.not_mem_nil⟩

/-- As long as the client stays, the queue is written to its end. -/
theorem run_next {waiting : List Dict} (hwriting : s.generator = .writing)
    (hqueue : s.queue = waiting.map some ++ [none]) :
    ∃ t, Runs.run (streamStep call) s (List.replicate s.queue.length .next) = some t
      ∧ t.frames = s.frames ++ s.queue.map frameOf := by
  rw [hqueue]
  induction waiting generalizing s with
  | nil =>
      refine ⟨{ s with queue := [], frames := s.frames ++ [doneFrame], generator := .finished },
        ?_, rfl⟩
      have hnext : streamStep call s .next = some { s with
          queue := []
          frames := s.frames ++ [doneFrame]
          generator := .finished } := by
        unfold streamStep
        dsimp only
        rw [if_pos hwriting, hqueue]
        rfl
      exact Runs.run_cons_eq.mpr ⟨_, hnext, rfl⟩
  | cons event waiting ih =>
      have hnext : streamStep call s .next = some { s with
          queue := waiting.map some ++ [none]
          frames := s.frames ++ [eventFrame event] } := by
        unfold streamStep
        dsimp only
        rw [if_pos hwriting, hqueue]
        rfl
      obtain ⟨t, hrun, hframes⟩ := ih (s := { s with
        queue := waiting.map some ++ [none]
        frames := s.frames ++ [eventFrame event] }) hwriting rfl
      refine ⟨t, Runs.run_cons_eq.mpr ⟨_, hnext, hrun⟩, ?_⟩
      rw [hframes, List.append_assoc]
      rfl

/-- While the end was not taken, it is what waits last. -/
theorem rest_of_script {events : List Dict} {taken queue : List (Option Dict)}
    (h : events.map some ++ [none] = taken ++ queue) (hnone : none ∉ taken) :
    ∃ waiting : List Dict, queue = waiting.map some ++ [none] := by
  rcases List.eq_nil_or_concat queue with rfl | ⟨front, last, rfl⟩
  · rw [List.append_nil] at h
    exact absurd (h ▸ List.mem_append_right _ List.mem_cons_self) hnone
  · rw [List.concat_eq_append, ← List.append_assoc] at h
    obtain ⟨hevents, hlast⟩ := List.append_inj' h rfl
    obtain ⟨-, waiting, -, -, hwaiting⟩ := List.map_eq_append_iff.mp hevents
    refine ⟨waiting, ?_⟩
    rw [List.concat_eq_append, hwaiting, hlast]

theorem Streamed.inline (hinline : ∀ event ∈ s.put, FloatsInline (.obj event))
    {items : List (Option Dict)} (hitems : items <+: s.script) :
    ∀ event, some event ∈ items → FloatsInline (.obj event) := by
  intro event hevent
  rcases List.mem_append.mp (hitems.subset hevent) with hput | hend
  · obtain ⟨other, hother, heq⟩ := List.mem_map.mp hput
    exact Option.some.inj heq ▸ hinline other hother
  · split at hend
    · cases List.mem_singleton.mp hend
    · cases hend

theorem readAs_script : s.script.map readAs
    = s.put.map messageEvent ++ if s.phase = .ended then [doneEvent] else [] := by
  unfold StreamSystem.script
  rw [List.map_append, List.map_map]
  split <;> rfl

/-- Only the end of the queue is read as the end. -/
theorem doneEvent_not_mem (events : List Dict) : doneEvent ∉ events.map messageEvent := by
  intro hmem
  obtain ⟨event, -, heq⟩ := List.mem_map.mp hmem
  have htype : "message".toList = "done".toList := congrArg EventStream.Event.type heq
  exact absurd htype (by decide)

/-- However the thread of the turn and the response alternate and whatever of the response has
arrived: the client reads the first events of the turn, in their order, and nothing else, and once
it reads the end, it has read all of them. A turn that has ended was answered or has raised. While
the client stays, the end of the turn becomes the end of the stream. An answer that is told is
stored for the session under the key that is told with it. -/
theorem chat_stream_read {messages : List Dict} {actions : List StreamAction}
    (hkeyed : Keyed messages)
    (hrun : Runs.run (streamStep call) { messages := messages } actions = some s)
    (hinline : ∀ event ∈ s.put, FloatsInline (.obj event)) :
    (∀ received, received <+: s.frames.flatten →
      EventStream.events received
          <+: s.put.map messageEvent ++ (if s.phase = .ended then [doneEvent] else [])
        ∧ (doneEvent ∈ EventStream.events received →
          EventStream.events received = s.put.map messageEvent ++ [doneEvent]
            ∧ (s.final.isSome = true ∨ s.error.isSome = true)))
      ∧ (s.phase = .ended → s.final.isSome = true ∨ s.error.isSome = true)
      ∧ (s.phase = .ended → s.generator = .writing →
        ∃ t, Runs.run (streamStep call) s (List.replicate s.queue.length .next) = some t
          ∧ EventStream.events t.frames.flatten = s.put.map messageEvent ++ [doneEvent])
      ∧ (∀ event, s.final = some event → TellsOf call s.messages event)
      ∧ ∀ event ∈ s.put, Dict.get event "session_id" = .str call.session := by
  have hstreamed := streamed_run hkeyed hrun
  obtain ⟨taken, hwritten⟩ := hstreamed.written
  have htaken : taken <+: s.script := hwritten.split ▸ List.prefix_append taken s.queue
  have hanswered : s.phase = .ended → s.final.isSome = true ∨ s.error.isSome = true := by
    intro hended
    have htold := hstreamed.told
    unfold Told at htold
    rwa [hended] at htold
  refine ⟨fun received hreceived => ?_, hanswered, fun hended hwriting => ?_, hstreamed.final,
    hstreamed.session⟩
  · have hread : EventStream.events received <+: s.script.map readAs := by
      refine (EventStream.events_prefix hreceived).trans ?_
      rw [hwritten.frames, events_frames (Streamed.inline hinline htaken)]
      exact htaken.map readAs
    rw [readAs_script] at hread
    refine ⟨hread, fun hdone => ?_⟩
    by_cases hended : s.phase = .ended
    · rw [if_pos hended] at hread
      rcases List.prefix_concat_iff.mp hread with hall | hfirst
      · exact ⟨hall, hanswered hended⟩
      · exact absurd (hfirst.subset hdone) (doneEvent_not_mem s.put)
    · rw [if_neg hended, List.append_nil] at hread
      exact absurd (hread.subset hdone) (doneEvent_not_mem s.put)
  · have hscript : s.script = s.put.map some ++ [none] := by
      unfold StreamSystem.script
      rw [if_pos hended]
    obtain ⟨waiting, hwaiting⟩ :=
      rest_of_script (hscript ▸ hwritten.split) (hwritten.writing hwriting)
    obtain ⟨t, hnext, hframes⟩ := @run_next call _ _ hwriting hwaiting
    refine ⟨t, hnext, ?_⟩
    rw [hframes, hwritten.frames, ← List.map_append, ← hwritten.split,
      events_frames (Streamed.inline hinline List.prefix_rfl), readAs_script, if_pos hended]

end Run

/-! A question is streamed to its end, while the same user asks elsewhere. -/

def hiCall : StreamCall := ⟨" hi ", " s1", []⟩

def hiStart : Dict := [("event", .str "node_start"), ("node", .str "ThinkNode")]

def hiActions : List StreamAction :=
  [.node "模型思考..." hiStart (.str "t1") "1.0", .next, .answered annRun "2.5",
    .other (sampleTurn "s1" "t0"), .ended, .next, .next]

def hiEvents : List Dict :=
  [normalizeStreamEvent "模型思考..." hiStart (.str "t1") "s1" "session-owner:s1" "1.0",
    emitFinalStreamEvent annRun "s1" "t1:assistant" "2.5"]

/-- The client reads both events and the end. -/
theorem chat_stream_read_hi :
    ∃ s, Runs.run (streamStep hiCall) { messages := [] } hiActions = some s
      ∧ EventStream.events s.frames.flatten = hiEvents.map messageEvent ++ [doneEvent] := by
  have hrun : (Runs.run (streamStep hiCall) { messages := [] } hiActions).map (fun s =>
      (s.put, decide (doneEvent ∈ EventStream.events s.frames.flatten)))
        = some (hiEvents, true) := by
    decide +kernel
  obtain ⟨s, hrun, hend⟩ := Option.map_eq_some_iff.mp hrun
  obtain ⟨hput, hdone⟩ := Prod.mk.inj hend
  have hstarted : OneLine "1.0".toList := by decide
  have hanswered : OneLine "2.5".toList := by decide
  have hinline : ∀ event ∈ s.put, FloatsInline (.obj event) := by
    rw [hput]
    intro event hevent
    rcases List.mem_pair.mp hevent with rfl | rfl
    · exact ⟨trivial, trivial, trivial, trivial, trivial, trivial, ⟨trivial, trivial, trivial⟩,
        hstarted, trivial⟩
    · exact ⟨trivial, trivial, trivial, trivial, trivial, trivial,
        ⟨trivial, trivial, trivial, trivial, trivial, trivial, trivial⟩, hanswered, trivial⟩
  have hkeyed : Keyed [] := ⟨List.nodup_nil, nofun⟩
  have hread := (chat_stream_read hkeyed hrun hinline).1 _ List.prefix_rfl
  exact ⟨s, hrun, hput ▸ (hread.2 (of_decide_eq_true hdone)).1⟩

end ChatStream

end Aegora
