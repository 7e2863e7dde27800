import Aegora.JsonService
import Mathlib.Algebra.GroupWithZero.Nat

/-!
# The usage a chat client counts

`chat_text` counts a call where its outcome is known: in each `except`
clause, and after the answer has been parsed. What follows can still fail,
and then the call is counted a second time, or its exception is of a class
that no clause names.
-/

namespace Aegora.DeepSeek

open Py

/-- An item of `by_model`. -/
structure ModelCounters where
  calls : Nat := 0
  failedCalls : Nat := 0
  promptTokens : Int := 0
  completionTokens : Int := 0
  totalTokens : Int := 0
deriving DecidableEq

/-- `_usage`. -/
structure ChatUsage where
  totalCalls : Nat := 0
  failedCalls : Nat := 0
  byModel : List (PyText × ModelCounters) := []
deriving DecidableEq

structure ChatMessage where
  role : PyText
  content : PyText

structure ChatSettings where
  chatModel : PyText
  traceMetadataEnabled : Bool

/-- A call of `chat_text`, the texts in `current_llm_metadata()`, and how its request ends. -/
structure ChatCall where
  messages : List ChatMessage
  model : Option PyText
  metadata : List PyText
  outcome : Transport

/-! ## `_record_usage` -/

/-- `by_model[model]`, or the new item. -/
def modelItem (model : PyText) : List (PyText × ModelCounters) → ModelCounters
  | [] => {}
  | (key, item) :: items => if key = model then item else modelItem model items

def setModelItem (model : PyText) (item : ModelCounters) :
    List (PyText × ModelCounters) → List (PyText × ModelCounters)
  | [] => [(model, item)]
  | (key, old) :: items =>
      if key = model then (key, item) :: items else (key, old) :: setModelItem model item items

/-- `int(usage.get(key) or 0)`. -/
def tokenCount (env : ServiceEnv) (usage : List (PyText × Loaded)) (key : String) :
    Except String Int :=
  let value := Loaded.get usage (codePoints key)
  if value.truthy then value.pyInt env.intText else .ok 0

/-- The three additions, each in its turn; the exception that ends them. -/
def addTokens (env : ServiceEnv) (usage : List (PyText × Loaded)) (item : ModelCounters) :
    ModelCounters × Option String :=
  match tokenCount env usage "prompt_tokens" with
  | .error name => (item, some name)
  | .ok prompt =>
      let item := { item with promptTokens := item.promptTokens + prompt }
      match tokenCount env usage "completion_tokens" with
      | .error name => (item, some name)
      | .ok completion =>
          let item := { item with completionTokens := item.completionTokens + completion }
          match tokenCount env usage "total_tokens" with
          | .error name => (item, some name)
          | .ok total => ({ item with totalTokens := item.totalTokens + total }, none)

/-- The part of `_record_usage` under `if usage`. -/
def addUsage (env : ServiceEnv) (usage : Loaded) (item : ModelCounters) :
    ModelCounters × Option String :=
  if usage.truthy then
    match usage with
    | .obj entries => addTokens env entries item
    | _ => (item, some "AttributeError")
  else (item, none)

def ModelCounters.count (item : ModelCounters) (failed : Bool) : ModelCounters :=
  { item with
    calls := item.calls + 1
    failedCalls := item.failedCalls + if failed then 1 else 0 }

def recordUsage (env : ServiceEnv) (model : PyText) (usage : Loaded) (failed : Bool)
    (client : ChatUsage) : ChatUsage × Option String :=
  let (item, raised) := addUsage env usage ((modelItem model client.byModel).count failed)
  ({ totalCalls := client.totalCalls + 1
     failedCalls := client.failedCalls + if failed then 1 else 0
     byModel := setModelItem model item client.byModel }, raised)

/-! ## `chat_text` -/

def modelName (settings : ChatSettings) (call : ChatCall) : PyText :=
  match call.model with
  | some model => if model.isEmpty then settings.chatModel else model
  | none => settings.chatModel

/-- The texts of the payload that are not constants of the code. -/
def payloadTexts (settings : ChatSettings) (call : ChatCall) : List PyText :=
  modelName settings call :: call.messages.flatMap (fun message => [message.role, message.content])
    ++ if settings.traceMetadataEnabled then call.metadata else []

/-- `data.get("usage") if isinstance(data, dict) else None`. -/
def usageOf : Loaded → Loaded
  | .obj entries => Loaded.get entries (codePoints "usage")
  | _ => .null

/-- `data["choices"][0]["message"]["content"]`. -/
def contentOf (data : Loaded) : Except String Loaded := do
  let choices ← data.item "choices"
  let choice ← choices.first
  let message ← choice.item "message"
  message.item "content"

/-- The classes that the second `try` catches. -/
def answerErrors : List String := ["KeyError", "IndexError", "TypeError", "JSONDecodeError"]

/-- An exception in the second `try`. -/
def unexpectedAnswer (env : ServiceEnv) (model : PyText) (body name : String)
    (client : ChatUsage) : Except ClientError Loaded × ChatUsage :=
  if name ∈ answerErrors then
    (.error (.own ("Unexpected LLM gateway response: " ++ excerpt body.toList)),
      (recordUsage env model .null true client).1)
  else (.error (.escaped name), client)

/-- The second `try`. -/
def readAnswer (env : ServiceEnv) (model : PyText) (body : String) (client : ChatUsage) :
    Except ClientError Loaded × ChatUsage :=
  match loadsFault env.floatRepr env.maxDepth body with
  | .error fault => unexpectedAnswer env model body fault.name client
  | .ok data =>
      match recordUsage env model (usageOf data) false client with
      | (client, some name) => unexpectedAnswer env model body name client
      | (client, none) =>
          match contentOf data with
          | .ok content => (.ok content, client)
          | .error name => unexpectedAnswer env model body name client

def chatText (env : ServiceEnv) (settings : ChatSettings) (call : ChatCall) (client : ChatUsage) :
    Except ClientError Loaded × ChatUsage :=
  if encodable (payloadTexts settings call) then
    match call.outcome.received "LLM gateway" with
    | .text body => readAnswer env (modelName settings call) body client
    | .failed error =>
        (.error error, (recordUsage env (modelName settings call) .null true client).1)
    | .escaped name => (.error (.escaped name), client)
  else (.error (.escaped "UnicodeEncodeError"), client)

/-- The usage after some calls. -/
def chatRun (env : ServiceEnv) (settings : ChatSettings) (calls : List ChatCall) : ChatUsage :=
  calls.foldl (fun client call => (chatText env settings call client).2) {}

/-! ## The totals are the sums of the models -/

structure Balanced (client : ChatUsage) : Prop where
  calls : client.totalCalls = (client.byModel.map fun entry => entry.2.calls).sum
  failed : client.failedCalls = (client.byModel.map fun entry => entry.2.failedCalls).sum

theorem sum_setModelItem (count : ModelCounters → Nat) (hnew : count {} = 0) (model : PyText)
    (item : ModelCounters) (items : List (PyText × ModelCounters)) :
    count (modelItem model items)
        + ((setModelItem model item items).map fun entry => count entry.2).sum
      = (items.map fun entry => count entry.2).sum + count item := by
  induction items with
  | nil => simp [modelItem, setModelItem, hnew]
  | cons entry items ih =>
      simp only [modelItem, setModelItem]
      split
      · simp only [List.map_cons, List.sum_cons]
        omega
      · simp only [List.map_cons, List.sum_cons]
        omega

theorem addTokens_counts (env : ServiceEnv) (usage : List (PyText × Loaded))
    (item : ModelCounters) :
    (addTokens env usage item).1.calls = item.calls
      ∧ (addTokens env usage item).1.failedCalls = item.failedCalls := by
  unfold addTokens
  split
  · exact ⟨rfl, rfl⟩
  · dsimp only
    split
    · exact ⟨rfl, rfl⟩
    · split <;> exact ⟨rfl, rfl⟩

/-- Adding the tokens leaves the counts of calls. -/
theorem addUsage_counts (env : ServiceEnv) (usage : Loaded) (item : ModelCounters) :
    (addUsage env usage item).1.calls = item.calls
      ∧ (addUsage env usage item).1.failedCalls = item.failedCalls := by
  unfold addUsage
  split
  · split
    · exact addTokens_counts env _ item
    · exact ⟨rfl, rfl⟩
  · exact ⟨rfl, rfl⟩

@[simp] theorem recordUsage_totalCalls (env : ServiceEnv) (model : PyText) (usage : Loaded)
    (failed : Bool) (client : ChatUsage) :
    (recordUsage env model usage failed client).1.totalCalls = client.totalCalls + 1 := rfl

@[simp] theorem recordUsage_failedCalls (env : ServiceEnv) (model : PyText) (usage : Loaded)
    (failed : Bool) (client : ChatUsage) :
    (recordUsage env model usage failed client).1.failedCalls
      = client.failedCalls + if failed then 1 else 0 := rfl

theorem balanced_recordUsage {client : ChatUsage} (h : Balanced client) (env : ServiceEnv)
    (model : PyText) (usage : Loaded) (failed : Bool) :
    Balanced (recordUsage env model usage failed client).1 := by
  have hcounts := addUsage_counts env usage ((modelItem model client.byModel).count failed)
  constructor
  · have hsum := sum_setModelItem ModelCounters.calls rfl model
      (addUsage env usage ((modelItem model client.byModel).count failed)).1 client.byModel
    rw [hcounts.1, ← h.calls] at hsum
    simp only [recordUsage, ModelCounters.count] at hsum ⊢
    omega
  · have hsum := sum_setModelItem ModelCounters.failedCalls rfl model
      (addUsage env usage ((modelItem model client.byModel).count failed)).1 client.byModel
    rw [hcounts.2, ← h.failed] at hsum
    simp only [recordUsage, ModelCounters.count] at hsum ⊢
    omega

theorem balanced_unexpectedAnswer {client : ChatUsage} (h : Balanced client) (env : ServiceEnv)
    (model : PyText) (body name : String) :
    Balanced (unexpectedAnswer env model body name client).2 := by
  unfold unexpectedAnswer
  split
  · exact balanced_recordUsage h env model .null true
  · exact h

theorem balanced_readAnswer {client : ChatUsage} (h : Balanced client) (env : ServiceEnv)
    (model : PyText) (body : String) : Balanced (readAnswer env model body client).2 := by
  unfold readAnswer
  split
  · exact balanced_unexpectedAnswer h env model body _
  · rename_i data _
    have hrecorded := balanced_recordUsage h env model (usageOf data) false
    split
    · rename_i recorded name heq
      rw [heq] at hrecorded
      exact balanced_unexpectedAnswer hrecorded env model body name
    · rename_i recorded heq
      rw [heq] at hrecorded
      split
      · exact hrecorded
      · exact balanced_unexpectedAnswer hrecorded env model body _

theorem balanced_chatText {client : ChatUsage} (h : Balanced client) (env : ServiceEnv)
    (settings : ChatSettings) (call : ChatCall) :
    Balanced (chatText env settings call client).2 := by
  unfold chatText
  split
  · split
    · exact balanced_readAnswer h env _ _
    · exact balanced_recordUsage h env _ .null true
    · exact h
  · exact h

theorem balanced_chatRun (env : ServiceEnv) (settings : ChatSettings) (calls : List ChatCall) :
    Balanced (chatRun env settings calls) := by
  unfold chatRun
  generalize hstart : ({} : ChatUsage) = client
  have h : Balanced client := hstart ▸ ⟨rfl, rfl⟩
  clear hstart
  induction calls generalizing client with
  | nil => exact h
  | cons call calls ih => exact ih _ (balanced_chatText h env settings call)

/-! ## Which calls are counted once -/

/-- What a call should do to the totals, and how it may end. -/
structure CallKept (before : ChatUsage) (outcome : Except ClientError Loaded × ChatUsage) :
    Prop where
  once : outcome.2.totalCalls = before.totalCalls + 1
  returned : ∀ content, outcome.1 = .ok content → outcome.2.failedCalls = before.failedCalls
  raised : ∀ error, outcome.1 = .error error →
    outcome.2.failedCalls = before.failedCalls + 1 ∧ ∃ message, error = .own message

/-- `if usage` and the three `int` calls raise nothing. -/
def UsageCountable (env : ServiceEnv) (usage : Loaded) : Prop :=
  usage.truthy = true → ∃ entries, usage = .obj entries
    ∧ ∀ key ∈ ["prompt_tokens", "completion_tokens", "total_tokens"],
      ∃ count, tokenCount env entries key = .ok count

/-- The body is no JSON at all, or it has all that the second `try` reads. -/
def AnswerSound (env : ServiceEnv) (body : String) : Prop :=
  match loadsFault env.floatRepr env.maxDepth body with
  | .error fault => fault = .decode
  | .ok data => UsageCountable env (usageOf data) ∧ ∃ content, contentOf data = .ok content

def OutcomeSound (env : ServiceEnv) : Transport → Prop
  | .body bytes =>
      ∃ text, Utf8.decodeStrict bytes = some text ∧ AnswerSound env (String.ofList text)
  | .httpError _ detail => ∃ bytes, detail = .ok bytes
  | .timeout _ | .incompleteRead _ | .urlError _ => True
  | .other _ => False

/-- The payload can be written, and the outcome of the request is sound. -/
def CallSound (env : ServiceEnv) (settings : ChatSettings) (call : ChatCall) : Prop :=
  encodable (payloadTexts settings call) = true ∧ OutcomeSound env call.outcome

theorem addTokens_raised_iff (env : ServiceEnv) (usage : List (PyText × Loaded))
    (item : ModelCounters) :
    (addTokens env usage item).2 = none
      ↔ ∀ key ∈ ["prompt_tokens", "completion_tokens", "total_tokens"],
        ∃ count, tokenCount env usage key = .ok count := by
  simp only [List.forall_mem_cons, List.not_mem_nil, false_imp_iff, forall_const, and_true]
  unfold addTokens
  split
  · rename_i name hprompt
    simp [hprompt]
  · rename_i prompt hprompt
    dsimp only
    split
    · rename_i name hcompletion
      simp [hcompletion]
    · rename_i completion hcompletion
      split
      · rename_i name htotal
        simp [htotal]
      · rename_i total htotal
        simp [hprompt, hcompletion, htotal]

theorem addUsage_raised_iff (env : ServiceEnv) (usage : Loaded) (item : ModelCounters) :
    (addUsage env usage item).2 = none ↔ UsageCountable env usage := by
  unfold addUsage UsageCountable
  split
  · rename_i htruthy
    simp only [htruthy, forall_const]
    split
    · rename_i entries
      rw [addTokens_raised_iff]
      simp
    · rename_i hother
      constructor
      · intro h
        cases h
      · rintro ⟨entries, rfl, -⟩
        exact absurd rfl (hother entries)
  · rename_i htruthy
    simp [htruthy]

/-- A failure that nothing has been counted for. -/
theorem callKept_unexpectedAnswer_iff (env : ServiceEnv) (model : PyText) (body name : String)
    (client : ChatUsage) :
    CallKept client (unexpectedAnswer env model body name client) ↔ name ∈ answerErrors := by
  unfold unexpectedAnswer
  split
  · rename_i hname
    refine iff_of_true ⟨rfl, ?_, ?_⟩ hname
    · intro content h
      cases h
    · intro error h
      cases h
      exact ⟨rfl, _, rfl⟩
  · rename_i hname
    refine iff_of_false ?_ hname
    intro h
    have honce := h.once
    dsimp only at honce
    omega

/-- A failure after the call has been counted as a success. -/
theorem not_callKept_unexpectedAnswer (env : ServiceEnv) (model : PyText) (usage : Loaded)
    (body name : String) (client : ChatUsage) :
    ¬ CallKept client
      (unexpectedAnswer env model body name (recordUsage env model usage false client).1) := by
  intro h
  unfold unexpectedAnswer at h
  split at h
  · have honce := h.once
    simp only [recordUsage_totalCalls] at honce
    omega
  · obtain ⟨-, message, hmessage⟩ := h.raised _ rfl
    cases hmessage

theorem faultName_mem_iff (fault : JsonFault) : fault.name ∈ answerErrors ↔ fault = .decode := by
  cases fault <;> decide

theorem callKept_readAnswer_iff (env : ServiceEnv) (model : PyText) (body : String)
    (client : ChatUsage) :
    CallKept client (readAnswer env model body client) ↔ AnswerSound env body := by
  unfold readAnswer AnswerSound
  split
  · rename_i fault _
    rw [callKept_unexpectedAnswer_iff, faultName_mem_iff]
  · rename_i data _
    have hraised : (recordUsage env model (usageOf data) false client).2 = none
        ↔ UsageCountable env (usageOf data) := addUsage_raised_iff env _ _
    have hnot := not_callKept_unexpectedAnswer env model (usageOf data) body
    have htotal := recordUsage_totalCalls env model (usageOf data) false client
    have hfailed := recordUsage_failedCalls env model (usageOf data) false client
    split
    · rename_i recorded name heq
      rw [heq] at hraised
      specialize hnot name client
      rw [heq] at hnot
      refine iff_of_false hnot ?_
      rintro ⟨hcountable, -⟩
      cases hraised.mpr hcountable
    · rename_i recorded heq
      rw [heq] at hraised htotal hfailed
      split
      · rename_i content hcontent
        refine iff_of_true ⟨htotal, fun _ _ => hfailed, ?_⟩ ⟨hraised.mp rfl, content, hcontent⟩
        intro error h
        cases h
      · rename_i name hcontent
        specialize hnot name client
        rw [heq] at hnot
        refine iff_of_false hnot ?_
        rintro ⟨-, content, h⟩
        cases hcontent.symm.trans h

/-- A failed request is counted once; its error may still be of another class. -/
theorem callKept_failed_iff (env : ServiceEnv) (model : PyText) (error : ClientError)
    (client : ChatUsage) :
    CallKept client (.error error, (recordUsage env model .null true client).1)
      ↔ ∃ message, error = .own message := by
  constructor
  · intro h
    exact (h.raised error rfl).2
  · rintro ⟨message, rfl⟩
    refine ⟨rfl, ?_, ?_⟩
    · intro content h
      cases h
    · intro error h
      cases h
      exact ⟨rfl, message, rfl⟩

theorem not_callKept_uncounted (name : String) (client : ChatUsage) :
    ¬ CallKept client (.error (.escaped name), client) := by
  intro h
  have honce := h.once
  dsimp only at honce
  omega

theorem callKept_iff (env : ServiceEnv) (settings : ChatSettings) (call : ChatCall)
    (client : ChatUsage) :
    CallKept client (chatText env settings call client) ↔ CallSound env settings call := by
  unfold chatText CallSound
  split
  · rename_i hencodable
    rw [hencodable, eq_self_iff_true, true_and]
    cases call.outcome with
    | body bytes =>
        simp only [Transport.received, OutcomeSound]
        cases hdecode : Utf8.decodeStrict bytes with
        | some text => simp [callKept_readAnswer_iff]
        | none => simp [not_callKept_uncounted]
    | httpError code detail =>
        cases detail with
        | ok bytes => simp [Transport.received, OutcomeSound, callKept_failed_iff]
        | error name => simp [Transport.received, OutcomeSound, callKept_failed_iff]
    | timeout text => simp [Transport.received, OutcomeSound, callKept_failed_iff]
    | incompleteRead text => simp [Transport.received, OutcomeSound, callKept_failed_iff]
    | urlError text => simp [Transport.received, OutcomeSound, callKept_failed_iff]
    | other name => simp [Transport.received, OutcomeSound, not_callKept_uncounted]
  · rename_i hencodable
    exact iff_of_false (not_callKept_uncounted _ client) fun h => hencodable h.1

/-! ## A sequence of calls -/

/-- What should hold along a sequence of calls. -/
structure ClientKept (env : ServiceEnv) (settings : ChatSettings) (calls : List ChatCall) :
    Prop where
  counted : ∀ before call after, calls = before ++ call :: after →
    CallKept (chatRun env settings before)
      (chatText env settings call (chatRun env settings before))
  balanced : ∀ taken, taken <+: calls → Balanced (chatRun env settings taken)

/-- Every call of a client adds one to the calls, and to the failures just when it raises,
exactly when each call is sound. The totals balance with the models in any case, and what a
call adds to them depends on the call alone. -/
theorem client_kept_iff (env : ServiceEnv) (settings : ChatSettings) (calls : List ChatCall) :
    ClientKept env settings calls ↔ ∀ call ∈ calls, CallSound env settings call := by
  constructor
  · intro h call hcall
    obtain ⟨before, after, heq⟩ := List.append_of_mem hcall
    exact (callKept_iff env settings call _).mp (h.counted before call after heq)
  · intro h
    refine ⟨?_, fun taken _ => balanced_chatRun env settings taken⟩
    rintro before call after rfl
    exact (callKept_iff env settings call _).mpr (h call (by simp))

/-- The gateway answers with an empty object. -/
def emptyAnswer : ChatCall where
  messages := []
  model := none
  metadata := []
  outcome := .body [123, 125]

theorem empty_answer_counted_twice :
    (chatRun ⟨id, 1000, fun _ => none⟩ ⟨[97], false⟩ [emptyAnswer]).totalCalls = 2
      ∧ ¬ ClientKept ⟨id, 1000, fun _ => none⟩ ⟨[97], false⟩ [emptyAnswer] := by
  have htotal : (chatRun ⟨id, 1000, fun _ => none⟩ ⟨[97], false⟩ [emptyAnswer]).totalCalls = 2 := by
    decide +kernel
  refine ⟨htotal, fun h => ?_⟩
  have honce := (h.counted [] emptyAnswer [] rfl).once
  exact absurd (htotal.symm.trans honce) (by decide)

end Aegora.DeepSeek
