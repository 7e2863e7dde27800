import Aegora.JsonService
import Aegora.OrderedQuery
import Aegora.PyJson

/-!
# Vectors from a remote encoder

`encode` cuts the texts into batches and asks the server for each; a refused
response is asked for again, up to `max_retries` times. The items of a
response are put in the order of the indices it gives them, and then only
their number and the length of their vectors are checked. That the indices
are those of the texts is not.

A run is given with the responses that each batch has read. `normalize_vector`
is a parameter: floats, or the exception it raises.
-/

namespace Aegora.SiliconFlow

open Py

variable {F : Type}

structure EncoderEnv (F : Type) extends ServiceEnv where
  normalizeVector : Loaded → Except String (List F)

structure EncoderSettings where
  model : PyText
  dimension : Nat
  batchSize : Nat
  maxRetries : Nat

/-! ## `_request_batch` -/

/-- `json.loads(body)["data"]`, as a loop goes through it. -/
def replyItems (env : EncoderEnv F) (body : String) : Except String (List Loaded) := do
  let loaded ← (loadsFault env.floatRepr env.maxDepth body).mapError JsonFault.name
  let data ← loaded.item "data"
  data.iter

/-- `int(item["index"])`. -/
def itemIndex (env : EncoderEnv F) (item : Loaded) : Except String Int := do
  let index ← item.item "index"
  index.pyInt env.intText

/-- `normalize_vector(item["embedding"])`. -/
def itemVector (env : EncoderEnv F) (item : Loaded) : Except String (List F) := do
  let embedding ← item.item "embedding"
  env.normalizeVector embedding

/-- The second `try`: the vectors in the order of their indices. -/
def readVectors (env : EncoderEnv F) (body : String) : Except String (List (Int × List F)) := do
  let items ← replyItems env body
  let keyed ← items.mapM fun item => do
    let index ← itemIndex env item
    return (index, item)
  let ordered := keyed.insertionSort fun a b => a.1 ≤ b.1
  ordered.mapM fun entry => do
    let vector ← itemVector env entry.2
    return (entry.1, vector)

/-- The classes that the second `try` catches. -/
def replyErrors : List String := ["KeyError", "TypeError", "ValueError", "JSONDecodeError"]

/-- What is read of a response, before the checks. -/
def readReply (env : EncoderEnv F) (outcome : Transport) :
    Except ClientError (List (Int × List F)) :=
  match outcome.received "SiliconFlow" with
  | .failed error => .error error
  | .escaped name => .error (.escaped name)
  | .text body =>
      (readVectors env body).mapError fun name =>
        if name ∈ replyErrors then
          .own ("Unexpected SiliconFlow response: " ++ excerpt body.toList)
        else .escaped name

/-- The checks of number and dimension. -/
def checkVectors (settings : EncoderSettings) (texts : List PyText) (vectors : List (List F)) :
    Except ClientError (List (List F)) :=
  if vectors.length ≠ texts.length then
    .error (.own ("SiliconFlow returned " ++ toString vectors.length ++ " vectors for "
      ++ toString texts.length ++ " texts"))
  else
    match vectors.find? fun vector => vector.length ≠ settings.dimension with
    | some vector =>
        .error (.own ("SiliconFlow vector dimension=" ++ toString vector.length ++ ", expected="
          ++ toString settings.dimension))
    | none => .ok vectors

def requestBatch (env : EncoderEnv F) (settings : EncoderSettings) (texts : List PyText)
    (outcome : Transport) : Except ClientError (List (List F)) :=
  if encodable (settings.model :: texts) then do
    let entries ← readReply env outcome
    checkVectors settings texts (entries.map Prod.snd)
  else .error (.escaped "UnicodeEncodeError")

/-! ## `_encode_batch` and `encode` -/

/-- A batch, the responses it has read and how it ended. -/
structure BatchRun (F : Type) where
  texts : List PyText
  attempts : List Transport
  result : Except ClientError (List (List F))
deriving DecidableEq

/-- The attempts that are left, the first of them with the given response. -/
def encodeBatch (env : EncoderEnv F) (settings : EncoderSettings) (responses : Nat → Transport)
    (texts : List PyText) :
    (left request : Nat) → Option String → List Transport × Except ClientError (List (List F))
  | 0, _, some message => ([], .error (.own message))
  | 0, _, none => ([], .error (.escaped "AssertionError"))
  | left + 1, request, _ =>
      match requestBatch env settings texts (responses request) with
      | .error (.own message) =>
          let (attempts, result) :=
            encodeBatch env settings responses texts left (request + 1) (some message)
          (responses request :: attempts, result)
      | result => ([responses request], result)

/-- The batches until one fails; `request` counts the responses read before. -/
def encodeBatches (env : EncoderEnv F) (settings : EncoderSettings) (responses : Nat → Transport) :
    List (List PyText) → (request : Nat) → List (BatchRun F)
  | [], _ => []
  | texts :: batches, request =>
      let (attempts, result) :=
        encodeBatch env settings responses texts settings.maxRetries request none
      match result with
      | .error error => [⟨texts, attempts, .error error⟩]
      | .ok vectors =>
          ⟨texts, attempts, .ok vectors⟩
            :: encodeBatches env settings responses batches (request + attempts.length)

/-- `values[start : start + batch_size]` for each `start`. -/
def batchesOf (size : Nat) (values : List PyText) : List (List PyText) :=
  (List.range ((values.length + size - 1) / size)).map fun i => (values.drop (i * size)).take size

def encodeRuns (env : EncoderEnv F) (settings : EncoderSettings) (responses : Nat → Transport)
    (texts : List PyText) : List (BatchRun F) :=
  encodeBatches env settings responses (batchesOf settings.batchSize texts) 0

def encode (env : EncoderEnv F) (settings : EncoderSettings) (responses : Nat → Transport)
    (texts : List PyText) : Except ClientError (List (List F)) :=
  if texts.isEmpty then .ok []
  else ((encodeRuns env settings responses texts).mapM BatchRun.result).map List.flatten

/-! ## What a vector belongs to -/

/-- Each vector is that of the one item the server has labelled with its place. -/
def LabelledBy (env : EncoderEnv F) (outcome : Transport) (vectors : List (List F)) : Prop :=
  ∃ body items, outcome.received "SiliconFlow" = .text body ∧ replyItems env body = .ok items
    ∧ ∀ (k : Nat) vector, vectors[k]? = some vector →
      ∃ item, items.filter (fun item => itemIndex env item = .ok (k : Int)) = [item]
        ∧ itemVector env item = .ok vector

/-- The vectors of a batch, by the response it ended with. -/
structure Served (env : EncoderEnv F) (settings : EncoderSettings) (run : BatchRun F)
    (vectors : List (List F)) : Prop where
  result : run.result = .ok vectors
  count : vectors.length = run.texts.length
  dimension : ∀ vector ∈ vectors, vector.length = settings.dimension
  labelled : ∃ outcome, run.attempts.getLast? = some outcome ∧ LabelledBy env outcome vectors

/-- What should come of `encode`: the client's error, or the batches are the texts in order and
each has its vectors. -/
def EncodeKept (env : EncoderEnv F) (settings : EncoderSettings) (responses : Nat → Transport)
    (texts : List PyText) : Prop :=
  (∃ message, encode env settings responses texts = .error (.own message))
    ∨ ∃ vectors : List (List (List F)), encode env settings responses texts = .ok vectors.flatten
      ∧ (encodeRuns env settings responses texts).flatMap BatchRun.texts = texts
      ∧ List.Forall₂ (Served env settings) (encodeRuns env settings responses texts) vectors

/-! ## Which responses are sound -/

/-- The response has a vector of the right length for each text. -/
structure Fits (settings : EncoderSettings) (texts : List PyText)
    (entries : List (Int × List F)) : Prop where
  count : entries.length = texts.length
  dimension : ∀ entry ∈ entries, entry.2.length = settings.dimension

/-- The error is caught, or a check fails. -/
def Refused (env : EncoderEnv F) (settings : EncoderSettings) (texts : List PyText)
    (outcome : Transport) : Prop :=
  encodable (settings.model :: texts) = true
    ∧ ((∃ message, readReply env outcome = .error (.own message))
      ∨ ∃ entries, readReply env outcome = .ok entries ∧ ¬ Fits settings texts entries)

/-- The indices are those of the texts. -/
def WellLabelled (env : EncoderEnv F) (settings : EncoderSettings) (texts : List PyText)
    (outcome : Transport) : Prop :=
  encodable (settings.model :: texts) = true
    ∧ ∃ entries, readReply env outcome = .ok entries ∧ Fits settings texts entries
      ∧ entries.map Prod.fst = (List.range texts.length).map Int.ofNat

/-- The responses of a run, each with the texts it is for. -/
def attemptsOf (runs : List (BatchRun F)) : List (List PyText × Transport) :=
  runs.flatMap fun run => run.attempts.map fun outcome => (run.texts, outcome)

/-- The last response read is refused, or all are refused or well labelled. -/
def RepliesSound (env : EncoderEnv F) (settings : EncoderSettings) (responses : Nat → Transport)
    (texts : List PyText) : Prop :=
  let attempts := attemptsOf (encodeRuns env settings responses texts)
  (∃ attempt, attempts.getLast? = some attempt ∧ Refused env settings attempt.1 attempt.2)
    ∨ ∀ attempt ∈ attempts, Refused env settings attempt.1 attempt.2
      ∨ WellLabelled env settings attempt.1 attempt.2

/-! ## Indices -/

section

variable {env : EncoderEnv F} {settings : EncoderSettings}

/-- The items with the index they are read to have. -/
def Keyed (env : EncoderEnv F) (item : Loaded) (entry : Int × Loaded) : Prop :=
  itemIndex env item = .ok entry.1 ∧ entry.2 = item

def Read (env : EncoderEnv F) (entry : Int × Loaded) (read : Int × List F) : Prop :=
  read.1 = entry.1 ∧ itemVector env entry.2 = .ok read.2

/-- What has been read went through the items, sorted by index. -/
theorem readVectors_eq_ok {body : String} {entries : List (Int × List F)}
    (h : readVectors env body = .ok entries) :
    ∃ items keyed, replyItems env body = .ok items ∧ List.Forall₂ (Keyed env) items keyed
      ∧ List.Forall₂ (Read env) (keyed.insertionSort fun a b => a.1 ≤ b.1) entries := by
  obtain ⟨items, hitems, h⟩ := bind_eq_ok.mp h
  obtain ⟨keyed, hkeyed, h⟩ := bind_eq_ok.mp h
  refine ⟨items, keyed, hitems, (mapM_eq_ok.mp hkeyed).imp ?_, (mapM_eq_ok.mp h).imp ?_⟩
  · intro item entry hentry
    obtain ⟨index, hindex, hentry⟩ := bind_eq_ok.mp hentry
    cases hentry
    exact ⟨hindex, rfl⟩
  · intro entry read hread
    obtain ⟨vector, hvector, hread⟩ := bind_eq_ok.mp hread
    cases hread
    exact ⟨rfl, hvector⟩

theorem map_fst_of_read {ordered : List (Int × Loaded)} {entries : List (Int × List F)}
    (h : List.Forall₂ (Read env) ordered entries) :
    entries.map Prod.fst = ordered.map Prod.fst := by
  induction h with
  | nil => rfl
  | cons hread _ ih => rw [List.map_cons, List.map_cons, hread.1, ih]

theorem filter_of_keyed {items : List Loaded} {keyed : List (Int × Loaded)}
    (h : List.Forall₂ (Keyed env) items keyed) (k : Int) :
    items.filter (fun item => itemIndex env item = .ok k)
      = (keyed.filter fun entry => entry.1 = k).map Prod.snd := by
  induction h with
  | nil => rfl
  | @cons item entry _ _ hkeyed _ ih =>
      obtain ⟨hindex, hitem⟩ := hkeyed
      rw [List.filter_cons, List.filter_cons, ih, hindex]
      by_cases hk : entry.1 = k
      · simp [hk, hitem]
      · simp [hk]

theorem read_of_mem {ordered : List (Int × Loaded)} {entries : List (Int × List F)}
    (h : List.Forall₂ (Read env) ordered entries) {read : Int × List F} (hmem : read ∈ entries) :
    ∃ entry ∈ ordered, Read env entry read := by
  induction h with
  | nil => cases hmem
  | cons hread _ ih =>
      rcases List.mem_cons.mp hmem with rfl | hmem
      · exact ⟨_, List.mem_cons_self, hread⟩
      · obtain ⟨entry, hentry, hread⟩ := ih hmem
        exact ⟨entry, List.mem_cons_of_mem _ hentry, hread⟩

/-- Keys that differ single out an entry. -/
theorem filter_eq_singleton {β : Type} {entries : List (Int × β)}
    (hnodup : (entries.map Prod.fst).Nodup) {entry : Int × β} (hmem : entry ∈ entries) :
    entries.filter (fun other => other.1 = entry.1) = [entry] := by
  induction entries with
  | nil => cases hmem
  | cons first rest ih =>
      rw [List.map_cons, List.nodup_cons] at hnodup
      rcases List.mem_cons.mp hmem with rfl | hmem
      · have hrest : rest.filter (fun other => other.1 = entry.1) = [] := by
          refine List.filter_eq_nil_iff.mpr fun other hother heq => hnodup.1 ?_
          rw [← of_decide_eq_true heq]
          exact List.mem_map_of_mem hother
        rw [List.filter_cons_of_pos (by simp), hrest]
      · have hne : ¬ first.1 = entry.1 := fun heq =>
          hnodup.1 (heq ▸ List.mem_map_of_mem hmem)
        rw [List.filter_cons_of_neg (by simpa using hne), ih hnodup.2 hmem]

/-- Sorted numbers among which are all below their number are these. -/
theorem eq_range_of_subset {indices : List Int} (hsorted : indices.Pairwise (· ≤ ·))
    (hall : ∀ k < indices.length, (k : Int) ∈ indices) :
    indices = (List.range indices.length).map Int.ofNat := by
  have hnodup : ((List.range indices.length).map Int.ofNat).Nodup :=
    List.nodup_range.map fun a b heq => Int.ofNat.inj heq
  have hsub : (List.range indices.length).map Int.ofNat ⊆ indices := by
    intro index hindex
    obtain ⟨k, hk, rfl⟩ := List.mem_map.mp hindex
    exact hall k (List.mem_range.mp hk)
  have hperm := (List.subperm_of_subset hnodup hsub).perm_of_length_le (by simp)
  refine (hperm.eq_of_pairwise (fun a b _ _ => Int.le_antisymm) ?_ hsorted).symm
  refine List.Pairwise.map _ (fun a b hab => Int.ofNat_le.mpr (Nat.le_of_lt hab)) ?_
  exact List.pairwise_lt_range

/-- The vectors belong to their places just if the indices are the places. -/
theorem labelledBy_iff {outcome : Transport} {entries : List (Int × List F)}
    (h : readReply env outcome = .ok entries) :
    LabelledBy env outcome (entries.map Prod.snd)
      ↔ entries.map Prod.fst = (List.range entries.length).map Int.ofNat := by
  unfold readReply at h
  split at h
  · cases h
  · cases h
  · rename_i body hbody
    obtain ⟨items, keyed, hitems, hkeyed, hread⟩ := readVectors_eq_ok (mapError_eq_ok.mp h)
    have hsorted := OrderedQuery.pairwise_insertionSort
      (fun a b : Int × Loaded => Iff.rfl (a := a.1 ≤ b.1)) keyed
    have hfst := map_fst_of_read hread
    have hmatch : ∀ k : Int, items.filter (fun item => itemIndex env item = .ok k)
        = ((keyed.insertionSort fun a b => a.1 ≤ b.1).filter fun entry => entry.1 = k).map
          Prod.snd := by
      intro k
      rw [filter_of_keyed hkeyed, OrderedQuery.filter_key_insertionSort (fun a b => Iff.rfl)]
    constructor
    · rintro ⟨body', items', hbody', hitems', hlabelled⟩
      obtain rfl : body = body' := by
        rw [hbody] at hbody'
        exact Received.text.inj hbody'
      obtain rfl : items = items' := Except.ok.inj (hitems.symm.trans hitems')
      have hlength : (entries.map Prod.fst).length = entries.length := List.length_map _
      rw [← hlength]
      refine eq_range_of_subset ?_ ?_
      · rw [hfst]
        exact hsorted.map _ fun a b hab => hab
      · intro k hk
        rw [hlength] at hk
        obtain ⟨item, hitem, -⟩ := hlabelled k (entries[k]).2 (by simp [hk])
        rw [hmatch] at hitem
        have hmem : item ∈ ((keyed.insertionSort fun a b => a.1 ≤ b.1).filter
            fun entry => entry.1 = (k : Int)).map Prod.snd := hitem ▸ List.mem_singleton_self item
        obtain ⟨entry, hentry, -⟩ := List.mem_map.mp hmem
        obtain ⟨hentry, hindex⟩ := List.mem_filter.mp hentry
        rw [hfst, ← of_decide_eq_true hindex]
        exact List.mem_map_of_mem hentry
    · intro hindices
      refine ⟨body, items, hbody, hitems, fun k vector hvector => ?_⟩
      obtain ⟨read, hread', rfl⟩ := Option.map_eq_some_iff.mp (List.getElem?_map.symm.trans hvector)
      obtain ⟨hk, -⟩ := List.getElem?_eq_some_iff.mp hread'
      have hindex : read.1 = (k : Int) := by
        have hplace : (entries.map Prod.fst)[k]? = some read.1 := by simp [hread']
        rw [hindices, List.getElem?_map, List.getElem?_range hk] at hplace
        exact (Option.some.inj hplace).symm
      obtain ⟨entry, hentry, heq, hvector⟩ := read_of_mem hread (List.mem_of_getElem? hread')
      refine ⟨entry.2, ?_, hvector⟩
      have hnodup : ((keyed.insertionSort fun a b => a.1 ≤ b.1).map Prod.fst).Nodup := by
        rw [← hfst, hindices]
        exact List.nodup_range.map fun a b heq => Int.ofNat.inj heq
      rw [hmatch, ← hindex, heq, filter_eq_singleton hnodup hentry]
      rfl

/-! ## One response -/

theorem checkVectors_eq_ok {texts : List PyText} {entries : List (Int × List F)}
    {vectors : List (List F)} :
    checkVectors settings texts (entries.map Prod.snd) = .ok vectors
      ↔ Fits settings texts entries ∧ entries.map Prod.snd = vectors := by
  unfold checkVectors
  rw [ite_error_eq_ok, not_not, List.length_map]
  constructor
  · rintro ⟨hcount, h⟩
    split at h
    · cases h
    · rename_i hfind
      refine ⟨⟨hcount, fun entry hentry => ?_⟩, Except.ok.inj h⟩
      have hnot := List.find?_eq_none.mp hfind entry.2 (List.mem_map_of_mem hentry)
      simpa using hnot
  · rintro ⟨⟨hcount, hdimension⟩, rfl⟩
    have hfind : (entries.map Prod.snd).find?
        (fun vector => vector.length ≠ settings.dimension) = none := by
      simpa using fun index vector hentry => hdimension (index, vector) hentry
    rw [hfind]
    exact ⟨hcount, rfl⟩

theorem own_of_checkVectors {texts : List PyText} {vectors : List (List F)} {error : ClientError}
    (h : checkVectors settings texts vectors = .error error) : ∃ message, error = .own message := by
  unfold checkVectors at h
  split at h
  · cases h
    exact ⟨_, rfl⟩
  · split at h
    · cases h
      exact ⟨_, rfl⟩
    · cases h

theorem requestBatch_eq_ok {texts : List PyText} {outcome : Transport} {vectors : List (List F)} :
    requestBatch env settings texts outcome = .ok vectors
      ↔ encodable (settings.model :: texts) = true ∧ ∃ entries, readReply env outcome = .ok entries
        ∧ Fits settings texts entries ∧ entries.map Prod.snd = vectors := by
  unfold requestBatch
  by_cases hencodable : encodable (settings.model :: texts) = true
  · simp only [hencodable, if_true, true_and, bind_eq_ok, checkVectors_eq_ok]
  · simp [hencodable]

theorem refused_iff {texts : List PyText} {outcome : Transport} :
    Refused env settings texts outcome
      ↔ ∃ message, requestBatch env settings texts outcome = .error (.own message) := by
  unfold Refused requestBatch
  by_cases hencodable : encodable (settings.model :: texts) = true
  · simp only [hencodable, if_true, true_and]
    cases hread : readReply env outcome with
    | error error => simp [bind, Except.bind]
    | ok entries =>
        constructor
        · rintro (⟨message, h⟩ | ⟨entries', h, hfits⟩)
          · cases h
          · obtain rfl := Except.ok.inj h
            cases hresult : checkVectors settings texts (entries.map Prod.snd) with
            | ok vectors => exact absurd (checkVectors_eq_ok.mp hresult).1 hfits
            | error error =>
                obtain ⟨message, rfl⟩ := own_of_checkVectors hresult
                exact ⟨message, hresult⟩
        · rintro ⟨message, h⟩
          refine .inr ⟨entries, rfl, fun hfits => ?_⟩
          cases (checkVectors_eq_ok.mpr ⟨hfits, rfl⟩).symm.trans h
  · simp [hencodable]

/-- A response that is taken is well labelled just if its vectors are. -/
theorem labelledBy_accepted_iff {texts : List PyText} {outcome : Transport}
    {vectors : List (List F)} (h : requestBatch env settings texts outcome = .ok vectors) :
    LabelledBy env outcome vectors ↔ WellLabelled env settings texts outcome := by
  obtain ⟨hencodable, entries, hread, hfits, rfl⟩ := requestBatch_eq_ok.mp h
  rw [labelledBy_iff hread, hfits.count]
  constructor
  · exact fun hindices => ⟨hencodable, entries, hread, hfits, hindices⟩
  · rintro ⟨-, entries', hread', -, hindices⟩
    rw [Except.ok.inj (hread.symm.trans hread')]
    exact hindices

/-! ## One batch -/

/-- How a batch ends: with a response that is not refused, or with none left to ask for. -/
inductive BatchEnds (env : EncoderEnv F) (settings : EncoderSettings) (texts : List PyText) :
    List Transport → Except ClientError (List (List F)) → Prop
  | taken {refused : List Transport} {outcome : Transport}
      {result : Except ClientError (List (List F))}
      (hrefused : ∀ other ∈ refused, Refused env settings texts other)
      (htaken : ¬ Refused env settings texts outcome)
      (hresult : requestBatch env settings texts outcome = result) :
      BatchEnds env settings texts (refused ++ [outcome]) result
  | refused {refused : List Transport} {message : String} (hne : refused ≠ [])
      (hrefused : ∀ other ∈ refused, Refused env settings texts other) :
      BatchEnds env settings texts refused (.error (.own message))

theorem batchEnds_cons {texts : List PyText} {outcome : Transport} {attempts : List Transport}
    {result : Except ClientError (List (List F))} (hrefused : Refused env settings texts outcome)
    (h : BatchEnds env settings texts attempts result) :
    BatchEnds env settings texts (outcome :: attempts) result := by
  cases h with
  | taken hall htaken hresult =>
      rw [← List.cons_append]
      exact .taken (List.forall_mem_cons.mpr ⟨hrefused, hall⟩) htaken hresult
  | refused hne hall =>
      exact .refused (List.cons_ne_nil _ _) (List.forall_mem_cons.mpr ⟨hrefused, hall⟩)

theorem encodeBatch_ends (env : EncoderEnv F) (settings : EncoderSettings)
    (responses : Nat → Transport) (texts : List PyText) (left request : Nat)
    (lastError : Option String) :
    BatchEnds env settings texts
      (encodeBatch env settings responses texts (left + 1) request lastError).1
      (encodeBatch env settings responses texts (left + 1) request lastError).2 := by
  induction left generalizing request lastError with
  | zero =>
      rw [encodeBatch]
      split
      · rename_i message heq
        refine .refused (List.cons_ne_nil _ _) fun other hother => ?_
        rw [List.mem_singleton.mp hother]
        exact refused_iff.mpr ⟨message, heq⟩
      · rename_i hother
        refine .taken (List.forall_mem_nil _) (fun hrefused => ?_) rfl
        obtain ⟨message, hmessage⟩ := refused_iff.mp hrefused
        exact hother message hmessage
  | succ left ih =>
      rw [encodeBatch]
      split
      · rename_i message heq
        exact batchEnds_cons (refused_iff.mpr ⟨message, heq⟩) (ih (request + 1) (some message))
      · rename_i hother
        refine .taken (List.forall_mem_nil _) (fun hrefused => ?_) rfl
        obtain ⟨message, hmessage⟩ := refused_iff.mp hrefused
        exact hother message hmessage

/-! ## All batches -/

/-- The run of one batch. -/
def RunEnds (env : EncoderEnv F) (settings : EncoderSettings) (run : BatchRun F) : Prop :=
  BatchEnds env settings run.texts run.attempts run.result

/-- The last response of a batch is refused just if the batch ends in the client's error. -/
theorem own_run_iff {run : BatchRun F} (h : RunEnds env settings run) :
    (∃ message, run.result = .error (.own message))
      ↔ ∃ outcome, run.attempts.getLast? = some outcome
        ∧ Refused env settings run.texts outcome := by
  obtain ⟨texts, attempts, result⟩ := run
  cases h with
  | @taken refused outcome _ _ htaken hresult =>
      have hlast : (refused ++ [outcome]).getLast? = some outcome := by simp
      constructor
      · rintro ⟨message, h⟩
        exact ⟨outcome, hlast, refused_iff.mpr ⟨message, hresult.trans h⟩⟩
      · rintro ⟨other, hother, hrefused⟩
        obtain rfl := Option.some.inj (hlast.symm.trans hother)
        exact absurd hrefused htaken
  | @refused _ message hne hrefused =>
      refine iff_of_true ⟨message, rfl⟩ ⟨attempts.getLast hne, ?_, ?_⟩
      · exact List.getLast?_eq_some_getLast hne
      · exact hrefused _ (List.getLast_mem hne)

/-- The vectors of a batch are its own just if none of its responses is mislabelled. -/
theorem served_run_iff {run : BatchRun F} (h : RunEnds env settings run)
    {vectors : List (List F)} (hresult : run.result = .ok vectors) :
    Served env settings run vectors
      ↔ ∀ outcome ∈ run.attempts, Refused env settings run.texts outcome
        ∨ WellLabelled env settings run.texts outcome := by
  obtain ⟨texts, attempts, result⟩ := run
  cases h with
  | @taken refused outcome _ hrefused htaken htook =>
      have hlast : (refused ++ [outcome]).getLast? = some outcome := by simp
      replace hresult := htook.trans hresult
      dsimp only
      constructor
      · rintro ⟨-, -, -, outcome', hlast', hlabelled⟩ other hother
        obtain rfl : outcome = outcome' := Option.some.inj (hlast.symm.trans hlast')
        rcases List.mem_append.mp hother with hother | hother
        · exact .inl (hrefused other hother)
        · rw [List.mem_singleton.mp hother]
          exact .inr ((labelledBy_accepted_iff hresult).mp hlabelled)
      · intro hall
        obtain ⟨-, entries, -, hfits, rfl⟩ := requestBatch_eq_ok.mp hresult
        refine ⟨htook.symm.trans hresult, ?_, ?_, outcome, hlast, ?_⟩
        · rw [List.length_map, hfits.count]
        · intro vector hvector
          obtain ⟨entry, hentry, rfl⟩ := List.mem_map.mp hvector
          exact hfits.dimension entry hentry
        · exact (labelledBy_accepted_iff hresult).mpr
            ((hall outcome (by simp)).resolve_left htaken)
  | refused _ _ => cases hresult

/-- A batch that fails otherwise has read a response that is neither. -/
theorem escaped_run {run : BatchRun F} (h : RunEnds env settings run) {name : String}
    (hresult : run.result = .error (.escaped name)) :
    ∃ outcome ∈ run.attempts, ¬ (Refused env settings run.texts outcome
      ∨ WellLabelled env settings run.texts outcome) := by
  obtain ⟨texts, attempts, result⟩ := run
  cases h with
  | @taken refused outcome _ _ htaken htook =>
      refine ⟨outcome, by simp, ?_⟩
      rintro (hrefused | ⟨hencodable, entries, hread, hfits, -⟩)
      · exact htaken hrefused
      · have haccepted := requestBatch_eq_ok.mpr ⟨hencodable, entries, hread, hfits, rfl⟩
        cases (haccepted.symm.trans htook).trans hresult
  | refused _ _ => cases hresult

/-- The runs of the batches: only the last one may fail. -/
inductive RunsEnd (env : EncoderEnv F) (settings : EncoderSettings) :
    List (List PyText) → List (BatchRun F) → Prop
  | nil : RunsEnd env settings [] []
  | failed {run : BatchRun F} {error : ClientError} (batches : List (List PyText))
      (hrun : RunEnds env settings run) (hresult : run.result = .error error) :
      RunsEnd env settings batches [run]
  | cons {run : BatchRun F} {vectors : List (List F)} {batches : List (List PyText)}
      {runs : List (BatchRun F)} (hrun : RunEnds env settings run)
      (hresult : run.result = .ok vectors) (hruns : RunsEnd env settings batches runs) :
      RunsEnd env settings (run.texts :: batches) (run :: runs)

theorem encodeBatches_ends (hretries : 1 ≤ settings.maxRetries) (responses : Nat → Transport)
    (batches : List (List PyText)) (request : Nat) :
    RunsEnd env settings batches (encodeBatches env settings responses batches request) := by
  induction batches generalizing request with
  | nil => exact .nil
  | cons texts batches ih =>
      have hends := encodeBatch_ends env settings responses texts (settings.maxRetries - 1)
        request none
      rw [Nat.sub_add_cancel hretries] at hends
      rw [encodeBatches]
      dsimp only
      split
      · rename_i error heq
        rw [heq] at hends
        have hrun : RunEnds env settings ⟨texts, _, .error error⟩ := hends
        exact .failed _ hrun rfl
      · rename_i vectors heq
        rw [heq] at hends
        have hrun : RunEnds env settings ⟨texts, _, .ok vectors⟩ := hends
        exact .cons hrun rfl (ih _)

theorem attemptsOf_cons (run : BatchRun F) (runs : List (BatchRun F)) :
    attemptsOf (run :: runs)
      = run.attempts.map (fun outcome => (run.texts, outcome)) ++ attemptsOf runs := rfl

/-- `encode` ends in the client's error just if the last response is refused. -/
theorem own_runs_iff {batches : List (List PyText)} {runs : List (BatchRun F)}
    (h : RunsEnd env settings batches runs) :
    (∃ message, runs.mapM BatchRun.result = .error (.own message))
      ↔ ∃ attempt, (attemptsOf runs).getLast? = some attempt
        ∧ Refused env settings attempt.1 attempt.2 := by
  induction h with
  | nil =>
      refine iff_of_false ?_ ?_
      · rintro ⟨message, h⟩
        cases h
      · rintro ⟨attempt, h, -⟩
        cases h
  | @failed run error batches hrun hresult =>
      have hown := own_run_iff hrun
      have hmapM : [run].mapM BatchRun.result = .error error := by
        rw [List.mapM_cons, hresult]
        rfl
      have hattempts : attemptsOf [run]
          = run.attempts.map fun outcome => (run.texts, outcome) := List.append_nil _
      rw [hresult] at hown
      rw [hmapM, hattempts, List.getLast?_map]
      simp only [Except.error.injEq] at hown ⊢
      rw [hown]
      simp
  | @cons run vectors batches runs hrun hresult hruns ih =>
      have hown := own_run_iff hrun
      have hmapM : ∀ error, (run :: runs).mapM BatchRun.result = .error error
          ↔ runs.mapM BatchRun.result = .error error := by
        intro error
        rw [List.mapM_cons, hresult]
        cases runs.mapM BatchRun.result with
        | error _ => rfl
        | ok _ => simp [bind, Except.bind, pure, Except.pure]
      simp only [hmapM, ih, attemptsOf_cons, List.getLast?_append, List.getLast?_map]
      cases hlast : (attemptsOf runs).getLast? with
      | some attempt => rw [Option.some_or]
      | none =>
          rw [Option.none_or]
          refine iff_of_false (by simp) ?_
          rintro ⟨attempt, hattempt, hrefused⟩
          obtain ⟨outcome, houtcome, rfl⟩ := Option.map_eq_some_iff.mp hattempt
          obtain ⟨message, hmessage⟩ := hown.mpr ⟨outcome, houtcome, hrefused⟩
          cases hresult.symm.trans hmessage

/-- Where no batch fails, each has its own vectors just if no response is mislabelled. -/
theorem served_runs_iff {batches : List (List PyText)} {runs : List (BatchRun F)}
    (h : RunsEnd env settings batches runs) {vectors : List (List (List F))}
    (hresult : runs.mapM BatchRun.result = .ok vectors) :
    runs.map BatchRun.texts = batches
      ∧ (List.Forall₂ (Served env settings) runs vectors
        ↔ ∀ attempt ∈ attemptsOf runs, Refused env settings attempt.1 attempt.2
          ∨ WellLabelled env settings attempt.1 attempt.2) := by
  induction h generalizing vectors with
  | nil =>
      cases hresult
      exact ⟨rfl, iff_of_true .nil (List.forall_mem_nil _)⟩
  | @failed run error batches hrun herror =>
      rw [List.mapM_cons, herror] at hresult
      cases hresult
  | @cons run own batches runs hrun hown hruns ih =>
      rw [List.mapM_cons, hown] at hresult
      obtain ⟨own', hown', hresult⟩ := bind_eq_ok.mp hresult
      obtain rfl := Except.ok.inj hown'
      obtain ⟨rest, hrest, hresult⟩ := bind_eq_ok.mp hresult
      cases hresult
      obtain ⟨htexts, hserved⟩ := ih hrest
      refine ⟨by rw [List.map_cons, htexts], ?_⟩
      rw [List.forall₂_cons, hserved, served_run_iff hrun hown, attemptsOf_cons]
      simp only [List.forall_mem_append, List.forall_mem_map]

theorem escaped_runs {batches : List (List PyText)} {runs : List (BatchRun F)}
    (h : RunsEnd env settings batches runs) {name : String}
    (hresult : runs.mapM BatchRun.result = .error (.escaped name)) :
    ∃ attempt ∈ attemptsOf runs, ¬ (Refused env settings attempt.1 attempt.2
      ∨ WellLabelled env settings attempt.1 attempt.2) := by
  induction h with
  | nil => cases hresult
  | @failed run error batches hrun herror =>
      rw [List.mapM_cons, herror] at hresult
      cases hresult
      obtain ⟨outcome, houtcome, hnot⟩ := escaped_run hrun herror
      refine ⟨(run.texts, outcome), ?_, hnot⟩
      rw [attemptsOf_cons]
      exact List.mem_append_left _ (List.mem_map_of_mem houtcome)
  | @cons run own batches runs hrun hown hruns ih =>
      rw [List.mapM_cons, hown] at hresult
      cases hrest : runs.mapM BatchRun.result with
      | ok rest =>
          rw [hrest] at hresult
          cases hresult
      | error error =>
          rw [hrest] at hresult
          cases hresult
          obtain ⟨attempt, hattempt, hnot⟩ := ih hrest
          rw [attemptsOf_cons]
          exact ⟨attempt, List.mem_append_right _ hattempt, hnot⟩

end

/-! ## All texts -/

/-- The first batches are the first texts. -/
theorem flatten_batches (size count : Nat) (values : List PyText) :
    ((List.range count).map fun i => (values.drop (i * size)).take size).flatten
      = values.take (count * size) := by
  induction count with
  | zero => simp
  | succ count ih =>
      rw [List.range_succ, List.map_append, List.flatten_append, ih, List.map_singleton,
        List.flatten_singleton, Nat.succ_mul, List.take_add]

theorem flatten_batchesOf {size : Nat} (hsize : 1 ≤ size) (values : List PyText) :
    (batchesOf size values).flatten = values := by
  unfold batchesOf
  rw [flatten_batches]
  refine List.take_of_length_le ?_
  have hdiv := Nat.div_add_mod (values.length + size - 1) size
  have hmod := Nat.mod_lt (values.length + size - 1) hsize
  rw [Nat.mul_comm] at hdiv
  omega

/-- Without texts there are no batches either. -/
theorem encode_eq (env : EncoderEnv F) {settings : EncoderSettings}
    (hsize : 1 ≤ settings.batchSize) (responses : Nat → Transport) (texts : List PyText) :
    encode env settings responses texts
      = ((encodeRuns env settings responses texts).mapM BatchRun.result).map List.flatten := by
  unfold encode
  split
  · rename_i hempty
    rw [List.isEmpty_iff] at hempty
    subst hempty
    have hbatches : batchesOf settings.batchSize [] = [] := by
      unfold batchesOf
      rw [Nat.div_eq_of_lt (by simp only [List.length_nil]; omega)]
      rfl
    unfold encodeRuns
    rw [hbatches]
    rfl
  · rfl

/-- `encode` gives the texts their vectors in order, or raises its own error, exactly when the
responses that it has read are sound. The batches are settled one by one: a response that is taken
has to label its vectors with the indices of the texts, and the last refusal is the error. -/
theorem encode_kept_iff (env : EncoderEnv F) (settings : EncoderSettings)
    (responses : Nat → Transport) (texts : List PyText) (hsize : 1 ≤ settings.batchSize)
    (hretries : 1 ≤ settings.maxRetries) :
    EncodeKept env settings responses texts ↔ RepliesSound env settings responses texts := by
  have hruns : RunsEnd env settings (batchesOf settings.batchSize texts)
      (encodeRuns env settings responses texts) :=
    encodeBatches_ends hretries responses _ 0
  have hown := own_runs_iff hruns
  unfold EncodeKept RepliesSound
  rw [encode_eq env hsize]
  dsimp only
  rw [← hown]
  cases hresult : (encodeRuns env settings responses texts).mapM BatchRun.result with
  | error error =>
      cases error with
      | own message => exact iff_of_true (.inl ⟨message, rfl⟩) (.inl ⟨message, rfl⟩)
      | escaped name =>
          obtain ⟨attempt, hattempt, hnot⟩ := escaped_runs hruns hresult
          refine iff_of_false ?_ ?_
          · rintro (⟨message, h⟩ | ⟨vectors, h, -⟩)
            · cases h
            · cases h
          · rintro (⟨message, h⟩ | hall)
            · cases h
            · exact hnot (hall attempt hattempt)
  | ok vectors =>
      obtain ⟨htexts, hserved⟩ := served_runs_iff hruns hresult
      constructor
      · rintro (⟨message, h⟩ | ⟨own, -, -, hall⟩)
        · cases h
        · have hsame := mapM_eq_ok.mpr (hall.imp fun _ _ hserved => hserved.result)
          obtain rfl := Except.ok.inj (hresult.symm.trans hsame)
          exact .inr (hserved.mp hall)
      · rintro (⟨message, h⟩ | hall)
        · cases h
        · refine .inr ⟨vectors, rfl, ?_, hserved.mpr hall⟩
          rw [List.flatMap_def, htexts, flatten_batchesOf hsize]

/-! ## Two items with one index -/

/-- Whole numbers stand for floats; on a unit vector `normalize_vector` changes nothing. -/
def unitEnv : EncoderEnv Int where
  floatRepr := id
  maxDepth := 1000
  intText := fun _ => none
  normalizeVector embedding := do
    let items ← embedding.iter
    items.mapM fun item => item.pyInt fun _ => none

def unitSettings : EncoderSettings where
  model := codePoints "BAAI/bge-m3"
  dimension := 2
  batchSize := 8
  maxRetries := 1

/-- Both vectors are labelled with the index 0. -/
def doubledReply : Transport := .body (Utf8.encode
  ("\x7b\"data\": [\x7b\"index\": 0, \"embedding\": [1, 0]\x7d, "
    ++ "\x7b\"index\": 0, \"embedding\": [0, 1]\x7d]\x7d").toList)

theorem encode_kept_iff_doubled :
    1 ≤ unitSettings.batchSize ∧ 1 ≤ unitSettings.maxRetries
      ∧ (EncodeKept unitEnv unitSettings (fun _ => doubledReply) [[97], [98]]
        ↔ RepliesSound unitEnv unitSettings (fun _ => doubledReply) [[97], [98]]) :=
  ⟨by decide, by decide, encode_kept_iff _ _ _ _ (by decide) (by decide)⟩

theorem doubled_index_accepted :
    encode unitEnv unitSettings (fun _ => doubledReply) [[97], [98]] = .ok [[1, 0], [0, 1]]
      ∧ ¬ EncodeKept unitEnv unitSettings (fun _ => doubledReply) [[97], [98]] := by
  have hencode : encode unitEnv unitSettings (fun _ => doubledReply) [[97], [98]]
      = .ok [[1, 0], [0, 1]] := by decide +kernel
  have hruns : encodeRuns unitEnv unitSettings (fun _ => doubledReply) [[97], [98]]
      = [⟨[[97], [98]], [doubledReply], .ok [[1, 0], [0, 1]]⟩] := by decide +kernel
  have hread : readReply unitEnv doubledReply = .ok [(0, [1, 0]), (0, [0, 1])] := by
    decide +kernel
  refine ⟨hencode, ?_⟩
  rintro (⟨message, h⟩ | ⟨vectors, -, -, hserved⟩)
  · cases hencode.symm.trans h
  · rw [hruns, List.forall₂_cons_left_iff] at hserved
    obtain ⟨own, rest, ⟨hresult, -, -, outcome, hlast, hlabelled⟩, -, rfl⟩ := hserved
    obtain rfl := Except.ok.inj hresult
    obtain rfl := Option.some.inj hlast
    exact absurd ((labelledBy_iff hread).mp hlabelled) (by decide)

end Aegora.SiliconFlow
