import Aegora.NativePgLaws

/-!
# The memory service

`MemoryService` stands between the agent turn and the provider: a provider
call that fails is logged and turned into nothing found, nothing saved. Recall
takes a pool of rows from the provider, drops what the governance hides, ranks
the rest by what the query says and keeps the first few.
-/

namespace Aegora

open Py

/-- The settings of a service, and what it needs of Python's floats and texts:
`float(x)`, `none` where it raises, and `str.lower`. -/
structure MemoryService where
  floats : FloatEnv
  toFloat : Json → Option ℚ
  lower : String → String
  hasProvider : Bool := true
  recallEnabled : Bool := true
  writeEnabled : Bool := true
  recallLimit : Int := 8
  maxItemChars : Int := 400

/-- How a call of the provider ends: acknowledged, rolled back, or committed
with an error on the way back. -/
inductive CallOutcome where
  | done
  | rolledBack
  | unacknowledged
deriving DecidableEq, Repr

structure MemoryWriteResult where
  saved : Bool
  item : Option MemoryItem := none
  reason : Option String := none
deriving DecidableEq

namespace MemoryService

variable (service : MemoryService)

/-- `get_current`; `lookup` tells whether the call of the provider succeeds. -/
def getCurrent (lookup : Bool) (scope : MemoryScope) (key : String) (now : Time)
    (t : MemoryTables) : Option MemoryItem :=
  if service.hasProvider && lookup then
    (Aegora.getCurrent scope key now t).map (rowToItem service.floats)
  else none

/-- `remember`. -/
def remember (outcome : CallOutcome) (scope : MemoryScope) (memory : MemoryWrite) (now : Time)
    (t : MemoryTables) : MemoryTables × MemoryWriteResult :=
  if !service.writeEnabled || !service.hasProvider then
    (t, ⟨false, none, some "memory_write_disabled"⟩)
  else
    let written := Aegora.remember service.floats scope memory now t
    match outcome with
    | .done => (written.1, ⟨true, some (rowToItem service.floats written.2), none⟩)
    | .rolledBack => (t, ⟨false, none, some "provider_error"⟩)
    | .unacknowledged => (written.1, ⟨false, none, some "provider_error"⟩)

/-- `forget`. -/
def forget (outcome : CallOutcome) (scope : MemoryScope) (key : String) (now : Time)
    (t : MemoryTables) : MemoryTables × Bool :=
  if !service.writeEnabled || !service.hasProvider then (t, false)
  else
    match outcome with
    | .done => Aegora.forget scope key now t
    | .rolledBack => (t, false)
    | .unacknowledged => ((Aegora.forget scope key now t).1, false)

end MemoryService

/-! ## Ranking -/

/-- The maximal runs of characters that satisfy `p`. -/
def charRuns (p : Char → Bool) : List Char → List (List Char)
  | [] => []
  | c :: rest =>
      match charRuns p rest with
      | [] => if p c then [[c]] else []
      | run :: runs =>
          if p c then
            if rest.head?.any p then (c :: run) :: runs else [c] :: run :: runs
          else run :: runs

/-- `[a-z0-9_]`. -/
def isWordChar (c : Char) : Bool := c.isLower || c.isDigit || c = '_'

/-- The characters from U+3400 to U+9FFF. -/
def isCjk (c : Char) : Bool := 0x3400 ≤ c.toNat && c.toNat ≤ 0x9FFF

/-- `memory_terms`, as a list of the terms. -/
def memoryTerms (lower : String → String) (text : String) : List String :=
  let normalized := (lower text).toList
  let words := (charRuns isWordChar normalized).filter fun run => 2 ≤ run.length
  let cjk := (charRuns isCjk normalized).flatMap fun run =>
    run :: (run.map fun c => [c]) ++ (run.zip run.tail).map fun pair => [pair.1, pair.2]
  ((words ++ cjk).map String.ofList).dedup

/-- `_float_metadata`. -/
def floatMetadata (toFloat : Json → Option ℚ) (item : MemoryItem) (key : String)
    (fallback : ℚ) : ℚ :=
  match Dict.get? item.metadata key with
  | none => fallback
  | some value => (toFloat value).getD fallback

/-- The first four components of a score. -/
structure MemoryScore where
  hit : Bool
  overlap : ℚ
  importance : ℚ
  confidence : ℚ

/-- The comparison of score tuples, greater first. -/
def MemoryScore.before (a b : MemoryScore) : Bool :=
  if a.hit ≠ b.hit then a.hit
  else if a.overlap ≠ b.overlap then b.overlap < a.overlap
  else if a.importance ≠ b.importance then b.importance < a.importance
  else b.confidence ≤ a.confidence

def memoryScore (service : MemoryService) (terms : List String) (item : MemoryItem) :
    MemoryScore :=
  let itemTerms := memoryTerms service.lower (item.key ++ " " ++ item.content)
  let shared := (terms.filter (· ∈ itemTerms)).length
  { hit := 0 < shared
    overlap := shared / (max 1 terms.length : ℕ)
    importance := floatMetadata service.toFloat item "importance" (1 / 2)
    confidence := floatMetadata service.toFloat item "confidence" 1 }

/-- `rank_memory_items`; the sort is stable, as the index in the tuple asks. -/
def rankMemoryItems (service : MemoryService) (query : String) (items : List MemoryItem) :
    List MemoryItem :=
  let terms := memoryTerms service.lower query
  if terms = [] then items
  else items.insertionSort fun a b =>
    (memoryScore service terms a).before (memoryScore service terms b) = true

/-! ## Recall -/

/-- `items[:limit]`, counted from the end for a negative limit. -/
def takeSlice {α : Type*} (limit : Int) (items : List α) : List α :=
  if 0 ≤ limit then items.take limit.toNat else items.take (items.length - (-limit).toNat)

/-- `content[:max_item_chars]` of a stripped content. -/
def MemoryService.sanitize (service : MemoryService) (item : MemoryItem) : Option MemoryItem :=
  let content := strip item.content
  if content = "" then none
  else some { item with content := String.ofList (takeSlice service.maxItemChars content.toList) }

/-- The pool that `recall` asks the provider for. -/
def MemoryService.poolSize (service : MemoryService) : Int :=
  max (service.recallLimit * 4) service.recallLimit

/-- `recall`; `call` tells whether the call of the provider succeeds. -/
def MemoryService.recall (service : MemoryService) (call : Bool) (scope : MemoryScope)
    (query : String) (governance : Option MemoryGovernance) (now : Time) (t : MemoryTables) :
    List MemoryItem :=
  if !service.recallEnabled || !service.hasProvider || !call then []
  else
    let items := (recallRows scope service.poolSize now t).map (rowToItem service.floats)
    let admitted : Except String (List MemoryItem) := match governance with
      | none => .ok items
      | some governance => filterRecalledItems items governance
    match admitted with
    | .error _ => []
    | .ok admitted =>
        (takeSlice service.recallLimit (rankMemoryItems service query admitted)).filterMap
          service.sanitize

end Aegora
