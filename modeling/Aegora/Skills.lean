import Mathlib.Data.List.Infix
import Aegora.JsonText

/-!
# Skills

`skills.py`: the content hash of a Skill, the validation every writer runs
before it stores one, and the evidence an Agent-made Skill has to carry
before it may become active. A Skill is a dictionary, as it is read from a
file, from Strapi or from a row; the checks return the messages of all the
fields that fail, in the source's order. The one exception they raise is
that of a lookup of an unhashable value in a set (`memberOf`).
-/

namespace Aegora

open Py

def skillTypes : List String := ["guidance", "commercial", "workflow", "safety"]

def skillSources : List String := ["manual", "agent"]

def skillStatuses : List String := ["draft", "active", "rejected", "archived"]

def ruleListFields : List String :=
  ["include_terms", "exclude_terms", "explicit_intents", "strong_related_terms",
    "trigger_examples"]

def sensitiveTerms : List String :=
  ["api_key", "api key", "password", "密码", "token", "secret", "身份证", "私钥"]

/-! ## Small readings of a value -/

/-- `str(x or "").strip()`. -/
def strippedText (x : Json) : String := strip (x.orElse (.str "")).pyStr

/-- `isinstance(x, str) and x.strip()`. -/
def isText (x : Json) : Bool := (x.asStr?.map strip).getD "" != ""

/-- `isinstance(x, dict) and x`. -/
def isNonemptyDict (x : Json) : Bool := !x.dictOrEmpty.isEmpty

/-- `isinstance(x, int)`, which a boolean is. -/
def asInt? : Json → Option Int
  | .int n => some n
  | .bool b => some (if b then 1 else 0)
  | _ => none

/-- `x in {…}`: a list or a dictionary has no hash. -/
def memberOf (x : Json) (names : List String) : Except String Bool :=
  match x with
  | .arr _ | .obj _ => .error "TypeError"
  | .str s => .ok (decide (s ∈ names))
  | _ => .ok false

/-- `term in text`. -/
def occursIn (term text : String) : Bool := decide (term.toList <:+: text.toList)

/-- The message of a check that fails. -/
def expect (ok : Bool) (message : String) : List String := if ok then [] else [message]

@[simp] theorem expect_eq_nil {ok : Bool} {message : String} :
    expect ok message = [] ↔ ok = true := by
  cases ok <;> simp [expect]

/-! ## The content hash -/

def skillHashKeys : List String :=
  ["name", "title", "description", "content", "product_id", "domain", "skill_type", "source",
    "priority", "trigger_rules"]

/-- What `skill_content_hash` digests. -/
def skillHashText (skill : Dict) : String :=
  (Json.obj (skillHashKeys.map fun key => (key, Dict.get skill key))).dumps "," ":"

/-- `skill_content_hash`; `sha256` is the hexadecimal digest of a text. -/
def skillContentHash (sha256 : String → String) (skill : Dict) : String :=
  sha256 (skillHashText skill)

/-! ## `validate_skill` -/

/-- The errors of one entry of `trigger_rules`. -/
def ruleErrors (rule : String × Json) : List String :=
  if rule.1 ∉ ruleListFields then ["trigger_rules 不支持字段: " ++ rule.1]
  else expect ((rule.2.asList?.map fun items => items.all isText).getD false)
    ("trigger_rules." ++ rule.1 ++ " 必须是非空字符串数组")

def triggerRuleErrors (skill : Dict) : List String :=
  match (Dict.get skill "trigger_rules").orElse (.obj []) with
  | .obj rules => rules.flatMap ruleErrors
  | _ => ["trigger_rules 必须是对象"]

/-- `isinstance(x, int) and -100 <= x <= 100`. -/
def priorityOk (x : Json) : Bool := ((asInt? x).map fun n => decide (-100 ≤ n ∧ n ≤ 100)).getD false

/-- `validate_skill`; `lower` is `str.lower`. -/
def validateSkill (lower : String → String) (skill : Dict) (maxContentChars : Nat) :
    Except String (List String) := do
  let typeOk ← memberOf (Dict.getD skill "skill_type" (.str "guidance")) skillTypes
  let sourceOk ← memberOf (Dict.getD skill "source" (.str "manual")) skillSources
  let statusOk ← memberOf (Dict.getD skill "status" (.str "draft")) skillStatuses
  let lowered := lower ((Dict.getD skill "content" (.str "")).pyStr ++ " "
    ++ (Dict.getD skill "description" (.str "")).pyStr)
  return (["name", "title", "description", "content"].flatMap fun field =>
      expect (isText (Dict.get skill field)) (field ++ " 必须是非空字符串"))
    ++ expect (((Dict.get skill "content").asStr?.getD "").length ≤ maxContentChars)
      ("content 不能超过 " ++ toString maxContentChars ++ " 字")
    ++ expect (!(Dict.get skill "domain").truthy || (Dict.get skill "product_id").truthy)
      "domain 有值时 product_id 不能为空"
    ++ expect typeOk "skill_type 无效"
    ++ expect sourceOk "source 无效"
    ++ expect statusOk "status 无效"
    ++ expect (priorityOk (Dict.getD skill "priority" (.int 0))) "priority 必须是 -100 到 100 的整数"
    ++ triggerRuleErrors skill
    ++ expect (!sensitiveTerms.any (occursIn · lowered)) "Skill 包含禁止保存的敏感信息"

/-! ## `procedural_skill_lineage_errors` -/

/-- `0 <= x <= 1` of a finite float, from its `repr`: digits, a point, an exponent. -/
def reprInUnit (repr : String) : Bool :=
  let (negative, text) := splitSign repr.toList
  let (mantissa, exponent) := splitAtChar 'e' text
  let (whole, fraction) := splitAtChar '.' mantissa
  let fraction := fraction.getD []
  match digitsValue (whole ++ fraction), exponent.elim (some 0) (intOfText ∘ String.ofList) with
  | some digits, some shift =>
      let scale : Int := shift - fraction.length
      digits == 0 || (!negative && decide (digits * 10 ^ scale.toNat ≤ 10 ^ (-scale).toNat))
  | _, _ => false

/-- `isinstance(x, (int, float)) and 0 <= float(x) <= 1`; an integer may be too large. -/
def inUnit : Json → Except String Bool
  | .int n =>
      if 2 ^ 1024 - 2 ^ 970 ≤ n.natAbs then .error "OverflowError"
      else .ok (decide (0 ≤ n ∧ n ≤ 1))
  | .bool _ => .ok true
  | .float repr => .ok (reprInUnit repr)
  | _ => .ok false

/-- `{str(value) for value in values}`, as a list. -/
def textsOf (values : Json) : List String := (values.asList?.getD []).map Json.pyStr

/-- The traces a Skill names as its evidence. -/
def traceErrors (metadata : Dict) : List String :=
  let source := Dict.get metadata "source_trace_ids"
  let positive := Dict.get metadata "positive_trace_ids"
  expect (decide (2 ≤ ((textsOf source).filter (· ≠ "")).dedup.length))
      "procedural Skill 必须保留至少两条 source_trace_ids"
    ++ if (textsOf positive).isEmpty then ["procedural Skill 必须保留 positive_trace_ids"]
      else expect (source.asList?.isNone || (textsOf positive).all (· ∈ textsOf source))
        "procedural Skill positive_trace_ids 必须属于 source_trace_ids"

/-- `isinstance(x, int) and x >= low`. -/
def intAtLeast (low : Int) (x : Json) : Bool :=
  ((asInt? x).map fun n => decide (low ≤ n)).getD false

/-- The counts of `procedural_evidence`. -/
def evidenceErrors (evidence : Dict) : Except String (List String) := do
  let ratioOk ← inUnit (Dict.get evidence "negative_ratio")
  return expect (intAtLeast 2 (Dict.get evidence "evidence_count"))
      "procedural_evidence.evidence_count 必须至少为 2"
    ++ expect (intAtLeast 1 (Dict.get evidence "positive_count"))
      "procedural_evidence.positive_count 必须至少为 1"
    ++ expect (intAtLeast 0 (Dict.get evidence "negative_count"))
      "procedural_evidence.negative_count 无效"
    ++ expect ratioOk "procedural_evidence.negative_ratio 必须在 0 到 1"
    ++ expect (Dict.get evidence "promotion_reason" = .str "promotion_gate_passed")
      "procedural Skill 必须来自通过 promotion gate 的程序性记忆"

/-- The Skill says it was made from a procedural memory. -/
def fromProceduralMemory (metadata : Dict) : Bool :=
  decide (Dict.get metadata "source_kind" = .str "procedural_memory")

/-- `procedural_skill_lineage_errors`. -/
def proceduralSkillLineageErrors (metadata : Dict) : Except String (List String) :=
  if !fromProceduralMemory metadata then .ok []
  else
    let agentId := Dict.get metadata "source_agent_id"
    let named := expect (intAtLeast 1 (Dict.get metadata "procedural_memory_id"))
        "procedural Skill 必须记录有效 procedural_memory_id"
      ++ expect (isText (Dict.get metadata "procedural_fingerprint"))
        "procedural Skill 必须记录 procedural_fingerprint"
      ++ expect (isText agentId && agentId ≠ .str "legacy")
        "procedural Skill 必须记录明确 source_agent_id"
      ++ traceErrors metadata
    match Dict.get metadata "procedural_evidence" with
    | .obj evidence => (evidenceErrors evidence).map (named ++ ·)
    | _ => .ok (named ++ ["procedural Skill 必须记录 procedural_evidence"])

/-! ## `agent_skill_promotion_errors` -/

/-- The checks of `metadata.evaluation.canary`. -/
def canaryErrors (evaluation canary : Dict) : Except String (List String) := do
  let modeOk ← memberOf (Dict.get canary "mode") ["shadow", "limited"]
  let canaryHash := strippedText (Dict.get canary "content_hash")
  return expect (Dict.get canary "status" = .str "passed")
      "agent Skill 晋级前必须通过 Canary（metadata.evaluation.canary.status=passed）"
    ++ expect modeOk "agent Skill Canary mode 必须是 shadow 或 limited"
    ++ expect (intAtLeast 1 (Dict.get canary "sample_size"))
      "agent Skill Canary 必须记录正整数 sample_size"
    ++ expect (isNonemptyDict (Dict.get canary "metrics")) "agent Skill Canary 必须记录非空 metrics"
    ++ expect (isText (Dict.get canary "observed_at")) "agent Skill Canary 必须记录 observed_at"
    ++ if canaryHash = "" then ["agent Skill Canary 必须记录 content_hash"]
      else expect (canaryHash = strippedText (Dict.get evaluation "content_hash"))
        "agent Skill Canary 证据已过期：content_hash 与评测候选不一致"

/-- The checks of the regression comparison. -/
def regressionErrors : Json → List String
  | .obj regression =>
      expect (Dict.get regression "status" = .str "passed")
        "agent Skill 晋级前必须通过回归对比（metadata.evaluation.regression.status=passed）"
  | _ => ["agent Skill 晋级前必须提供 metadata.evaluation.regression 对象"]

/-- The hash an evaluation has to name: the one the Skill carries, else its own. -/
def expectedHash (sha256 : String → String) (skill : Dict) : String :=
  strip ((Dict.get skill "content_hash").orElse (.str (skillContentHash sha256 skill))).pyStr

/-- The evaluation is bound to the current content. -/
def boundHashErrors (sha256 : String → String) (skill evaluation : Dict) : List String :=
  let actual := strippedText (Dict.get evaluation "content_hash")
  if actual = "" then ["agent Skill 晋级前必须记录 metadata.evaluation.content_hash"]
  else expect (actual = expectedHash sha256 skill)
    "agent Skill 评测证据已过期：metadata.evaluation.content_hash 与当前内容不一致"

def evaluationCanaryErrors (evaluation : Dict) : Except String (List String) :=
  match Dict.get evaluation "canary" with
  | .obj canary => canaryErrors evaluation canary
  | _ => .ok ["agent Skill 晋级前必须提供 metadata.evaluation.canary 对象"]

/-- The checks of `metadata.evaluation`, the lineage's errors first. -/
def evaluationErrors (sha256 : String → String) (skill metadata evaluation : Dict)
    (reviewer : Json) : Except String (List String) := do
  let lineage ← proceduralSkillLineageErrors metadata
  let canary ← evaluationCanaryErrors evaluation
  let reviewerName := if reviewer = .null then Dict.get skill "reviewed_by" else reviewer
  return lineage
    ++ expect (Dict.get evaluation "status" = .str "passed")
      "agent Skill 晋级前必须通过评测（metadata.evaluation.status=passed）"
    ++ expect (isText (Dict.get evaluation "dataset"))
      "agent Skill 晋级前必须记录评测数据集 metadata.evaluation.dataset"
    ++ expect (isNonemptyDict (Dict.get evaluation "metrics"))
      "agent Skill 晋级前必须记录非空 metadata.evaluation.metrics"
    ++ expect (isNonemptyDict (Dict.get evaluation "criteria"))
      "agent Skill 晋级前必须记录非空 metadata.evaluation.criteria"
    ++ regressionErrors (Dict.get evaluation "regression")
    ++ canary
    ++ expect (isText (Dict.get evaluation "evaluated_at"))
      "agent Skill 晋级前必须记录 metadata.evaluation.evaluated_at"
    ++ boundHashErrors sha256 skill evaluation
    ++ expect (isText reviewerName) "agent Skill 晋级前必须记录明确的人工审核者 reviewed_by"

/-- `agent_skill_promotion_errors`. -/
def agentSkillPromotionErrors (sha256 : String → String) (skill : Dict) (reviewer : Json) :
    Except String (List String) :=
  if Dict.getD skill "source" (.str "manual") ≠ .str "agent" then .ok []
  else
    match (Dict.get skill "metadata").orElse (.obj []) with
    | .obj metadata =>
        match (Dict.get metadata "evaluation").orElse (.obj []) with
        | .obj evaluation => evaluationErrors sha256 skill metadata evaluation reviewer
        | _ => .ok ["agent Skill 晋级前必须提供 metadata.evaluation 对象"]
    | _ => .ok ["agent Skill metadata 必须是对象"]

end Aegora
