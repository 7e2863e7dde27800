import Aegora.ProceduralLearning
import Aegora.Runs

/-!
# The weekly reflection

`reflection_flow.py`: user messages are clustered by Agent and rule key,
clusters become report items and procedural items, and a run writes Skill
drafts and updates the procedural memories. The answer of the language model
is part of a run's input; without one, or with one that does not fit, the
draft is the fallback.

A run may stop at an exception of a draft's write. What it had written until
then stays, so a run returns the state it leaves and the exception.
-/

namespace Aegora

open Py

/-! ## Messages -/

def punctuation : List Char :=
  "，。！？!?、,.；;：:（）()【】[]".toList ++ [Char.ofNat 34, Char.ofNat 39, Char.ofNat 96]

/-- `cluster_key`. -/
def clusterKey (lower : String → String) (text : String) : String :=
  let kept := (lower text).toList.filter fun c => !isSpace c && c ∉ punctuation
  if kept.take 48 = [] then "empty" else String.ofList (kept.take 48)

/-- `row["metadata"]["request_metadata"]`, where both are dictionaries. -/
def requestMetadata (row : Dict) : Dict :=
  (Dict.get (Dict.get row "metadata").dictOrEmpty "request_metadata").dictOrEmpty

/-- `message_agent_id`. -/
def messageAgentId (row : Dict) : String :=
  let value := (Dict.get (Dict.get row "metadata").dictOrEmpty "agent_id").orElse
    (Dict.get (requestMetadata row) "agent_id")
  if value = .null ∨ value = .str "" then "legacy" else strip value.pyStr

structure LearningPolicy where
  captureEvidence : Bool := true
  proposeSkills : Bool := false
  requiresHumanReview : Bool := true
deriving DecidableEq

/-- `message_learning_policy`. -/
def messageLearningPolicy (row : Dict) : LearningPolicy :=
  match Dict.get (requestMetadata row) "learning_policy" with
  | .obj raw =>
      { captureEvidence := (Dict.getD raw "capture_evidence" (.bool true)).truthy
        proposeSkills := (Dict.getD raw "propose_skills" (.bool false)).truthy
        requiresHumanReview := (Dict.getD raw "requires_human_review" (.bool true)).truthy }
  | _ => {}

/-- `str(row["trace_id"])` of a row that has one. -/
def traceId? (row : Dict) : Option String :=
  if (Dict.get row "trace_id").truthy then some (Dict.get row "trace_id").pyStr else none

/-- A user message that may be learned from. -/
def isEvidence (row : Dict) : Bool :=
  decide (Dict.get row "role" = .str "user") && (Dict.get row "content").truthy
    && (messageLearningPolicy row).captureEvidence

/-- The traces that were rated so. -/
def ratedTraces (rating : String) (feedback : List Dict) : List String :=
  (feedback.filter fun row => decide (Dict.get row "rating" = .str rating)).filterMap traceId?

/-- `latest_assistant_content_by_trace(messages).get(trace)`, `none` when it is empty. -/
def latestAssistantContent (messages : List Dict) (trace : String) : Option String :=
  let rows := messages.filter fun row =>
    decide (Dict.get row "role" = .str "assistant") && (Dict.get row "content").truthy
      && decide (traceId? row = some trace)
  (rows.head?.map fun row => strip (Dict.get row "content").pyStr).filter (· ≠ "")

/-! ## Clusters -/

/-- `buckets[key].append(row)`, buckets in the order of their first rows. -/
def addToBucket (key : String × String) (row : Dict) :
    List ((String × String) × List Dict) → List ((String × String) × List Dict)
  | [] => [(key, [row])]
  | (k, rows) :: rest =>
      if k = key then (k, rows ++ [row]) :: rest else (k, rows) :: addToBucket key row rest

/-- The groups of `cluster_user_messages_by_rule`. -/
def ruleBuckets (lower : String → String) (messages : List Dict) :
    List ((String × String) × List Dict) :=
  (messages.filter isEvidence).foldl
    (fun buckets row =>
      addToBucket (messageAgentId row, clusterKey lower (Dict.get row "content").pyStr) row buckets)
    []

/-- What `build_clusters` is told about the period's feedback. -/
structure Feedback where
  negativeTraceIds : List String
  positiveTraceIds : List String
  assistantContent : String → Option String

/-- The cluster of one group of rows. -/
def buildCluster (lower : String → String) (feedback : Feedback) (rows : List Dict) : Cluster :=
  let traces := (rows.filterMap traceId?).eraseDups
  let positive := traces.filter (· ∈ feedback.positiveTraceIds)
  let examples := (rows.take 5).map fun row =>
    strip ((Dict.get row "content").orElse (.str "")).pyStr
  let policies := rows.map messageLearningPolicy
  { agentId := (rows.head?.map messageAgentId).getD "legacy"
    key := clusterKey lower (examples.headD "")
    title := (examples.head?.map (takeText 80)).getD "empty"
    count := traces.length
    positiveCount := positive.length
    negativeCount := (traces.filter (· ∈ feedback.negativeTraceIds)).length
    examples := examples
    successfulResponseExamples := (positive.filterMap feedback.assistantContent).take 5
    sourceTraceIds := traces.take 20
    positiveTraceIds := positive.take 20
    proposeSkills := !policies.isEmpty && policies.all LearningPolicy.proposeSkills
    requiresHumanReview := policies.isEmpty || policies.any LearningPolicy.requiresHumanReview }

/-- The order of the clusters: more negative, more positive, more evidence first. -/
def Cluster.notBefore (a b : Cluster) : Prop :=
  b.negativeCount < a.negativeCount ∨ (b.negativeCount = a.negativeCount
    ∧ (b.positiveCount < a.positiveCount ∨ (b.positiveCount = a.positiveCount
      ∧ b.count ≤ a.count)))

instance : DecidableRel Cluster.notBefore := fun _ _ =>
  inferInstanceAs (Decidable (_ ∨ (_ ∧ (_ ∨ (_ ∧ _)))))

/-- `cluster_user_messages_by_rule`. -/
def clusterUserMessagesByRule (lower : String → String) (feedback : Feedback)
    (messages : List Dict) : List Cluster :=
  let clusters := (ruleBuckets lower messages).map fun bucket =>
    buildCluster lower feedback bucket.2
  clusters.insertionSort Cluster.notBefore

/-! ## Report items -/

inductive ReportType where
  | safetyReview
  | handoffRule
  | skillCandidate
  | learningReview
  | faqGap
deriving DecidableEq, Repr

def handoffTerms : List String :=
  ["充值", "提现", "到账", "订单", "退款", "封号", "解封", "风控", "禁言", "账号"]

def safetyTerms : List String := ["密码", "token", "api key", "私钥", "身份证"]

def ReportType.suggestion : ReportType → String
  | .safetyReview => "疑似敏感信息或安全边界问题，只进入报告，不自动沉淀经验。"
  | .handoffRule => "建议人工确认是否需要明确转人工边界。"
  | .skillCandidate => "建议生成 Skill 草稿，沉淀客服处理策略。"
  | .learningReview => "达到候选阈值，但该 Agent 未授权生成 Skill 草稿，仅进入人工学习复核。"
  | .faqGap => "建议人工检查是否缺少 FAQ 或现有 FAQ 表达不完整。"

structure ReportItem where
  type : ReportType
  agentId : String
  clusterTitle : String
  count : Nat
  negativeCount : Nat
  suggestion : String
  examples : List String
  sourceTraceIds : List String
  proposeSkills : Bool
  requiresHumanReview : Bool
deriving DecidableEq

def reportType (lower : String → String) (minNegativeFeedback : Int) (c : Cluster) : ReportType :=
  let text := " ".intercalate c.examples
  if safetyTerms.any (occursIn · (lower text)) then .safetyReview
  else if handoffTerms.any (occursIn · text) then .handoffRule
  else if minNegativeFeedback ≤ c.negativeCount ∧ c.proposeSkills then .skillCandidate
  else if minNegativeFeedback ≤ c.negativeCount then .learningReview
  else .faqGap

/-- `build_report_item`. -/
def buildReportItem (lower : String → String) (minNegativeFeedback : Int) (c : Cluster) :
    ReportItem where
  type := reportType lower minNegativeFeedback c
  agentId := c.agent
  clusterTitle := c.title
  count := c.count
  negativeCount := c.negativeCount
  suggestion := (reportType lower minNegativeFeedback c).suggestion
  examples := c.examples
  sourceTraceIds := c.sourceTraceIds
  proposeSkills := c.proposeSkills
  requiresHumanReview := c.requiresHumanReview

/-! ## Drafts -/

/-- What a draft is made from. -/
inductive ReflectionItem where
  | report (item : ReportItem)
  | procedural (item : ProceduralItem)
deriving DecidableEq

namespace ReflectionItem

def agentId : ReflectionItem → String
  | .report item => item.agentId
  | .procedural item => item.agentId

def clusterTitle : ReflectionItem → String
  | .report item => item.clusterTitle
  | .procedural item => item.clusterTitle

def examples : ReflectionItem → List String
  | .report item => item.examples
  | .procedural item => item.examples

def sourceTraceIds : ReflectionItem → List String
  | .report item => item.sourceTraceIds
  | .procedural item => item.sourceTraceIds

end ReflectionItem

/-- `[a-z0-9_]`. -/
def isNameChar (c : Char) : Bool := c.isLower || c.isDigit || c = '_'

/-- `re.sub(r"[^a-z0-9_]+", "_", …)`; the flag says that a run is being replaced. -/
def underscoreRuns : Bool → List Char → List Char
  | _, [] => []
  | inRun, c :: cs =>
      if isNameChar c then c :: underscoreRuns false cs
      else if inRun then underscoreRuns true cs
      else '_' :: underscoreRuns true cs

/-- The four names a draft falls back to. -/
def fallbackName (key : String) : String :=
  if occursIn "指标胜率" key then "strategy_membership_guidance"
  else if occursIn "会员" key then "membership_guidance"
  else if occursIn "授权" key then "exchange_auth_guidance"
  else "customer_service_guidance"

/-- `semantic_name`. -/
def semanticName (lower : String → String) (value : String) (item : ReflectionItem) : String :=
  let cleaned := stripOf ['_'] (underscoreRuns false (lower value).toList)
  if cleaned ≠ [] ∧ ¬ "reflection".toList <+: cleaned ∧ 4 ≤ cleaned.length then
    String.ofList (cleaned.take 64)
  else fallbackName (clusterKey lower item.clusterTitle)

/-- `text.replace(term, "")`; the number counts what is left of a term being removed. -/
def removeTerm (term : List Char) : Nat → List Char → List Char
  | _, [] => []
  | n + 1, _ :: cs => removeTerm term n cs
  | 0, c :: cs =>
      if term <+: c :: cs then removeTerm term (term.length - 1) cs
      else c :: removeTerm term 0 cs

def generatedPhrases : List String :=
  ["反思经验：", "反思经验", "生成原因：", "生成原因", "近 7 天", "近7天", "自动生成", "草稿"]

/-- `clean_generated_text`. -/
def cleanGeneratedText (text : String) : String :=
  let removed := generatedPhrases.foldl (fun acc term => removeTerm term.toList 0 acc)
    (stripChars text.toList)
  String.ofList (stripOf [' ', '：', ':', '\n'] removed)

/-- `clean_trigger_rules`. -/
def cleanTriggerRules (rules : Dict) : Dict :=
  rules.filterMap fun rule =>
    match rule.2 with
    | .arr items =>
        let cleaned := (items.map fun item => strip item.pyStr).filter (· ≠ "")
        if rule.1 ∈ ruleListFields ∧ cleaned ≠ [] then
          some (rule.1, .arr ((cleaned.take 10).map .str))
        else none
    | _ => none

/-- `[str(text) for text in x]`, `none` when `x` is not iterable. -/
def iteratedTexts : Json → Option (List String)
  | .arr items => some (items.map Json.pyStr)
  | .obj entries => some (entries.map Prod.fst)
  | .str s => some (s.toList.map String.singleton)
  | _ => none

def bullets (texts : List String) : String := "\n".intercalate (texts.map ("- " ++ ·))

/-- `build_skill_content`. -/
def buildSkillContent : ReflectionItem → String
  | .procedural item =>
      "适用场景：用户提出与以下样例相近的问题。\n" ++ bullets (item.examples.take 5)
        ++ "\n\n已验证处理样例（仅作为策略证据，发布前仍需评测和人工审核）：\n"
        ++ bullets (item.successfulResponseExamples.take 3)
        ++ "\n\n处理建议：提炼上述成功样例中的稳定步骤；涉及产品事实时继续以 FAQ/RAG "
        ++ "或业务工具结果为准，不把历史回复中的易变事实固化为 Skill。"
  | .report item =>
      "适用场景：用户提出与以下样例相近的问题，且普通 FAQ 回答可能无法解决。\n"
        ++ bullets (item.examples.take 5)
        ++ "\n\n处理建议：先识别用户的具体诉求和前置条件；如果缺少关键信息，先澄清；"
        ++ "如果涉及账号、订单、资金、风控等需要后台核验的问题，应引导转人工；"
        ++ "如果是产品使用策略问题，结合已召回 FAQ 给出有依据的步骤化回答。"

def textArr (texts : List String) : Json := .arr (texts.map .str)

/-- What the lineage of a procedural memory adds. -/
def proceduralLineage (item : ProceduralItem) : Dict :=
  [("source_kind", .str "procedural_memory"),
    ("procedural_memory_id", (item.proceduralMemoryId.map fun id => Json.int id).getD .null),
    ("procedural_fingerprint", .str item.fingerprint),
    ("positive_trace_ids", textArr (item.positiveTraceIds.take 20)),
    ("source_memory_candidate_ids", .arr ((item.sourceMemoryCandidateIds.take 50).map .int)),
    ("procedural_evidence", .obj
      [("evidence_count", .int item.evidenceCount), ("positive_count", .int item.positiveCount),
        ("negative_count", .int item.negativeCount), ("negative_ratio", .float item.negativeRatio),
        ("promotion_reason", .str item.promotionReason)])]

/-- `skill_draft_lineage`. -/
def skillDraftLineage (item : ReflectionItem) : Dict :=
  [("source_agent_id", .str (if item.agentId = "" then "legacy" else item.agentId)),
    ("source_trace_ids", textArr (item.sourceTraceIds.take 20))]
    ++ match item with
      | .procedural p => proceduralLineage p
      | .report _ => []

/-- The examples a draft may quote. -/
def draftExamples (item : ReflectionItem) : List String :=
  (item.examples.map strip).filter (· ≠ "")

def truthyText (x : Json) (fallback : String) : String := if x.truthy then x.pyStr else fallback

/-- The `skill_type` a reply may choose, `none` where the lookup raises. -/
def replySkillType (reply : Dict) : Option String :=
  match memberOf (Dict.get reply "skill_type") skillTypes with
  | .ok true => some (truthyText (Dict.get reply "skill_type") "guidance")
  | .ok false => some "guidance"
  | .error _ => none

/-- `normalize_llm_draft`, `none` where it raises. -/
def normalizeLlmDraft (env : SkillEnv) (reply : Dict) (item : ReflectionItem) : Option Dict :=
  let title := takeText 40
    (cleanGeneratedText (truthyText (Dict.get reply "title") item.clusterTitle))
  let content := cleanGeneratedText (truthyText (Dict.get reply "content") (buildSkillContent item))
  let rules := (Dict.get reply "trigger_rules").dictOrEmpty
  let fallbackExamples := textArr ((draftExamples item).take 5)
  do
    let triggerExamples ← iteratedTexts
      ((Dict.get rules "trigger_examples").orElse fallbackExamples)
    let skillType ← replySkillType reply
    return [("name", .str (semanticName env.lower (truthyText (Dict.get reply "name") "") item)),
      ("title", .str title),
      ("description", .str (takeText 160
        (cleanGeneratedText (truthyText (Dict.get reply "description") title)))),
      ("content", .str (takeText env.maxContentChars content)),
      ("product_id", .str env.productId),
      ("skill_type", .str skillType),
      ("source", .str "agent"),
      ("priority", .int 0),
      ("trigger_rules", .obj (cleanTriggerRules
        (Dict.set rules "trigger_examples" (textArr (triggerExamples.take 5))))),
      ("metadata", .obj (skillDraftLineage item))]

/-- `text.removeprefix(prefix)`. -/
def removePrefix (start text : List Char) : List Char :=
  if start <+: text then text.drop start.length else text

/-- `summarize_title`. -/
def summarizeTitle (text : String) : String :=
  let unprefixed := ["你好", "您好", "请问", "我想问一下"].foldl
    (fun acc start => removePrefix start.toList acc) (cleanGeneratedText text).toList
  let cleaned := String.ofList (stripOf "，。！？!?、,.；;：: ".toList unprefixed)
  if occursIn "指标胜率" cleaned then "指标胜率会员功能咨询"
  else if occursIn "会员" cleaned then "会员功能咨询"
  else if occursIn "授权" cleaned then "交易所授权咨询"
  else if takeText 24 cleaned = "" then "客服处理策略" else takeText 24 cleaned

/-- `fallback_skill_draft_from_item`. -/
def fallbackSkillDraftFromItem (env : SkillEnv) (item : ReflectionItem) : Dict :=
  let title := summarizeTitle item.clusterTitle
  [("name", .str (semanticName env.lower "" item)),
    ("title", .str title),
    ("description", .str ("用户咨询" ++ title ++ "时的客服处理策略。")),
    ("content", .str (buildSkillContent item)),
    ("product_id", .str env.productId),
    ("skill_type", .str "guidance"),
    ("source", .str "agent"),
    ("priority", .int 0),
    ("trigger_rules", .obj [("trigger_examples", textArr ((draftExamples item).take 5))]),
    ("metadata", .obj (skillDraftLineage item))]

/-- `skill_draft_from_item`; the reply is `none` when the model could not be asked. -/
def skillDraftFromItem (env : SkillEnv) (item : ReflectionItem) (reply : Option Dict) : Dict :=
  (reply.bind fun reply => normalizeLlmDraft env reply item).getD
    (fallbackSkillDraftFromItem env item)

/-! ## `run_weekly_reflection` -/

/-- What one run reads: the period's rows, its options, the model's answers. -/
structure ReflectionRun where
  messages : List Dict
  feedback : List Dict
  dryRun : Bool
  writeDrafts : Bool
  minClusterSize : Int
  minNegativeFeedback : Int
  proceduralEnabled : Bool
  policy : ProceduralPromotionPolicy
  reply : ReflectionItem → Option Dict
  /-- `source_memory_candidate_ids`. -/
  memoryCandidateIds : List String → List Int

structure ReflectionState where
  skills : SkillCollection
  memories : ProceduralTable

namespace ReflectionRun

variable (run : ReflectionRun) (env : LearningEnv)

def feedbackOf : Feedback where
  negativeTraceIds := ratedTraces "negative" run.feedback
  positiveTraceIds := ratedTraces "positive" run.feedback
  assistantContent := latestAssistantContent run.messages

def clusters : List Cluster :=
  clusterUserMessagesByRule env.lower run.feedbackOf run.messages

/-- The report items a draft is written for. -/
def skillCandidates : List ReportItem :=
  (((run.clusters env).filter fun c => run.minClusterSize ≤ c.count
      ∨ run.minNegativeFeedback ≤ c.negativeCount).map
    (buildReportItem env.lower run.minNegativeFeedback)).filter (·.type = .skillCandidate)

def proceduralItems : List ProceduralItem :=
  if run.proceduralEnabled then
    ((run.clusters env).filter fun c => 0 < c.positiveCount).map
      (buildProceduralItem env run.policy)
  else []

/-- The draft of an item. -/
def draftOf (item : ReflectionItem) : Dict :=
  skillDraftFromItem env.toSkillEnv item (run.reply item)

/-- A report item of type `skill_candidate`. -/
def draftReport (s : ReflectionState) (item : ReportItem) : ReflectionState × Option String :=
  match writeSkillDraft env.toSkillEnv s.skills (run.draftOf env (.report item)) with
  | .ok (skills, _) => ({ s with skills := skills }, none)
  | .error message => (s, some message)

/-- The item as it is stored. -/
def located (item : ProceduralItem) : ProceduralItem :=
  { item with sourceMemoryCandidateIds := run.memoryCandidateIds item.sourceTraceIds }

/-- The draft of a row that just became a candidate. -/
def draftMemory (s : ReflectionState) (item : ProceduralItem) (row : ProceduralRow) :
    ReflectionState × Option String :=
  let draft := run.draftOf env (.procedural { item with proceduralMemoryId := some row.id })
  match writeSkillDraft env.toSkillEnv s.skills draft with
  | .error message => (s, some message)
  | .ok (skills, reference) =>
      ({ skills := skills
         memories := s.memories.markSkillDrafted row.id (Dict.get draft "name").pyStr
           (toString reference) }, none)

/-- One procedural item. -/
def learn (s : ReflectionState) (item : ProceduralItem) : ReflectionState × Option String :=
  let stored := run.located item
  let upserted := s.memories.upsert stored
  let s := { s with memories := upserted.1 }
  if stored.promotionStatus = .eligible ∧ run.writeDrafts ∧ canCreateSkillDraft upserted.2 then
    run.draftMemory env s stored upserted.2
  else (s, none)

end ReflectionRun

/-- A loop that an exception ends. -/
def forEach {σ α : Type} (f : σ → α → σ × Option String) : σ → List α → σ × Option String
  | s, [] => (s, none)
  | s, a :: as =>
      match f s a with
      | (t, none) => forEach f t as
      | (t, some message) => (t, some message)

/-- What every visit of the loop's body relates, the loop relates. -/
theorem forEach_induct {σ α : Type} {f : σ → α → σ × Option String} {R : σ → σ → Prop}
    (hrefl : ∀ s, R s s) (htrans : ∀ s t u, R s t → R t u → R s u)
    (hbody : ∀ s a, R s (f s a).1) (s : σ) (as : List α) : R s (forEach f s as).1 := by
  induction as generalizing s with
  | nil => exact hrefl s
  | cons a as ih =>
      have hfirst := hbody s a
      unfold forEach
      rcases hvisit : f s a with ⟨t, message | message⟩
      · rw [hvisit] at hfirst
        exact htrans s t _ hfirst (ih t)
      · rw [hvisit] at hfirst
        exact hfirst

/-- The drafts of the report items. -/
def ReflectionRun.draftReports (run : ReflectionRun) (env : LearningEnv) (s : ReflectionState) :
    ReflectionState × Option String :=
  if run.writeDrafts then forEach (run.draftReport env) s (run.skillCandidates env) else (s, none)

/-- `run_weekly_reflection`: the state it leaves, and the exception that ended it. -/
def runWeeklyReflection (env : LearningEnv) (s : ReflectionState) (run : ReflectionRun) :
    ReflectionState × Option String :=
  if run.dryRun then (s, none)
  else
    match run.draftReports env s with
    | (t, some message) => (t, some message)
    | (t, none) => forEach (run.learn env) t (run.proceduralItems env)

/-- Weekly reflections, one after the other. -/
def reflectionStep (env : LearningEnv) (s : ReflectionState) (run : ReflectionRun) :
    Option ReflectionState :=
  some (runWeeklyReflection env s run).1

end Aegora
