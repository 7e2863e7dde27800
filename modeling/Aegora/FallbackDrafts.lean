import Aegora.LineageGate
import Aegora.Occurrences

/-!
# What the fallback draft quotes

The gate reads the users' examples, the draft quotes them and the first three
answers, and `validate_skill` reads the draft with a list of terms and a
length of its own. So an eligible item may have a draft that names what must
not be kept, and its write ends the run with an exception.

`occurs_content_iff` says where a term can occur in a draft, and
`fallback_accepted_iff` which clusters have a draft that is written.
-/

namespace Aegora

open Py Occurrences

/-! ## The parts of a draft -/

def contentHead : List Char :=
  ['适', '用', '场', '景', '：', '用', '户', '提', '出', '与', '以', '下', '样', '例', '相', '近', '的', '问', '题',
    '。']

def contentMiddle : List Char :=
  ['已', '验', '证', '处', '理', '样', '例', '（', '仅', '作', '为', '策', '略', '证', '据', '，', '发', '布', '前',
    '仍', '需', '评', '测', '和', '人', '工', '审', '核', '）', '：']

def contentTail : List Char :=
  ['处', '理', '建', '议', '：', '提', '炼', '上', '述', '成', '功', '样', '例', '中', '的', '稳', '定', '步', '骤',
    '；', '涉', '及', '产', '品', '事', '实', '时', '继', '续', '以', ' ', 'F', 'A', 'Q', '/', 'R', 'A', 'G',
    ' ', '或', '业', '务', '工', '具', '结', '果', '为', '准', '，', '不', '把', '历', '史', '回', '复', '中', '的',
    '易', '变', '事', '实', '固', '化', '为', ' ', 'S', 'k', 'i', 'l', 'l', '。']

def descriptionHead : List Char := [' ', '用', '户', '咨']

def descriptionTail : List Char := ['的', '客', '服', '处', '理', '策', '略', '。']

theorem toList_bullets (texts : List String) :
    (bullets texts).toList
      = List.intercalate ['\n'] (texts.map fun text => '-' :: ' ' :: text.toList) := by
  unfold bullets
  have hdash : "- ".toList = ['-', ' '] := by decide +kernel
  rw [String.toList_intercalate, List.map_map]
  exact congrArg₂ List.intercalate (by decide +kernel) (List.map_congr_left fun text _ => by
    rw [Function.comp_apply, String.toList_append, hdash]
    rfl)

theorem toList_content (item : ProceduralItem) :
    (buildSkillContent (.procedural item)).toList
      = contentHead ++ '\n' :: ((bullets (item.examples.take 5)).toList ++ '\n' ::
        ('\n' :: contentMiddle ++ '\n' ::
          ((bullets (item.successfulResponseExamples.take 3)).toList ++ '\n' ::
            ('\n' :: contentTail)))) := by
  have hhead : "适用场景：用户提出与以下样例相近的问题。\n".toList = contentHead ++ ['\n'] :=
    String.toList_ofList (l := contentHead ++ ['\n'])
  have hmiddle : "\n\n已验证处理样例（仅作为策略证据，发布前仍需评测和人工审核）：\n".toList
      = '\n' :: '\n' :: contentMiddle ++ ['\n'] :=
    String.toList_ofList (l := '\n' :: '\n' :: contentMiddle ++ ['\n'])
  have htail : "\n\n处理建议：提炼上述成功样例中的稳定步骤；涉及产品事实时继续以 FAQ/RAG ".toList
      ++ "或业务工具结果为准，不把历史回复中的易变事实固化为 Skill。".toList
      = '\n' :: '\n' :: contentTail := by
    rw [show "\n\n处理建议：提炼上述成功样例中的稳定步骤；涉及产品事实时继续以 FAQ/RAG ".toList
        = '\n' :: '\n' :: contentTail.take 39 from
      String.toList_ofList (l := '\n' :: '\n' :: contentTail.take 39),
      show "或业务工具结果为准，不把历史回复中的易变事实固化为 Skill。".toList
        = contentTail.drop 39 from String.toList_ofList (l := contentTail.drop 39)]
    rfl
  unfold buildSkillContent
  simp only [String.toList_append, List.append_assoc, htail, hhead, hmiddle]
  simp

/-! ## Where a term can occur -/

/-- The texts of the draft that are the code's own. -/
def ownTexts : List (List Char) :=
  [contentHead, contentMiddle, contentTail, contentTail ++ descriptionHead, descriptionTail]

def loweredOwn (text : List Char) : List Char :=
  text.map fun c => if c.toNat < 128 then c.toLower else c

/-- A term that the code's own texts neither contain nor complete. -/
structure PlainTerm (term : List Char) : Prop where
  nonempty : term ≠ []
  noSigma : NoSigma term
  separated : ∀ c ∈ ['\n', '询', '时'], c ∉ term
  begins : ∀ c ∈ ['-', ' '], term.head? ≠ some c
  notOwn : ∀ text ∈ ownTexts, ¬ term <:+: loweredOwn text

/-- Every term of the two lists is one. -/
theorem plainTerm_of_mem {term : String} (h : term ∈ proceduralSafetyTerms ++ sensitiveTerms) :
    PlainTerm term.toList := by
  have hterms : ∀ term ∈ proceduralSafetyTerms ++ sensitiveTerms,
      term.toList ≠ [] ∧ NoSigma term.toList
        ∧ ['\n', '询', '时'].all (fun c => c ∉ term.toList) = true
        ∧ ['-', ' '].all (fun c => term.toList.head? ≠ some c) = true
        ∧ ∀ text ∈ ownTexts, ¬ term.toList <:+: loweredOwn text := by
    decide +kernel
  obtain ⟨h₁, h₂, h₃, h₄, h₅⟩ := hterms term h
  exact ⟨h₁, h₂, List.all_iff_forall_prop.mp h₃, List.all_iff_forall_prop.mp h₄, h₅⟩

section

variable {lower : String → String} {lowerChar : Char → List Char} {term : List Char}
  (h : Lowering lower lowerChar) (hterm : PlainTerm term)

include h

theorem lowerChar_ascii {c : Char} (hc : c.toNat < 128 ∧ c.toLower = c) : lowerChar c = [c] := by
  rw [h.ascii c hc.1, hc.2]

theorem flatMap_own {text : List Char} (htext : text ∈ ownTexts) :
    text.flatMap lowerChar = loweredOwn text := by
  have hown : ∀ text ∈ ownTexts, text.all (fun c => c.toNat < 128 ∨ Caseless c) = true := by
    decide +kernel
  exact h.flatMap_plain (List.all_iff_forall_prop.mp (hown text htext))

include hterm

theorem infix_own {text : List Char} (htext : text ∈ ownTexts) :
    ¬ term <:+: text.flatMap lowerChar := by
  rw [flatMap_own h htext]
  exact hterm.notOwn text htext

theorem infix_bullets_iff (texts : List String) :
    term <:+: (bullets texts).toList.flatMap lowerChar
      ↔ ∃ text ∈ texts, term <:+: text.toList.flatMap lowerChar := by
  have hplain : ∀ c ∈ ['-', ' '], c.toNat < 128 ∧ c.toLower = c :=
    List.all_iff_forall_prop.mp (by decide)
  have hbegins : ∀ c ∈ ['-', ' '], lowerChar c = [c] := fun c hc =>
    lowerChar_ascii h (hplain c hc)
  have hnewline : ['\n'].flatMap lowerChar = ['\n'] := by
    rw [List.flatMap_cons, List.flatMap_nil, List.append_nil, lowerChar_ascii h (by decide)]
  rw [toList_bullets, flatMap_intercalate, hnewline,
    infix_intercalate_iff hterm.nonempty (hterm.separated _ (by decide))]
  simp only [List.mem_map, exists_exists_and_eq_and]
  refine exists_congr fun text => and_congr_right fun _ => ?_
  rw [List.flatMap_cons, List.flatMap_cons, hbegins _ (by decide), hbegins _ (by decide),
    List.singleton_append, List.singleton_append,
    infix_cons_iff_of_head (hterm.begins _ (by decide)),
    infix_cons_iff_of_head (hterm.begins _ (by decide))]

/-- A term in the content, or in a text that starts with it. -/
theorem infix_content_iff (item : ProceduralItem) (rest : List Char) :
    term <:+: ((buildSkillContent (.procedural item)).toList ++ rest).flatMap lowerChar
      ↔ (∃ text ∈ item.examples.take 5, term <:+: text.toList.flatMap lowerChar)
        ∨ (∃ text ∈ item.successfulResponseExamples.take 3,
            term <:+: text.toList.flatMap lowerChar)
        ∨ term <:+: (contentTail ++ rest).flatMap lowerChar := by
  have hnewline : lowerChar '\n' = ['\n'] := lowerChar_ascii h (by decide)
  have hsplit : ∀ before after, term <:+: before ++ '\n' :: after
      ↔ term <:+: before ∨ term <:+: after := fun before after =>
    infix_append_cons_iff (hterm.separated _ (by decide))
  have hstart : ∀ after, term <:+: '\n' :: after ↔ term <:+: after := fun after =>
    infix_cons_iff_of_head fun hhead =>
      hterm.separated _ (by decide) (List.mem_of_mem_head? hhead)
  rw [toList_content]
  simp only [List.append_assoc, List.cons_append, List.flatMap_append, List.flatMap_cons, hnewline,
    List.nil_append, hsplit, hstart, infix_bullets_iff h hterm]
  have hhead : ¬ term <:+: contentHead.flatMap lowerChar :=
    infix_own h hterm (by simp [ownTexts])
  have hmiddle : ¬ term <:+: contentMiddle.flatMap lowerChar :=
    infix_own h hterm (by simp [ownTexts])
  simp only [hhead, hmiddle, false_or]

end

variable {lower : String → String} {lowerChar : Char → List Char} {term : String}

theorem occursIn_lower_iff (h : Lowering lower lowerChar)
    (hterm : term ∈ proceduralSafetyTerms ++ sensitiveTerms) (text : String) :
    occursIn term (lower text) = true ↔ term.toList <:+: text.toList.flatMap lowerChar := by
  unfold occursIn
  rw [decide_eq_true_eq, h.occurs_lower_iff (plainTerm_of_mem hterm).noSigma]

/-- A term in a draft is in one of the examples or answers that the draft quotes. -/
theorem occursIn_content_iff (h : Lowering lower lowerChar)
    (hterm : term ∈ proceduralSafetyTerms ++ sensitiveTerms) (item : ProceduralItem) :
    occursIn term (lower (buildSkillContent (.procedural item))) = true
      ↔ (∃ text ∈ item.examples.take 5, occursIn term (lower text) = true)
        ∨ ∃ text ∈ item.successfulResponseExamples.take 3, occursIn term (lower text) = true := by
  have hplain := plainTerm_of_mem hterm
  have hown : ¬ term.toList <:+: (contentTail ++ []).flatMap lowerChar := by
    rw [List.append_nil]
    exact infix_own h hplain (by simp [ownTexts])
  simp only [occursIn_lower_iff h hterm]
  rw [← List.append_nil (buildSkillContent (.procedural item)).toList,
    infix_content_iff h hplain item []]
  simp only [hown, or_false]

/-- `f"用户咨询{title}时的客服处理策略。"` -/
def fallbackDescription (title : String) : String := "用户咨询" ++ title ++ "时的客服处理策略。"

/-- And for `validate_skill` it may also be in the title. -/
theorem occursIn_skill_iff (h : Lowering lower lowerChar)
    (hterm : term ∈ proceduralSafetyTerms ++ sensitiveTerms) (item : ProceduralItem)
    (title : String) :
    occursIn term (lower (buildSkillContent (.procedural item) ++ " "
        ++ fallbackDescription title)) = true
      ↔ occursIn term (lower (buildSkillContent (.procedural item))) = true
        ∨ occursIn term (lower title) = true := by
  have hplain := plainTerm_of_mem hterm
  have hrest : " ".toList ++ (fallbackDescription title).toList
      = descriptionHead ++ '询' :: (title.toList ++ '时' :: descriptionTail) := by
    have hbefore : " ".toList ++ "用户咨询".toList = descriptionHead ++ ['询'] := by
      rw [show " ".toList = [' '] from String.toList_ofList (l := [' ']),
        show "用户咨询".toList = ['用', '户', '咨', '询'] from
          String.toList_ofList (l := ['用', '户', '咨', '询'])]
      rfl
    have hafter : "时的客服处理策略。".toList = '时' :: descriptionTail :=
      String.toList_ofList (l := '时' :: descriptionTail)
    unfold fallbackDescription
    rw [String.toList_append, String.toList_append, ← List.append_assoc, ← List.append_assoc,
      hbefore, hafter]
    simp
  have hbetween : ∀ c ∈ ['询', '时'], Caseless c :=
    List.all_iff_forall_prop.mp (by decide)
  have hcaseless : ∀ c ∈ ['询', '时'], lowerChar c = [c] := fun c hc =>
    h.caseless c (hbetween c hc)
  have hhead : ¬ term.toList <:+: (contentTail ++ descriptionHead).flatMap lowerChar :=
    infix_own h hplain (by simp [ownTexts])
  have htail : ¬ term.toList <:+: descriptionTail.flatMap lowerChar :=
    infix_own h hplain (by simp [ownTexts])
  rw [occursIn_content_iff h hterm]
  simp only [occursIn_lower_iff h hterm]
  have hparts : (contentTail ++ (" ".toList ++ (fallbackDescription title).toList)).flatMap
        lowerChar
      = (contentTail ++ descriptionHead).flatMap lowerChar
        ++ '询' :: (title.toList.flatMap lowerChar ++ '时' :: descriptionTail.flatMap lowerChar) := by
    rw [hrest]
    simp only [List.flatMap_append, List.flatMap_cons, hcaseless '询' (by decide),
      hcaseless '时' (by decide), List.append_assoc, List.singleton_append]
  rw [String.toList_append, String.toList_append, List.append_assoc,
    infix_content_iff h hplain item, hparts,
    infix_append_cons_iff (hplain.separated _ (by decide)),
    infix_append_cons_iff (hplain.separated _ (by decide))]
  simp only [hhead, htail, false_or, or_false, or_assoc]

/-! ## What `validate_skill` says to it -/

variable {env : SkillEnv} {item : ProceduralItem}

/-- The fallback draft as it is validated. -/
def validatedDraft (env : SkillEnv) (item : ProceduralItem) : Dict :=
  Dict.merge (fallbackSkillDraftFromItem env (.procedural item)) [("status", .str "draft")]

theorem strip_ne_empty {text : String} {c : Char} (hc : c ∈ text.toList)
    (hspace : isSpace c = false) : strip text ≠ "" := by
  intro hempty
  have hchars : stripChars text.toList = [] := by
    rw [← String.toList_ofList (l := stripChars text.toList)]
    exact (congrArg String.toList hempty).trans String.toList_empty
  unfold stripChars at hchars
  rw [List.reverse_eq_nil_iff, List.dropWhile_eq_nil_iff] at hchars
  rw [← List.takeWhile_append_dropWhile (p := isSpace) (l := text.toList)] at hc
  have hall : isSpace c = true := by
    rcases List.mem_append.mp hc with hfront | hrest
    · exact List.mem_takeWhile_imp hfront
    · exact hchars c (List.mem_reverse.mpr hrest)
  rw [hspace] at hall
  cases hall

theorem strip_content (item : ProceduralItem) :
    strip (buildSkillContent (.procedural item)) ≠ "" := by
  refine strip_ne_empty (c := '适') ?_ (by decide)
  rw [toList_content]
  exact List.mem_append_left _ (by decide +kernel)

theorem strip_description (title : String) : strip (fallbackDescription title) ≠ "" := by
  refine strip_ne_empty (c := '用') ?_ (by decide)
  unfold fallbackDescription
  rw [String.toList_append, String.toList_append, List.append_assoc]
  exact List.mem_append_left _ (by decide +kernel)

/-- The name of a fallback draft is one of four. -/
theorem strip_name (hlower : env.lower "" = "") (item : ReflectionItem) :
    strip (semanticName env.lower "" item) ≠ "" := by
  have hnames : ∀ key, strip (fallbackName key) ≠ "" := by
    intro key
    unfold fallbackName
    split_ifs <;> decide +kernel
  unfold semanticName
  rw [hlower]
  exact hnames _

theorem triggerRuleErrors_validatedDraft (env : SkillEnv) (item : ProceduralItem) :
    triggerRuleErrors (validatedDraft env item) = [] := by
  have hrules : Dict.get (validatedDraft env item) "trigger_rules"
      = .obj [("trigger_examples", textArr ((draftExamples (.procedural item)).take 5))] := by
    simp [validatedDraft, fallbackSkillDraftFromItem, Dict.get, Dict.get?_merge, Dict.get?_cons]
  have htexts : ∀ text ∈ (draftExamples (.procedural item)).take 5, strip text ≠ "" := by
    intro text htext
    obtain ⟨hmem, hname⟩ := List.mem_filter.mp (List.mem_of_mem_take htext)
    obtain ⟨example', -, rfl⟩ := List.mem_map.mp hmem
    rw [strip_strip]
    simpa using hname
  have hitems : (textArr ((draftExamples (.procedural item)).take 5)).asList?
      = some (((draftExamples (.procedural item)).take 5).map Json.str) := rfl
  unfold triggerRuleErrors
  rw [hrules]
  simp only [Json.orElse, Json.truthy, List.isEmpty_cons, Bool.not_false, if_true,
    List.flatMap_cons, List.flatMap_nil, List.append_nil]
  unfold ruleErrors
  rw [if_neg (not_not.mpr (by simp [ruleListFields])), expect_eq_nil, hitems, Option.map_some,
    Option.getD_some, List.all_map, List.all_eq_true]
  intro text htext
  rw [Function.comp_apply]
  exact isText_str.mpr (htexts text htext)

theorem validate_fallback_iff (hlower : env.lower "" = "") :
    validateSkill env.lower (validatedDraft env item) env.maxContentChars = .ok []
      ↔ strip (summarizeTitle item.clusterTitle) ≠ ""
        ∧ (buildSkillContent (.procedural item)).length ≤ env.maxContentChars
        ∧ ∀ term ∈ sensitiveTerms,
          occursIn term (env.lower (buildSkillContent (.procedural item) ++ " "
            ++ fallbackDescription (summarizeTitle item.clusterTitle))) = false := by
  have hnamed := isText_str.mpr (strip_name hlower (.procedural item))
  have hcontent := isText_str.mpr (strip_content item)
  have hdescribed := isText_str.mpr (strip_description (summarizeTitle item.clusterTitle))
  have hguidance : memberOf (.str "guidance") skillTypes = .ok true := by decide
  have hagent : memberOf (.str "agent") skillSources = .ok true := by decide
  have hdraft : memberOf (.str "draft") skillStatuses = .ok true := by decide
  have hpriority : priorityOk (.int 0) = true := by decide
  unfold validateSkill
  rw [triggerRuleErrors_validatedDraft]
  unfold fallbackDescription at hdescribed
  simp [validatedDraft, fallbackSkillDraftFromItem, Dict.get, Dict.getD, Dict.get?_merge,
    Dict.get?_cons, hguidance, hagent, hdraft, hpriority, bind, Except.bind, pure, Except.pure,
    ReflectionItem.clusterTitle, Json.asStr?, hnamed, hcontent, hdescribed, fallbackDescription,
    isText_str]

/-! ## Its length -/

/-- How long the list of some texts is. -/
def bulletsLength (texts : List String) : Nat := (texts.map fun text => text.length + 3).sum - 1

theorem length_bullets (texts : List String) : (bullets texts).length = bulletsLength texts := by
  unfold bulletsLength
  rw [← String.length_toList, toList_bullets, length_intercalate_singleton, List.map_map]
  rfl

/-- A draft that quotes nothing. -/
def emptyDraftLength : Nat := 127

theorem length_content (item : ProceduralItem) :
    (buildSkillContent (.procedural item)).length
      = emptyDraftLength + bulletsLength (item.examples.take 5)
        + bulletsLength (item.successfulResponseExamples.take 3) := by
  have hhead : contentHead.length = 20 := by decide +kernel
  have hmiddle : contentMiddle.length = 30 := by decide +kernel
  have htail : contentTail.length = 71 := by decide +kernel
  rw [← String.length_toList, toList_content]
  simp only [List.length_append, List.length_cons, hhead, hmiddle, htail, String.length_toList,
    length_bullets, emptyDraftLength]
  omega

/-! ## Which clusters have a draft that is written -/

namespace Cluster

variable (c : Cluster)

/-- The examples a draft quotes. -/
def quotedExamples : List String := (cleanExamples c.examples).take 5

/-- The answers a draft quotes. -/
def quotedAnswers : List String := (cleanExamples c.successfulResponseExamples).take 3

/-- What the title of a draft is made from. -/
def titleText : String := takeText 160 (if c.title = "" then "procedural memory" else c.title)

/-- The quoted texts name nothing that must not be kept, the title is one, and they fit. -/
structure FallbackFits (env : SkillEnv) : Prop where
  answers : ∀ text ∈ c.quotedAnswers, ∀ term ∈ proceduralSafetyTerms ++ sensitiveTerms,
    occursIn term (env.lower text) = false
  examples : ∀ text ∈ c.quotedExamples, occursIn "api_key" (env.lower text) = false
  titled : strip (summarizeTitle c.titleText) ≠ ""
  title : ∀ term ∈ sensitiveTerms, occursIn term (env.lower (summarizeTitle c.titleText)) = false
  short : emptyDraftLength + bulletsLength c.quotedExamples + bulletsLength c.quotedAnswers
    ≤ env.maxContentChars

end Cluster

/-- The fallback draft of an item names no safety term, and writing it raises nothing. -/
structure FallbackAccepted (env : SkillEnv) (item : ProceduralItem) : Prop where
  harmless : ∀ term ∈ proceduralSafetyTerms,
    occursIn term (env.lower (buildSkillContent (.procedural item))) = false
  valid : validateSkill env.lower (validatedDraft env item) env.maxContentChars = .ok []
  written : ∀ skills : SkillCollection, ∃ stored,
    writeSkillDraft env skills (fallbackSkillDraftFromItem env (.procedural item)) = .ok stored

theorem fallbackAccepted_iff :
    FallbackAccepted env item
      ↔ (∀ term ∈ proceduralSafetyTerms,
          occursIn term (env.lower (buildSkillContent (.procedural item))) = false)
        ∧ validateSkill env.lower (validatedDraft env item) env.maxContentChars = .ok [] := by
  refine ⟨fun h => ⟨h.harmless, h.valid⟩, fun ⟨hharmless, hvalid⟩ => ⟨hharmless, hvalid, ?_⟩⟩
  intro skills
  have hpriority : (Dict.getD (fallbackSkillDraftFromItem env (.procedural item)) "priority"
      (.int 0)).pyInt = .ok 0 := by
    simp [fallbackSkillDraftFromItem, Dict.getD, Dict.get?_cons, Json.pyInt]
  exact ⟨_, writeSkillDraft_eq_ok.mpr ⟨hvalid, 0, hpriority, rfl⟩⟩

/-- The gate read every example that is quoted. -/
theorem examples_harmless (h : Lowering env.lower lowerChar) {examples : List String}
    (hgate : sensitiveExamples env.lower examples = false) {text : String}
    (htext : text ∈ examples) (hterm : term ∈ proceduralSafetyTerms) :
    occursIn term (env.lower text) = false := by
  have hmem : term ∈ proceduralSafetyTerms ++ sensitiveTerms := List.mem_append_left _ hterm
  rw [Bool.eq_false_iff]
  intro hoccurs
  have hjoin : occursIn term (env.lower (" ".intercalate examples)) = true := by
    rw [occursIn_lower_iff h hmem] at hoccurs ⊢
    refine hoccurs.trans (infix_flatMap lowerChar ?_)
    rw [String.toList_intercalate]
    exact infix_intercalate_of_mem (List.mem_map_of_mem htext)
  have hany : sensitiveExamples env.lower examples = true :=
    List.any_eq_true.mpr ⟨term, hterm, hjoin⟩
  rw [hgate] at hany
  cases hany

/-- Of the terms of `validate_skill` the gate knows all but one. -/
theorem sensitive_known (hterm : term ∈ sensitiveTerms) :
    term = "api_key" ∨ term ∈ proceduralSafetyTerms := by
  revert term
  decide

/-- The fallback draft of an eligible cluster is accepted exactly when its content fits and
none of the terms of `validate_skill` occurs in what it quotes. Where a term can occur is
settled once for the draft; the examples have passed the gate, the answers have not. -/
theorem fallback_accepted_iff {env : LearningEnv} {policy : ProceduralPromotionPolicy}
    (h : Lowering env.lower lowerChar) {c : Cluster}
    (heligible : (buildProceduralItem env policy c).promotionStatus = .eligible) (id : Nat)
    (memoryCandidateIds : List Int) :
    FallbackAccepted env.toSkillEnv
        ((buildProceduralItem env policy c).stored id memoryCandidateIds)
      ↔ c.FallbackFits env.toSkillEnv := by
  obtain ⟨hgates, -⟩ := eligible_iff.mp heligible
  set item := (buildProceduralItem env policy c).stored id memoryCandidateIds with hitem
  have hexamples : item.examples.take 5 = c.quotedExamples := by
    rw [hitem]
    exact List.take_take
  have hanswers : item.successfulResponseExamples.take 3 = c.quotedAnswers := by
    rw [hitem]
    exact List.take_take
  have htitle : item.clusterTitle = c.titleText := rfl
  have hknown : ∀ term ∈ proceduralSafetyTerms, ∀ text ∈ c.quotedExamples,
      occursIn term (env.lower text) = false := fun term hterm text htext =>
    examples_harmless h hgates.harmless (List.mem_of_mem_take htext) hterm
  have hcontent : ∀ term ∈ proceduralSafetyTerms ++ sensitiveTerms,
      occursIn term (env.lower (buildSkillContent (.procedural item))) = false
        ↔ (∀ text ∈ c.quotedExamples, occursIn term (env.lower text) = false)
          ∧ ∀ text ∈ c.quotedAnswers, occursIn term (env.lower text) = false := by
    intro term hterm
    have hiff := occursIn_content_iff h hterm item
    rw [hexamples, hanswers] at hiff
    rw [Bool.eq_false_iff, ne_eq, hiff]
    simp only [not_or, not_exists, not_and, Bool.not_eq_true]
  have hskill : ∀ term ∈ sensitiveTerms,
      occursIn term (env.lower (buildSkillContent (.procedural item) ++ " "
          ++ fallbackDescription (summarizeTitle item.clusterTitle))) = false
        ↔ occursIn term (env.lower (buildSkillContent (.procedural item))) = false
          ∧ occursIn term (env.lower (summarizeTitle c.titleText)) = false := by
    intro term hterm
    rw [Bool.eq_false_iff, ne_eq,
      occursIn_skill_iff h (List.mem_append_right _ hterm) item (summarizeTitle item.clusterTitle)]
    simp only [not_or, Bool.not_eq_true, htitle]
  rw [fallbackAccepted_iff, validate_fallback_iff h.lower_empty, length_content, hexamples,
    hanswers, htitle]
  constructor
  · rintro ⟨hharmless, htitled, hshort, hvalid⟩
    refine ⟨?_, ?_, htitled, fun term hterm => ((hskill term hterm).mp (hvalid term hterm)).2,
      hshort⟩
    · intro text htext term hterm
      rcases List.mem_append.mp hterm with hsafety | hsensitive
      · exact ((hcontent term hterm).mp (hharmless term hsafety)).2 text htext
      · exact ((hcontent term hterm).mp
          ((hskill term hsensitive).mp (hvalid term hsensitive)).1).2 text htext
    · intro text htext
      have hapi : "api_key" ∈ sensitiveTerms := by simp [sensitiveTerms]
      exact ((hcontent _ (List.mem_append_right _ hapi)).mp
        ((hskill _ hapi).mp (hvalid _ hapi)).1).1 text htext
  · intro hfits
    refine ⟨fun term hterm => ?_, hfits.titled, hfits.short, fun term hterm => ?_⟩
    · have hmem : term ∈ proceduralSafetyTerms ++ sensitiveTerms := List.mem_append_left _ hterm
      exact (hcontent term hmem).mpr
        ⟨hknown term hterm, fun text htext => hfits.answers text htext term hmem⟩
    · have hmem : term ∈ proceduralSafetyTerms ++ sensitiveTerms := List.mem_append_right _ hterm
      refine (hskill term hterm).mpr ⟨(hcontent term hmem).mpr
        ⟨fun text htext => ?_, fun text htext => hfits.answers text htext term hmem⟩,
        hfits.title term hterm⟩
      rcases sensitive_known hterm with rfl | hsafety
      · exact hfits.examples text htext
      · exact hknown term hsafety text htext

/-! ## The run -/

/-- When every eligible item has such a draft and the model is not asked, no item ends the run. -/
theorem learn_raises_nothing {env : LearningEnv} (run : ReflectionRun)
    (hreply : ∀ item, run.reply item = none) {item : ProceduralItem}
    (hitem : item.promotionStatus = .eligible → ∀ id ids,
      FallbackAccepted env.toSkillEnv (item.stored id ids)) (s : ReflectionState) :
    (run.learn env s item).2 = none := by
  unfold ReflectionRun.learn
  dsimp only
  split
  · rename_i hdraft
    have haccepted := hitem hdraft.1 (s.memories.upsert (run.located item)).2.id
      (run.memoryCandidateIds item.sourceTraceIds)
    obtain ⟨⟨skills, reference⟩, hwrite⟩ := haccepted.written s.skills
    have hfallback : run.draftOf env (.procedural { run.located item with
          proceduralMemoryId := some (s.memories.upsert (run.located item)).2.id })
        = fallbackSkillDraftFromItem env.toSkillEnv (.procedural
          (item.stored (s.memories.upsert (run.located item)).2.id
            (run.memoryCandidateIds item.sourceTraceIds))) := by
      unfold ReflectionRun.draftOf
      rw [hreply]
      rfl
    unfold ReflectionRun.draftMemory
    dsimp only
    rw [hfallback, hwrite]
  · rfl

theorem reflection_raises_nothing {env : LearningEnv} (h : Lowering env.lower lowerChar)
    {run : ReflectionRun} (hreply : ∀ item, run.reply item = none) (s : ReflectionState)
    (hreports : (run.draftReports env s).2 = none)
    (hfits : ∀ c ∈ run.clusters env,
      (buildProceduralItem env run.policy c).promotionStatus = .eligible →
        c.FallbackFits env.toSkillEnv) :
    (runWeeklyReflection env s run).2 = none := by
  have hitems : ∀ items : List ProceduralItem,
      (∀ item ∈ items, item.promotionStatus = .eligible → ∀ id ids,
        FallbackAccepted env.toSkillEnv (item.stored id ids)) →
      ∀ t, (forEach (run.learn env) t items).2 = none := by
    intro items
    induction items with
    | nil => exact fun _ _ => rfl
    | cons item items ih =>
        intro haccepted t
        have hlearn := learn_raises_nothing run hreply
          (haccepted item List.mem_cons_self) t
        unfold forEach
        rcases hstep : run.learn env t item with ⟨u, message | message⟩
        · exact ih (fun other hother => haccepted other (List.mem_cons_of_mem _ hother)) u
        · rw [hstep] at hlearn
          cases hlearn
  unfold runWeeklyReflection
  split
  · rfl
  · rcases hloop : run.draftReports env s with ⟨t, message | message⟩
    · refine hitems _ (fun item hitem heligible id ids => ?_) t
      unfold ReflectionRun.proceduralItems at hitem
      split at hitem
      · obtain ⟨c, hc, rfl⟩ := List.mem_map.mp hitem
        exact (fallback_accepted_iff h heligible id ids).mpr
          (hfits c (List.mem_of_mem_filter hc) heligible)
      · cases hitem
    · rw [hloop] at hreports
      cases hreports

/-! ## Answers that name a password -/

/-- The letters of ASCII have their lower case. -/
def asciiEnv : LearningEnv :=
  { refundEnv with lower := fun text => String.ofList (text.toList.map Char.toLower) }

theorem asciiEnv_lowering : Lowering asciiEnv.lower fun c => [c.toLower] where
  chars := by
    intro text
    have hlower : (asciiEnv.lower text).toList = text.toList.map Char.toLower :=
      String.toList_ofList
    rw [hlower, ← List.map_eq_flatMap]
  ascii := fun _ _ => rfl
  caseless := by
    intro c hc
    have hcase : ¬ (c.val ≥ 'A'.val ∧ c.val ≤ 'Z'.val) := by
      rintro ⟨-, hupper⟩
      have hsmall : c.toNat ≤ 90 := UInt32.le_iff_toNat_le.mp hupper
      unfold Caseless at hc
      omega
    unfold Char.toLower
    rw [dif_neg hcase]

/-- A week in which two of three questions were answered well. -/
def answeredWeek (answer : String) : ReflectionRun where
  messages := ["t1", "t2", "t3"].map refundQuestion
    ++ ["t1", "t2"].map fun trace =>
      [("role", .str "assistant"), ("content", .str (answer ++ trace)), ("trace_id", .str trace)]
  feedback := ["t1", "t2"].map fun trace =>
    [("trace_id", .str trace), ("rating", .str "positive")]
  dryRun := false
  writeDrafts := true
  minClusterSize := 3
  minNegativeFeedback := 1
  proceduralEnabled := true
  policy := defaultPromotionPolicy
  reply := fun _ => none
  memoryCandidateIds := fun _ => []

/-- The cluster of that week. -/
def answeredCluster (answer : String) : Cluster :=
  buildCluster asciiEnv.lower ((answeredWeek answer).feedbackOf)
    (["t1", "t2", "t3"].map refundQuestion)

theorem fallback_accepted_answers :
    FallbackAccepted asciiEnv.toSkillEnv
        ((buildProceduralItem asciiEnv {} (answeredCluster "check ")).stored 1 [])
      ↔ (answeredCluster "check ").FallbackFits asciiEnv.toSkillEnv :=
  fallback_accepted_iff asciiEnv_lowering (by decide +kernel) 1 []

/-- The cluster of the week is eligible, its draft names a password and is not written. -/
theorem password_answers_refused :
    ∃ c ∈ (answeredWeek "先核对密码 ").clusters asciiEnv,
      (buildProceduralItem asciiEnv {} c).promotionStatus = .eligible
        ∧ occursIn "密码" (asciiEnv.lower (buildSkillContent (.procedural
          ((buildProceduralItem asciiEnv {} c).stored 1 [])))) = true
        ∧ validateSkill asciiEnv.lower (validatedDraft asciiEnv.toSkillEnv
          ((buildProceduralItem asciiEnv {} c).stored 1 [])) asciiEnv.maxContentChars ≠ .ok [] := by
  have hterm : "密码" ∈ proceduralSafetyTerms ++ sensitiveTerms := by simp [proceduralSafetyTerms]
  have hsensitive : "密码" ∈ sensitiveTerms := by simp [sensitiveTerms]
  have hcontent : occursIn "密码" (asciiEnv.lower (buildSkillContent (.procedural
      ((buildProceduralItem asciiEnv {} (answeredCluster "先核对密码 ")).stored 1 [])))) = true :=
    (occursIn_content_iff asciiEnv_lowering hterm _).mpr
      (Or.inr ⟨"先核对密码 t1", by decide +kernel, by decide +kernel⟩)
  refine ⟨answeredCluster "先核对密码 ", by decide +kernel, by decide +kernel, hcontent,
    fun hvalid => ?_⟩
  have hskill := ((validate_fallback_iff asciiEnv_lowering.lower_empty).mp hvalid).2.2 "密码"
    hsensitive
  rw [(occursIn_skill_iff asciiEnv_lowering hterm _ _).mpr (Or.inl hcontent)] at hskill
  cases hskill

end Aegora
