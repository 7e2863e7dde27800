import Aegora.Grouping
import Aegora.Reflection
import Mathlib.Data.Finset.Card

/-!
# What the rule clusters are

`cluster_user_messages_by_rule` divides the messages that may be learned from
by Agent and text key. The buckets are a grouping (`ruleBuckets_eq`), each
holds the messages of its key, and a cluster counts the different traces of
its bucket (`ClusterOf`). Two clusters of Agents differ in the Agent or in the
key, and their fingerprints differ because a text key has no line break.
-/

namespace Aegora

open Py

/-- What is known of `str.lower`: a blank is kept and ends a word, a letter in lower case
stays as it is. -/
structure LowersText (lower : String → String) : Prop where
  blanks : ∀ (front back : List Char) (text : String), (∀ c ∈ front ++ back, isSpace c = true) →
    (lower (String.ofList (front ++ text.toList ++ back))).toList
      = front ++ (lower text).toList ++ back
  fixed : ∀ text part : String, (∀ c ∈ part.toList, c ∈ (lower text).toList) → lower part = part
  plain : ∀ text : String, (∀ c ∈ text.toList, c.toNat < 128 ∧ c.toLower = c) → lower text = text

/-! ## Buckets -/

/-- The Agent and the text key of a message. -/
def ruleKey (lower : String → String) (row : Dict) : String × String :=
  (messageAgentId row, clusterKey lower (Dict.get row "content").pyStr)

/-- `rows.append(row)` -/
def appendRow (rows : Option (List Dict)) (row : Dict) : List Dict := rows.getD [] ++ [row]

theorem addToBucket_eq_put {key : String × String} {row : Dict}
    {buckets : List ((String × String) × List Dict)} (h : (buckets.map Prod.fst).Nodup) :
    addToBucket key row buckets = Grouping.put appendRow buckets (key, row) := by
  induction buckets with
  | nil => rfl
  | cons bucket buckets ih =>
      obtain ⟨k, rows⟩ := bucket
      obtain ⟨hk, hrest⟩ := List.nodup_cons.mp h
      have ih := ih hrest
      unfold addToBucket
      unfold Grouping.put at ih ⊢
      by_cases hkey : k = key
      · subst hkey
        have hsame : (buckets.map fun entry =>
            if entry.1 = k then (entry.1, appendRow (some entry.2) row) else entry) = buckets :=
          (List.map_congr_left fun entry hmem => if_neg fun heq =>
            hk (List.mem_map.mpr ⟨entry, hmem, heq⟩)).trans (List.map_id _)
        rw [if_pos rfl, if_pos (List.mem_map.mpr ⟨_, List.mem_cons_self, rfl⟩), List.map_cons,
          if_pos rfl, hsame]
        rfl
      · rw [if_neg hkey, ih, List.map_cons, List.map_cons, if_neg hkey]
        by_cases hmem : key ∈ buckets.map Prod.fst
        · rw [if_pos hmem, if_pos (List.mem_cons_of_mem _ hmem)]
        · have hnew : key ∉ k :: buckets.map Prod.fst := by
            rw [List.mem_cons, not_or]
            exact ⟨Ne.symm hkey, hmem⟩
          rw [if_neg hmem, if_neg hnew]
          rfl

/-- The buckets are the groups of the messages under their keys. -/
theorem ruleBuckets_eq (lower : String → String) (messages : List Dict) :
    ruleBuckets lower messages
      = Grouping.group appendRow
          ((messages.filter isEvidence).map fun row => (ruleKey lower row, row)) := by
  unfold ruleBuckets
  induction messages.filter isEvidence using List.reverseRecOn with
  | nil => rfl
  | append_singleton rows row ih =>
      rw [List.foldl_append, ih, List.map_append, List.map_singleton, Grouping.group_concat]
      exact addToBucket_eq_put (Grouping.nodup_keys_group _ _)

theorem gather_appendRow (rows : List Dict) :
    Grouping.gather appendRow rows = if rows = [] then none else some rows := by
  induction rows using List.reverseRecOn with
  | nil => rfl
  | append_singleton rows row ih =>
      rw [Grouping.gather_concat, ih, if_neg (List.append_ne_nil_of_right_ne_nil _ (by simp))]
      cases rows <;> rfl

/-- A bucket holds all messages of its key. -/
theorem mem_ruleBuckets {lower : String → String} {messages : List Dict} {key : String × String}
    {rows : List Dict} : (key, rows) ∈ ruleBuckets lower messages
      ↔ rows = messages.filter (fun row => isEvidence row && decide (ruleKey lower row = key))
          ∧ rows ≠ [] := by
  have hitems : Grouping.itemsAt
      ((messages.filter isEvidence).map fun row => (ruleKey lower row, row)) key
      = messages.filter fun row => isEvidence row && decide (ruleKey lower row = key) := by
    unfold Grouping.itemsAt
    rw [List.filter_map, List.map_map, List.filter_filter]
    refine (List.map_id _).trans (List.filter_congr fun row _ => ?_)
    exact Bool.and_comm _ _
  rw [ruleBuckets_eq, Grouping.mem_group_iff, hitems, gather_appendRow]
  split
  · rename_i hnil
    rw [hnil]
    simp
  · rename_i hne
    rw [Option.some.injEq]
    constructor
    · rintro rfl
      exact ⟨rfl, hne⟩
    · exact fun h => h.1.symm

theorem nodup_ruleBuckets (lower : String → String) (messages : List Dict) :
    ((ruleBuckets lower messages).map Prod.fst).Nodup := by
  rw [ruleBuckets_eq]
  exact Grouping.nodup_keys_group _ _

/-! ## Text keys -/

/-- A text is what is stripped off it and the rest. -/
theorem exists_strip_append (text : List Char) :
    ∃ front back, text = front ++ stripChars text ++ back
      ∧ ∀ c ∈ front ++ back, isSpace c = true := by
  set middle := text.dropWhile isSpace with hmiddle
  have hfront : text = text.takeWhile isSpace ++ middle := List.takeWhile_append_dropWhile.symm
  have hback : middle = stripChars text ++ (middle.reverse.takeWhile isSpace).reverse := by
    have hsplit := congrArg List.reverse
      (List.takeWhile_append_dropWhile (p := isSpace) (l := middle.reverse))
    rw [List.reverse_append, List.reverse_reverse] at hsplit
    exact hsplit.symm
  refine ⟨text.takeWhile isSpace, (middle.reverse.takeWhile isSpace).reverse, ?_, fun c hc => ?_⟩
  · rw [List.append_assoc, ← hback]
    exact hfront
  · rcases List.mem_append.mp hc with hc | hc
    · exact List.mem_takeWhile_imp hc
    · exact List.mem_takeWhile_imp (List.mem_reverse.mp hc)

section

variable {lower : String → String} (hlower : LowersText lower)

include hlower

/-- Blanks at the ends of a text do not show in its key. -/
theorem clusterKey_strip (text : String) :
    clusterKey lower (strip text) = clusterKey lower text := by
  obtain ⟨front, back, htext, hblank⟩ := exists_strip_append text.toList
  have hlow : (lower text).toList = front ++ (lower (strip text)).toList ++ back := by
    rw [← hlower.blanks front back (strip text) hblank]
    unfold strip
    rw [String.toList_ofList, ← htext, String.ofList_toList]
  have hdrop : ∀ blanks : List Char, (∀ c ∈ blanks, isSpace c = true) →
      blanks.filter (fun c => !isSpace c && decide (c ∉ punctuation)) = [] := fun blanks h =>
    List.filter_eq_nil_iff.mpr fun c hc => by simp [h c hc]
  unfold clusterKey
  rw [hlow, List.filter_append, List.filter_append,
    hdrop front fun c hc => hblank c (List.mem_append_left _ hc),
    hdrop back fun c hc => hblank c (List.mem_append_right _ hc), List.nil_append, List.append_nil]

/-- A key is never empty, is in lower case and has no blank. -/
theorem clusterKey_plain (text : String) :
    clusterKey lower text ≠ "" ∧ lower (clusterKey lower text) = clusterKey lower text
      ∧ ∀ c ∈ (clusterKey lower text).toList, isSpace c = false := by
  unfold clusterKey
  dsimp only
  split
  · have hletters : "empty".toList.all (fun c =>
        !isSpace c && decide (c.toNat < 128 ∧ c.toLower = c)) = true := by decide +kernel
    simp only [List.all_eq_true, Bool.and_eq_true, Bool.not_eq_true', decide_eq_true_eq]
      at hletters
    exact ⟨by decide, hlower.plain "empty" fun c hc => (hletters c hc).2,
      fun c hc => (hletters c hc).1⟩
  · rename_i hne
    have hsub : ∀ c ∈ ((lower text).toList.filter fun c =>
        !isSpace c && decide (c ∉ punctuation)).take 48,
        c ∈ (lower text).toList ∧ isSpace c = false := by
      intro c hc
      obtain ⟨hmem, hkeep⟩ := List.mem_filter.mp (List.mem_of_mem_take hc)
      rw [Bool.and_eq_true, Bool.not_eq_true'] at hkeep
      exact ⟨hmem, hkeep.1⟩
    refine ⟨fun h => hne ?_, hlower.fixed text _ fun c hc => ?_, fun c hc => ?_⟩
    · rw [← String.toList_ofList (l := List.take 48 _), h]
      rfl
    · rw [String.toList_ofList] at hc
      exact (hsub c hc).1
    · rw [String.toList_ofList] at hc
      exact (hsub c hc).2

end

/-! ## Clusters -/

/-- The different traces of a bucket. -/
def bucketTraces (rows : List Dict) : Finset String := (rows.filterMap traceId?).toFinset

/-- What a cluster says of the messages it stands for. -/
structure ClusterOf (feedback : Feedback) (key : String × String) (rows : List Dict)
    (cluster : Cluster) : Prop where
  agentId_eq : cluster.agentId = key.1
  key_eq : cluster.key = key.2
  oneAgent : ∀ row ∈ rows, messageAgentId row = cluster.agentId
  count_eq : cluster.count = (bucketTraces rows).card
  positive_eq : cluster.positiveCount
    = ((bucketTraces rows).filter (· ∈ feedback.positiveTraceIds)).card
  negative_eq : cluster.negativeCount
    = ((bucketTraces rows).filter (· ∈ feedback.negativeTraceIds)).card
  proposes_iff : cluster.proposeSkills = true
    ↔ ∀ row ∈ rows, (messageLearningPolicy row).proposeSkills = true

theorem card_toFinset_eraseDups (texts : List String) :
    texts.eraseDups.length = texts.toFinset.card := by
  rw [← List.toFinset_card_of_nodup (Grouping.nodup_eraseDups texts)]
  congr 1
  exact Finset.ext fun text => by simp

theorem card_filter_eraseDups (texts : List String) (p : String → Prop) [DecidablePred p] :
    (texts.eraseDups.filter (fun text => decide (p text))).length
      = (texts.toFinset.filter p).card := by
  rw [← List.toFinset_card_of_nodup ((Grouping.nodup_eraseDups texts).filter _)]
  congr 1
  exact Finset.ext fun text => by simp

section

variable {env : LearningEnv} (hlower : LowersText env.lower) {feedback : Feedback}
  {messages : List Dict} {key : String × String} {rows : List Dict}

include hlower

theorem clusterOf_bucket (hmem : (key, rows) ∈ ruleBuckets env.lower messages) :
    ClusterOf feedback key rows (buildCluster env.lower feedback rows) := by
  obtain ⟨hrows, hne⟩ := mem_ruleBuckets.mp hmem
  have hrow : ∀ row ∈ rows, isEvidence row = true ∧ ruleKey env.lower row = key := by
    intro row hrow
    rw [hrows] at hrow
    obtain ⟨-, hkeep⟩ := List.mem_filter.mp hrow
    rw [Bool.and_eq_true, decide_eq_true_eq] at hkeep
    exact hkeep
  obtain ⟨first, rest, rfl⟩ := List.exists_cons_of_ne_nil hne
  obtain ⟨hevidence, hkey⟩ := hrow first List.mem_cons_self
  have hcontent : (Dict.get first "content").truthy = true := by
    unfold isEvidence at hevidence
    simp only [Bool.and_eq_true] at hevidence
    exact hevidence.1.2
  have hagent : (buildCluster env.lower feedback (first :: rest)).agentId = key.1 :=
    congrArg Prod.fst hkey
  refine ⟨hagent, ?_, fun row hmem => ?_, card_toFinset_eraseDups _, ?_, ?_, ?_⟩
  · have hexample : ((Dict.get first "content").orElse (.str "")).pyStr
        = (Dict.get first "content").pyStr := by
      unfold Json.orElse
      rw [if_pos hcontent]
    change clusterKey env.lower (strip ((Dict.get first "content").orElse (.str "")).pyStr) = key.2
    rw [hexample, clusterKey_strip hlower]
    exact congrArg Prod.snd hkey
  · rw [hagent]
    exact congrArg Prod.fst (hrow row hmem).2
  · exact card_filter_eraseDups _ _
  · exact card_filter_eraseDups _ _
  · change (!((first :: rest).map messageLearningPolicy).isEmpty
      && ((first :: rest).map messageLearningPolicy).all LearningPolicy.proposeSkills) = true ↔ _
    simp [List.all_eq_true]

/-- The fingerprint of an Agent's cluster tells its Agent and its key. -/
theorem fingerprint_inj (hsha : Function.Injective env.sha256) {c c' : Cluster}
    {row row' : Dict} {text text' : String} (hagent : c.agentId = messageAgentId row)
    (hagent' : c'.agentId = messageAgentId row') (hkey : c.key = clusterKey env.lower text)
    (hkey' : c'.key = clusterKey env.lower text') (hreal : c.agent ≠ "legacy")
    (hreal' : c'.agent ≠ "legacy") (h : c.fingerprint env = c'.fingerprint env) :
    c.agentId = c'.agentId ∧ c.key = c'.key := by
  have hagentText : ∀ {c : Cluster} {row : Dict}, c.agentId = messageAgentId row →
      c.agent ≠ "legacy" → strip c.agent = c.agentId := by
    intro c row hrow hreal
    have hne : c.agentId ≠ "" := fun hempty => hreal (if_pos hempty)
    have hself : c.agent = c.agentId := if_neg hne
    rw [hself]
    rw [hself] at hreal
    unfold messageAgentId at hrow
    dsimp only at hrow
    split at hrow
    · exact absurd hrow hreal
    · rw [hrow, strip_strip]
  have hkeyText : ∀ {c : Cluster} {text : String}, c.key = clusterKey env.lower text →
      env.lower (strip (if c.key = "" then c.title else c.key)) = c.key
        ∧ ∀ ch ∈ c.key.toList, isSpace ch = false := by
    intro c text htext
    obtain ⟨hne, hlow, hblank⟩ := clusterKey_plain hlower text
    rw [← htext] at hne hlow hblank
    have hstrip : strip c.key = c.key := strip_eq_self_iff.mpr
      ⟨fun ch hch => hblank ch (List.mem_of_mem_head? hch),
        fun ch hch => hblank ch (List.mem_of_mem_getLast? hch)⟩
    rw [if_neg hne, hstrip]
    exact ⟨hlow, hblank⟩
  obtain ⟨hlow, hblank⟩ := hkeyText hkey
  obtain ⟨hlow', hblank'⟩ := hkeyText hkey'
  have hbreak : ∀ {text : String}, (∀ ch ∈ text.toList, isSpace ch = false) →
      '\n' ∉ text.toList := fun htext hmem =>
    absurd (htext _ hmem) (by decide)
  unfold Cluster.fingerprint proceduralFingerprint at h
  have htext := congrArg String.toList (hsha h)
  rw [hagentText hagent hreal, hagentText hagent' hreal', hlow, hlow'] at htext
  simp only [String.toList_append] at htext
  rw [List.append_assoc, List.append_assoc] at htext
  obtain ⟨hagents, hkeys⟩ := append_cons_inj_last (hbreak hblank) (hbreak hblank') htext
  exact ⟨String.toList_injective hagents, String.toList_injective hkeys⟩

end

/-- Rule clustering divides the messages that may be learned from by Agent and text key: each
of them is in exactly one cluster, which counts its traces once. The clusters are the buckets
of a grouping, and the key of a bucket is that of its first message. -/
theorem rule_clusters_partition (env : LearningEnv) (hlower : LowersText env.lower)
    (hsha : Function.Injective env.sha256) (feedback : Feedback) (messages : List Dict) :
    ∃ groups : List ((String × String) × List Dict),
      clusterUserMessagesByRule env.lower feedback messages
          = groups.map (fun group => buildCluster env.lower feedback group.2)
        ∧ (groups.map Prod.fst).Nodup
        ∧ (∀ row ∈ messages, isEvidence row = true →
            ∃ rows, (ruleKey env.lower row, rows) ∈ groups)
        ∧ (∀ key rows, (key, rows) ∈ groups →
            rows = messages.filter
                (fun row => isEvidence row && decide (ruleKey env.lower row = key))
              ∧ rows ≠ []
              ∧ ClusterOf feedback key rows (buildCluster env.lower feedback rows))
        ∧ (clusterUserMessagesByRule env.lower feedback messages).Pairwise fun a b =>
            a.agent ≠ "legacy" → b.agent ≠ "legacy" → a.fingerprint env ≠ b.fingerprint env := by
  set groups := (ruleBuckets env.lower messages).insertionSort fun a b =>
    Cluster.notBefore (buildCluster env.lower feedback a.2)
      (buildCluster env.lower feedback b.2) with hgroups
  have hperm : groups.Perm (ruleBuckets env.lower messages) := List.perm_insertionSort _ _
  have hclusters : clusterUserMessagesByRule env.lower feedback messages
      = groups.map (fun group => buildCluster env.lower feedback group.2) :=
    (List.map_insertionSort _ Cluster.notBefore
      (fun group : (String × String) × List Dict => buildCluster env.lower feedback group.2)
      (ruleBuckets env.lower messages) fun _ _ _ _ => Iff.rfl).symm
  have hnodup : (groups.map Prod.fst).Nodup :=
    (hperm.map Prod.fst).nodup_iff.mpr (nodup_ruleBuckets _ _)
  have hgroup : ∀ key rows, (key, rows) ∈ groups →
      rows = messages.filter (fun row => isEvidence row && decide (ruleKey env.lower row = key))
        ∧ rows ≠ [] ∧ ClusterOf feedback key rows (buildCluster env.lower feedback rows) := by
    intro key rows hmem
    have hbucket := hperm.mem_iff.mp hmem
    obtain ⟨hrows, hne⟩ := mem_ruleBuckets.mp hbucket
    exact ⟨hrows, hne, clusterOf_bucket hlower hbucket⟩
  refine ⟨groups, hclusters, hnodup, fun row hmem hevidence => ?_, hgroup, ?_⟩
  · refine ⟨_, hperm.mem_iff.mpr (mem_ruleBuckets.mpr ⟨rfl, List.ne_nil_of_mem (a := row) ?_⟩)⟩
    exact List.mem_filter.mpr ⟨hmem, by simp [hevidence]⟩
  · have hsource : ∀ {key : String × String} {rows : List Dict}, (key, rows) ∈ groups →
        ∃ row, key = ruleKey env.lower row := by
      intro key rows hmem
      obtain ⟨hrows, hne, -⟩ := hgroup _ _ hmem
      obtain ⟨row, rest, hcons⟩ := List.exists_cons_of_ne_nil hne
      have hrow : row ∈ rows := by rw [hcons]; exact List.mem_cons_self
      rw [hrows] at hrow
      have hkeep := (List.mem_filter.mp hrow).2
      rw [Bool.and_eq_true, decide_eq_true_eq] at hkeep
      exact ⟨row, hkeep.2.symm⟩
    rw [hclusters]
    refine List.pairwise_map.mpr ((List.pairwise_map.mp hnodup).imp_of_mem ?_)
    rintro ⟨key, rows⟩ ⟨key', rows'⟩ hmem hmem' hne hreal hreal' hsame
    obtain ⟨row, rfl⟩ := hsource hmem
    obtain ⟨row', rfl⟩ := hsource hmem'
    obtain ⟨-, -, hcluster⟩ := hgroup _ _ hmem
    obtain ⟨-, -, hcluster'⟩ := hgroup _ _ hmem'
    obtain ⟨hagents, hkeys⟩ := fingerprint_inj hlower hsha hcluster.agentId_eq
      hcluster'.agentId_eq hcluster.key_eq hcluster'.key_eq hreal hreal' hsame
    rw [hcluster.agentId_eq, hcluster'.agentId_eq] at hagents
    rw [hcluster.key_eq, hcluster'.key_eq] at hkeys
    exact hne (Prod.ext hagents hkeys)

/-- Texts in lower case, their own digests. -/
def clusterEnv : LearningEnv := { exactEnv with sha256 := id }

theorem lowersText_id : LowersText id where
  blanks := fun _ _ _ _ => String.toList_ofList
  fixed := fun _ _ _ => rfl
  plain := fun _ _ => rfl

def userMessage (agent trace content : String) : Dict :=
  [("role", .str "user"), ("content", .str content), ("trace_id", .str trace),
    ("metadata", .obj [("agent_id", .str agent)])]

/-- Two Agents are asked the same, one of them twice. -/
def askedMessages : List Dict :=
  [userMessage "sales" "t1" "where is my order?", userMessage "support" "t2" "where is my order",
    userMessage "sales" "t3" " where is my order!"]

def noFeedback : Feedback where
  negativeTraceIds := []
  positiveTraceIds := []
  assistantContent := fun _ => none

theorem rule_clusters_partition_asked :
    (clusterUserMessagesByRule clusterEnv.lower noFeedback askedMessages).Pairwise fun a b =>
      a.agent ≠ "legacy" → b.agent ≠ "legacy" →
        a.fingerprint clusterEnv ≠ b.fingerprint clusterEnv := by
  obtain ⟨_, -, -, -, -, h⟩ := rule_clusters_partition clusterEnv lowersText_id
    Function.injective_id noFeedback askedMessages
  exact h

example : (clusterUserMessagesByRule id noFeedback askedMessages).map
    (fun cluster => (cluster.agentId, cluster.key, cluster.count))
      = [("sales", "whereismyorder", 2), ("support", "whereismyorder", 1)] := by
  decide

end Aegora
