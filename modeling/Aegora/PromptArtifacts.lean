import Aegora.ApprovalResume
import Aegora.CacheTransparency
import Aegora.JsonText

/-!
# The prompt of a release, cached

`configured_prompt_artifact` keeps the part of a prompt that a release
determines, its system messages and the ids and the model that the planner is
told, in the cache of the release configs. `build_configured_messages` puts the
rest of the turn around it.

What is stored under the key of an artifact is the artifact of the release that
the key names, so a turn gets the messages that it would get from an empty
cache. And since a turn reads and writes the cache by its release alone, the
cache after a run is the same whatever was asked, by whom, and with what memory.
-/

namespace Aegora.ConfiguredPrompt

open Py Runs

/-! ## The prompt -/

/-- `CONFIGURED_PROTOCOL`. -/
def configuredProtocol : String :=
  "你是配置驱动 Runner Core。只输出 JSON 对象。\n"
    ++ "允许 route: tool_call, answer, clarify, handoff, chat, faq_answer。\n"
    ++ "规则：\n"
    ++ "1. 系统提示词定义当前 Agent 的业务身份和回答风格。\n"
    ++ "2. 只能调用 available_tools 中列出的工具，tool_name 必须等于其中的 name。\n"
    ++ "3. 工具结果是事实边界；没有工具或证据时不要编造外部事实。\n"
    ++ "4. route=tool_call 时输出 tool_name/tool_args，或 tool_calls 数组；"
    ++ "其他终态必须输出非空 answer。\n"
    ++ "5. 工具未列出、参数不确定或权限不足时，不要尝试绕过，直接回答无法执行或澄清。\n"
    ++ "6. memory 是用户长期上下文，可能过期；当前用户输入和工具事实与 memory 冲突时，"
    ++ "以当前输入和工具事实为准。"

/-- `CONFIGURED_PROMPT_ARTIFACT_VERSION`, which ends with a digest of the protocol. -/
def configuredPromptArtifactVersion : String := "v1-0826e76923b176ed"

structure ChatMessage where
  role : String
  content : String
deriving DecidableEq, Repr

/-- `str(agent.get("system_prompt") or "…").strip()`. -/
def systemPrompt (agent : Dict) : String :=
  strip ((Dict.get agent "system_prompt").orElse (.str "你是一个内部助手。")).pyStr

def agentStatic (agent : Dict) : Dict :=
  [("id", Dict.get agent "id"), ("name", Dict.get agent "name"),
    ("model", Dict.get agent "model")]

/-- The artifact that `configured_prompt_artifact` builds. -/
def promptArtifact (runtimeContext : Dict) : Dict :=
  let release := (Dict.get runtimeContext "release").dictOrEmpty
  let agent := (Dict.get runtimeContext "agent").dictOrEmpty
  [("system_messages", .arr
      [.obj [("role", .str "system"), ("content", .str (systemPrompt agent))],
       .obj [("role", .str "system"), ("content", .str configuredProtocol)]]),
   ("runtime_static", .obj
      [("release", .obj
          [("release_id", Dict.get release "release_id"),
           ("agent_id", Dict.get release "agent_id"),
           ("version", Dict.get release "version")]),
       ("agent", .obj (agentStatic agent))])]

/-- `int(x)` where a `TypeError` or a `ValueError` means zero. -/
def versionOrZero (value : Json) : Except String Int :=
  match value.pyInt with
  | .ok version => .ok version
  | .error "OverflowError" => .error "OverflowError"
  | .error _ => .ok 0

/-- The ids that the artifact is cached under, if it is. -/
def promptIds (runtimeContext : Dict) : Except String (Option (String × String × Int)) := do
  let release := (Dict.get runtimeContext "release").dictOrEmpty
  let agent := (Dict.get runtimeContext "agent").dictOrEmpty
  let agentId := (((Dict.get release "agent_id").orElse (Dict.get agent "id")).orElse
    (.str "")).pyStr
  let releaseId := ((Dict.get release "release_id").orElse (.str "")).pyStr
  let version ← versionOrZero ((Dict.get release "version").orElse (.int 0))
  if agentId ≠ "" ∧ releaseId ≠ "" ∧ 0 < version then return some (agentId, releaseId, version)
  else return none

def promptKey (keyPrefix agentId releaseId : String) (version : Int) : String :=
  artifactKey keyPrefix "configured-prompt" configuredPromptArtifactVersion agentId releaseId
    version

/-- `isinstance(cached.get("system_messages"), list)`. -/
def hasMessages (artifact : Dict) : Bool :=
  (Dict.get artifact "system_messages").asList?.isSome

/-- `configured_prompt_artifact`. -/
def configuredPromptArtifact (redis : RedisOutcome) (cache : ReleaseConfigCache)
    (store : CacheStore) (runtimeContext : Dict) :
    Except String (ReleaseConfigCache × CacheStore × Ref) := do
  match ← promptIds runtimeContext with
  | none =>
      let built := store.alloc (promptArtifact runtimeContext)
      return (cache, built.1, built.2)
  | some (agentId, releaseId, version) =>
      let key := promptKey cache.settings.keyPrefix agentId releaseId version
      let (cache, store, cached) := cache.get store redis.answers key
      match cached.filter fun ref => hasMessages (store.object ref) with
      | some ref => return (cache, store, ref)
      | none =>
          let built := store.alloc (promptArtifact runtimeContext)
          let (cache, store) := cache.set built.1 redis.stores key built.2
          return (cache, store, built.2)

/-! ## The messages -/

/-- What the messages take from the state of the turn. -/
structure TurnState where
  query : String
  context : Dict := []
  toolObservations : Json := .null
  toolCatalog : Json := .null

/-- The messages of an artifact, as the planner gets them. -/
def systemMessages (artifact agent : Dict) : List ChatMessage :=
  let messages := ((Dict.get artifact "system_messages").asList?.getD []).filterMap fun item =>
    item.asDict?.map fun entry =>
      ⟨((Dict.get entry "role").orElse (.str "system")).pyStr,
        ((Dict.get entry "content").orElse (.str "")).pyStr⟩
  if messages = [] then [⟨"system", systemPrompt agent⟩, ⟨"system", configuredProtocol⟩]
  else messages

/-- The payload of the user message. -/
def configuredPayload (artifact : Dict) (state : TurnState) (runtimeContext : Dict) : Dict :=
  let agent := (Dict.get runtimeContext "agent").dictOrEmpty
  let runtimeStatic := (Dict.get artifact "runtime_static").dictOrEmpty
  let part (key : String) : Json := (Dict.get state.context key).orElse (.arr [])
  [("message", .str state.query),
   ("history", part "history"),
   ("session_context", part "session_context"),
   ("session_user_context", part "session_user_context"),
   ("memory", part "memory"),
   ("tool_observations", state.toolObservations.orElse (.arr [])),
   ("available_tools", state.toolCatalog.orElse (.arr [])),
   ("skill_index", part "skill_index"),
   ("runtime", .obj
      [("release", ((Dict.get runtimeStatic "release").orElse
          (Dict.get runtimeContext "release")).orElse (.obj [])),
       ("agent", (Dict.get runtimeStatic "agent").orElse (.obj (agentStatic agent))),
       ("channel", Dict.get runtimeContext "channel"),
       ("actor", (Dict.get runtimeContext "actor").orElse (.obj []))])]

def configuredMessages (artifact : Dict) (state : TurnState) (runtimeContext : Dict) :
    List ChatMessage :=
  systemMessages artifact (Dict.get runtimeContext "agent").dictOrEmpty
    ++ [⟨"user", (Json.obj (configuredPayload artifact state runtimeContext)).text⟩]

/-- `build_configured_messages`: the caches it leaves, the artifact, and the messages. -/
def buildConfiguredMessages (redis : RedisOutcome) (cache : ReleaseConfigCache)
    (store : CacheStore) (state : TurnState) (runtimeContext : Dict) :
    Except String ((ReleaseConfigCache × CacheStore × Ref) × List ChatMessage) := do
  let built ← configuredPromptArtifact redis cache store runtimeContext
  return (built, configuredMessages (built.2.1.object built.2.2) state runtimeContext)

/-! ## Turns and runs -/

/-- A configured turn on a release whose agent config is determined by its ids, which are the
texts of UUIDs: not empty, and without a colon. Its runtime context is the one of some state of
the tables, with the policy that the warmup leaves. -/
structure ConfiguredTurn (agents : String → String → Int → Dict) where
  release : ReleaseRow
  config : Dict
  env : RuntimeEnv
  db : PlatformTables
  actorId : Option String
  channel : Option String
  resolved : RuntimeContext
  policy : Dict
  state : TurnState
  configured : release.configJson = .obj config
  determined : Dict.get config "agent"
    = .obj (agents release.agentId release.releaseId release.version)
  built : buildRuntimeContext env db release actorId channel = .ok resolved
  named : release.agentId ≠ ""
  agentIdPlain : ':' ∉ release.agentId.toList
  releaseIdPlain : ':' ∉ release.releaseId.toList

/-- The dictionary that the planner works with. -/
def ConfiguredTurn.context {agents : String → String → Int → Dict}
    (turn : ConfiguredTurn agents) : Dict :=
  Dict.set turn.resolved.asDict "policy" (.obj turn.policy)

/-- A turn builds its messages on runtime `i`; or something else happens to the caches. -/
inductive PromptAction (config : String → String → Json)
    (agents : String → String → Int → Dict) where
  | turn (i : Nat) (turn : ConfiguredTurn agents) (redis : RedisOutcome)
  | cache (action : CacheAction config)

/-- Only `configured_prompt_artifact` stores artifacts. -/
def storesArtifact {config : String → String → Json} : CacheAction config → Bool
  | .setArtifact .. => true
  | _ => false

section Step

variable {config : String → String → Json} {agents : String → String → Int → Dict}

def promptStep (s : CacheState config) :
    PromptAction config agents → Option (CacheState config)
  | .turn i turn redis => do
      let cache ← s.runtimes[i]?
      match buildConfiguredMessages redis cache s.store turn.state turn.context with
      | .ok ((cache, store, ref), _) => return s.after i cache store [ref]
      | .error _ => return s
  | .cache action => if storesArtifact action then none else cacheStep s action

/-- Turns on one release, whatever is asked, by whom and on which channel; and the same for
everything else. -/
inductive SameReleases : PromptAction config agents → PromptAction config agents → Prop where
  | turn (i : Nat) (redis : RedisOutcome) (turn turn' : ConfiguredTurn agents)
      (agentId : turn.release.agentId = turn'.release.agentId)
      (releaseId : turn.release.releaseId = turn'.release.releaseId)
      (version : turn.release.version = turn'.release.version) :
      SameReleases (.turn i turn redis) (.turn i turn' redis)
  | cache (action : CacheAction config) : SameReleases (.cache action) (.cache action)

end Step

/-- Runtimes of one deployment: the key prefix, and of each runtime whether it caches and how
many entries. -/
structure Deployment where
  keyPrefix : String
  runtimes : List (Bool × Nat)

def Deployment.settings (deployment : Deployment) : List RuntimeCacheSettings :=
  deployment.runtimes.map fun own => ⟨own.1, deployment.keyPrefix, own.2⟩

/-! ## The artifact of a release -/

/-- What a runtime context says of a release and its agent config, as far as the artifact
reads it. -/
def staticContext (agentId releaseId : String) (version : Int) (agent : Dict) : Dict :=
  [("release", .obj
      [("release_id", .str releaseId), ("agent_id", .str agentId), ("version", .int version)]),
   ("agent", .obj
      [("id", Dict.get agent "id"),
       ("name", (Dict.get agent "name").orElse (.str "released-agent")),
       ("system_prompt", (Dict.get agent "system_prompt").orElse (.str "")),
       ("model", Dict.get agent "model")])]

/-- The artifact of a release with this agent config. -/
def releaseArtifact (agentId releaseId : String) (version : Int) (agent : Dict) : Dict :=
  promptArtifact (staticContext agentId releaseId version agent)

theorem hasMessages_promptArtifact (runtimeContext : Dict) :
    hasMessages (promptArtifact runtimeContext) = true := rfl

section Turns

variable {agents : String → String → Int → Dict} (turn : ConfiguredTurn agents)

/-- What `build_runtime_context` takes from the release. -/
theorem buildRuntimeContext_release {env : RuntimeEnv} {db : PlatformTables}
    {release : ReleaseRow} {actorId channel : Option String} {context : RuntimeContext}
    {config agent : Dict} (hconfig : release.configJson = .obj config)
    (hagent : Dict.get config "agent" = .obj agent)
    (h : buildRuntimeContext env db release actorId channel = .ok context) :
    Dict.get context.release "release_id" = .str release.releaseId
      ∧ Dict.get context.release "agent_id" = .str release.agentId
      ∧ Dict.get context.release "version" = .int release.version
      ∧ Dict.get context.agent "id" = Dict.get agent "id"
      ∧ Dict.get context.agent "name"
        = (Dict.get agent "name").orElse (.str "released-agent")
      ∧ Dict.get context.agent "system_prompt"
        = (Dict.get agent "system_prompt").orElse (.str "")
      ∧ Dict.get context.agent "model" = Dict.get agent "model" := by
  obtain ⟨found, hfound, h⟩ := bind_eq_ok.mp h
  obtain rfl : config = found := by
    rw [releaseConfig, hconfig] at hfound
    exact Except.ok.inj hfound
  obtain ⟨foundAgent, hfoundAgent, h⟩ := bind_eq_ok.mp h
  obtain rfl : agent = foundAgent := by
    rw [releaseAgent, hagent] at hfoundAgent
    exact Except.ok.inj hfoundAgent
  obtain ⟨_, -, h⟩ := bind_eq_ok.mp h
  obtain ⟨_, -, h⟩ := bind_eq_ok.mp h
  obtain ⟨_, -, h⟩ := bind_eq_ok.mp h
  obtain ⟨_, -, h⟩ := bind_eq_ok.mp h
  obtain ⟨_, -, h⟩ := bind_eq_ok.mp h
  cases h
  simp [Dict.get, Dict.get?_cons]

theorem ConfiguredTurn.context_get :
    Dict.get turn.context "release" = .obj turn.resolved.release
      ∧ Dict.get turn.context "agent" = .obj turn.resolved.agent := by
  unfold ConfiguredTurn.context
  rw [Dict.get_set, if_neg (by decide), Dict.get_set, if_neg (by decide)]
  exact ⟨rfl, rfl⟩

/-- The artifact reads three fields of the release and four of the agent. -/
theorem promptArtifact_congr {context context' release release' agent agent' : Dict}
    (hrelease : Dict.get context "release" = .obj release)
    (hrelease' : Dict.get context' "release" = .obj release')
    (hagent : Dict.get context "agent" = .obj agent)
    (hagent' : Dict.get context' "agent" = .obj agent')
    (h : ∀ key ∈ ["release_id", "agent_id", "version"],
      Dict.get release key = Dict.get release' key)
    (h' : ∀ key ∈ ["id", "name", "system_prompt", "model"],
      Dict.get agent key = Dict.get agent' key) :
    promptArtifact context = promptArtifact context' := by
  simp only [List.forall_mem_cons, List.not_mem_nil, false_imp_iff, implies_true, and_true]
    at h h'
  obtain ⟨hreleaseId, hagentId, hversion⟩ := h
  obtain ⟨hid, hname, hprompt, hmodel⟩ := h'
  unfold promptArtifact systemPrompt agentStatic
  rw [hrelease, hrelease', hagent, hagent']
  simp only [Json.dictOrEmpty, Json.asDict?, Option.getD_some, hreleaseId, hagentId, hversion,
    hid, hname, hprompt, hmodel]

theorem ConfiguredTurn.promptArtifact_eq :
    promptArtifact turn.context
      = releaseArtifact turn.release.agentId turn.release.releaseId turn.release.version
        (agents turn.release.agentId turn.release.releaseId turn.release.version) := by
  obtain ⟨hrelease, hagent⟩ := turn.context_get
  obtain ⟨hreleaseId, hagentId, hversion, hid, hname, hprompt, hmodel⟩ :=
    buildRuntimeContext_release turn.configured turn.determined turn.built
  refine promptArtifact_congr hrelease rfl hagent rfl ?_ ?_
  · simp only [List.forall_mem_cons, hreleaseId, hagentId, hversion]
    simp [Dict.get, Dict.get?_cons]
  · simp only [List.forall_mem_cons, hid, hname, hprompt, hmodel]
    simp [Dict.get, Dict.get?_cons]

theorem ConfiguredTurn.promptIds_eq :
    promptIds turn.context
      = .ok (if turn.release.releaseId ≠ "" ∧ 0 < turn.release.version then
          some (turn.release.agentId, turn.release.releaseId, turn.release.version)
        else none) := by
  obtain ⟨hrelease, hagent⟩ := turn.context_get
  obtain ⟨hreleaseId, hagentId, hversion, -⟩ :=
    buildRuntimeContext_release turn.configured turn.determined turn.built
  have hnumber : versionOrZero ((Json.int turn.release.version).orElse (.int 0))
      = .ok turn.release.version := by
    by_cases hzero : turn.release.version = 0
    · rw [hzero]
      rfl
    · simp [Json.orElse, Json.truthy, hzero, versionOrZero, Json.pyInt]
  have hname : (((Json.str turn.release.agentId).orElse
      (Dict.get turn.resolved.agent "id")).orElse (.str "")).pyStr = turn.release.agentId := by
    simp [Json.orElse, turn.named, Json.pyStr]
  have htext : ((Json.str turn.release.releaseId).orElse (.str "")).pyStr
      = turn.release.releaseId := by
    by_cases hempty : turn.release.releaseId = "" <;> simp [Json.orElse, hempty, Json.pyStr]
  unfold promptIds
  rw [hrelease, hagent]
  simp only [Json.dictOrEmpty, Json.asDict?, Option.getD_some, hreleaseId, hagentId, hversion,
    hnumber, hname, htext, bind, Except.bind, ne_eq, turn.named, not_false_eq_true, true_and]
  split <;> rfl

end Turns

/-! ## Keys -/

theorem toString_pos_inj {v v' : Int} (hv : 0 < v) (hv' : 0 < v')
    (h : toString v = toString v') : v = v' := by
  obtain ⟨n, rfl⟩ := Int.eq_ofNat_of_zero_le hv.le
  obtain ⟨m, rfl⟩ := Int.eq_ofNat_of_zero_le hv'.le
  have hdigits : Nat.toDigits 10 n = Nat.toDigits 10 m := by
    have hrepr : n.repr = m.repr := h
    rw [Nat.repr_eq_ofList_toDigits, Nat.repr_eq_ofList_toDigits] at hrepr
    exact String.ofList_injective hrepr
  rw [← Nat.ofDigitChars_toDigits (b := 10) (n := n) (by decide) (by decide), hdigits,
    Nat.ofDigitChars_toDigits (by decide) (by decide)]

/-- The key of an artifact is that of a release under a longer prefix. -/
theorem promptKey_eq (keyPrefix agentId releaseId : String) (version : Int) :
    promptKey keyPrefix agentId releaseId version
      = releaseKey (keyPrefix ++ ":artifact:" ++ "configured-prompt" ++ ":"
        ++ configuredPromptArtifactVersion) agentId releaseId version := rfl

/-- The key of an artifact determines the ids. -/
theorem promptKey_inj {p a a' r r' : String} {v v' : Int} (ha : ':' ∉ a.toList)
    (ha' : ':' ∉ a'.toList) (hr : ':' ∉ r.toList) (hr' : ':' ∉ r'.toList) (hv : 0 < v)
    (hv' : 0 < v') (h : promptKey p a r v = promptKey p a' r' v') :
    a = a' ∧ r = r' ∧ v = v' := by
  rw [promptKey_eq, promptKey_eq] at h
  obtain ⟨hagent, hrelease, hversion⟩ := releaseKey_inj ha ha' hr hr' h
  exact ⟨hagent, hrelease, toString_pos_inj hv hv' hversion⟩

/-! ## What is stored -/

/-- Under the key of an artifact there is the artifact of the release that the key names. -/
def PromptGood (keyPrefix : String) (agents : String → String → Int → Dict) (key : String)
    (value : Json) : Prop :=
  ∀ (agentId releaseId : String) (version : Int), ':' ∉ agentId.toList →
    ':' ∉ releaseId.toList → 0 < version →
    key = promptKey keyPrefix agentId releaseId version →
      value = .obj (releaseArtifact agentId releaseId version (agents agentId releaseId version))

section Stored

variable {config : String → String → Json} {agents : String → String → Int → Dict}
  {keyPrefix : String} {s s' : CacheState config} {i : Nat} {cache : ReleaseConfigCache}

/-- The config of a release is under no key of an artifact. -/
theorem promptGood_releaseKey (agentId releaseId : String) (version : Int) (value : Json) :
    PromptGood keyPrefix agents (releaseKey keyPrefix agentId releaseId version) value :=
  fun _ _ _ _ _ _ hkey => absurd hkey.symm (artifactKey_ne_releaseKey _ _ _ _ _ _ _ _ _)

def ConfiguredTurn.artifact (turn : ConfiguredTurn agents) : Dict :=
  releaseArtifact turn.release.agentId turn.release.releaseId turn.release.version
    (agents turn.release.agentId turn.release.releaseId turn.release.version)

theorem ConfiguredTurn.promptGood (turn : ConfiguredTurn agents)
    (hversion : 0 < turn.release.version) :
    PromptGood keyPrefix agents
      (promptKey keyPrefix turn.release.agentId turn.release.releaseId turn.release.version)
      (.obj turn.artifact) := by
  intro agentId releaseId version hagent hrelease hpositive hkey
  obtain ⟨rfl, rfl, rfl⟩ := promptKey_inj turn.agentIdPlain hagent turn.releaseIdPlain hrelease
    hversion hpositive hkey
  rfl

/-- An object that is only created. -/
theorem alloc_served (cache : ReleaseConfigCache) (store : CacheStore) (value : Dict)
    (key : String) :
    Served cache store key value cache (store.alloc value).1 (store.alloc value).2 where
  heap := List.prefix_append _ _
  fresh := Nat.le_refl _
  there := by simp [CacheStore.alloc]
  object := by simp [CacheStore.alloc, CacheStore.object]
  redis := fun entry hentry => Or.inl hentry
  l1 := .same

/-- Whatever the caches hold, a turn is served the artifact of its release. What is stored
there is this artifact, and it has messages. -/
theorem ConfiguredTurn.served (turn : ConfiguredTurn agents)
    (h : CachesHold (PromptGood keyPrefix agents) [keyPrefix] s)
    (hi : s.runtimes[i]? = some cache) (redis : RedisOutcome) :
    ∃ cache' store' ref key,
      configuredPromptArtifact redis cache s.store turn.context = .ok (cache', store', ref)
      ∧ PromptGood keyPrefix agents key (.obj turn.artifact)
      ∧ Served cache s.store key turn.artifact cache' store' ref := by
  have hcache : cache ∈ s.runtimes := List.mem_of_getElem? hi
  have hprefix : cache.settings.keyPrefix = keyPrefix :=
    List.mem_singleton.mp (h.known cache hcache)
  have hartifact : promptArtifact turn.context = turn.artifact := turn.promptArtifact_eq
  unfold configuredPromptArtifact
  rw [turn.promptIds_eq, hartifact, hprefix]
  by_cases hcached : turn.release.releaseId ≠ "" ∧ 0 < turn.release.version
  · rw [if_pos hcached]
    have hgood : PromptGood keyPrefix agents _ _ := turn.promptGood hcached.2
    rcases get_cases cache s.store redis.answers (promptKey keyPrefix turn.release.agentId
      turn.release.releaseId turn.release.version) with
      hmiss | ⟨cache', store', ref, value, hhit, hserved, hstored⟩
    · obtain ⟨cache', store', hset, hserved⟩ := set_served cache s.store turn.artifact
        (promptKey keyPrefix turn.release.agentId turn.release.releaseId turn.release.version)
        redis.stores
      refine ⟨cache', store', _, _, ?_, hgood, hserved⟩
      simp only [bind, Except.bind, hmiss, Option.filter_none, hset]
      rfl
    · obtain rfl : value = turn.artifact := Json.obj.inj
        (hstored.good h hcache _ _ _ turn.agentIdPlain turn.releaseIdPlain hcached.2 rfl)
      have hmessages : hasMessages (store'.object ref) = true := by
        rw [hserved.object]
        exact hasMessages_promptArtifact _
      refine ⟨cache', store', ref, _, ?_, hgood, hserved⟩
      simp only [bind, Except.bind, hhit, Option.filter_some, hmessages, if_true]
      rfl
  · rw [if_neg hcached]
    exact ⟨cache, _, _, _, rfl, promptGood_releaseKey "" "" 0 _,
      alloc_served cache s.store turn.artifact _⟩

theorem promptStep_holds (h : CachesHold (PromptGood keyPrefix agents) [keyPrefix] s)
    {action : PromptAction config agents} (hstep : promptStep s action = some s') :
    CachesHold (PromptGood keyPrefix agents) [keyPrefix] s' := by
  cases action with
  | turn i turn redis =>
      obtain ⟨cache, hi, hstep⟩ := Option.bind_eq_some_iff.mp hstep
      obtain ⟨cache', store', ref, key, hbuilt, hgood, hserved⟩ := turn.served h hi redis
      unfold buildConfiguredMessages at hstep
      rw [hbuilt] at hstep
      obtain rfl := Option.some.inj hstep
      exact h.served hi hserved hgood
  | cache action =>
      simp only [promptStep] at hstep
      split at hstep
      · cases hstep
      · rename_i hstores
        refine cacheStep_holds h ?_ hstep
        cases action with
        | fetch i query redis =>
            intro cache hi row _ value _
            rw [List.mem_singleton.mp (h.known cache (List.mem_of_getElem? hi))]
            exact promptGood_releaseKey _ _ _ _
        | setArtifact => exact absurd rfl hstores
        | _ => trivial

/-- A runtime that is there performs any turn. -/
theorem promptStep_turn (h : CachesHold (PromptGood keyPrefix agents) [keyPrefix] s)
    (hi : i < s.runtimes.length) (turn : ConfiguredTurn agents) (redis : RedisOutcome) :
    ∃ s', promptStep s (.turn i turn redis : PromptAction config agents) = some s'
      ∧ s'.runtimes.length = s.runtimes.length := by
  have hcache : s.runtimes[i]? = some s.runtimes[i] := List.getElem?_eq_getElem hi
  obtain ⟨cache', store', ref, key, hbuilt, -, -⟩ := turn.served h hcache redis
  refine ⟨s.after i cache' store' [ref], ?_, List.length_set⟩
  rw [promptStep, hcache]
  simp only [buildConfiguredMessages, bind, Option.bind, hbuilt, Except.bind, pure, Except.pure]

/-! ## Transparency -/

/-- The messages of a turn are those of the artifact of its release. -/
theorem ConfiguredTurn.messages_eq (turn : ConfiguredTurn agents)
    (h : CachesHold (PromptGood keyPrefix agents) [keyPrefix] s)
    (hcache : cache ∈ s.runtimes) (redis : RedisOutcome) :
    (buildConfiguredMessages redis cache s.store turn.state turn.context).map Prod.snd
      = .ok (configuredMessages turn.artifact turn.state turn.context) := by
  obtain ⟨i, hi⟩ := List.mem_iff_getElem?.mp hcache
  obtain ⟨cache', store', ref, key, hbuilt, -, hserved⟩ := turn.served h hi redis
  unfold buildConfiguredMessages
  rw [hbuilt]
  simp only [bind, Except.bind, pure, Except.pure, Except.map, hserved.object]

theorem promptStep_congr {a b : PromptAction config agents} (hsame : SameReleases a b)
    (s : CacheState config) : promptStep s a = promptStep s b := by
  cases hsame with
  | turn i redis turn turn' hagent hrelease hversion =>
      have hids : promptIds turn.context = promptIds turn'.context := by
        rw [turn.promptIds_eq, turn'.promptIds_eq, hagent, hrelease, hversion]
      have hartifact : promptArtifact turn.context = promptArtifact turn'.context := by
        rw [turn.promptArtifact_eq, turn'.promptArtifact_eq, hagent, hrelease, hversion]
      have hbuilt : ∀ cache, configuredPromptArtifact redis cache s.store turn.context
          = configuredPromptArtifact redis cache s.store turn'.context := by
        intro cache
        unfold configuredPromptArtifact
        rw [hids, hartifact]
      simp only [promptStep, buildConfiguredMessages, hbuilt]
      refine congrArg _ (funext fun cache => ?_)
      cases configuredPromptArtifact redis cache s.store turn'.context <;> rfl
  | cache action => rfl

/-- In every state that turns and the other operations on the caches reach, a turn gets the
messages that it gets from an empty cache; and the caches are those after any other turns on
the same releases. -/
theorem prompt_cache_transparent (agents : String → String → Int → Dict)
    (releases : Releases config) (deployment : Deployment)
    (actions : List (PromptAction config agents)) (s : CacheState config)
    (hrun : run promptStep (startedCaches releases deployment.settings) actions = some s) :
    (∀ cache ∈ s.runtimes, ∀ (turn : ConfiguredTurn agents) (redis redis' : RedisOutcome),
        ∃ messages,
          (buildConfiguredMessages redis cache s.store turn.state turn.context).map Prod.snd
            = .ok messages
          ∧ (buildConfiguredMessages redis' { settings := cache.settings } {} turn.state
              turn.context).map Prod.snd = .ok messages)
      ∧ ∀ actions', List.Forall₂ SameReleases actions actions' →
        run promptStep (startedCaches releases deployment.settings) actions' = some s := by
  have hprefix : ∀ own ∈ deployment.settings, own.keyPrefix ∈ [deployment.keyPrefix] := by
    intro own hown
    obtain ⟨runtime, -, rfl⟩ := List.mem_map.mp hown
    exact List.mem_singleton_self _
  have hholds : CachesHold (PromptGood deployment.keyPrefix agents) [deployment.keyPrefix] s :=
    run_invariant' (fun _ _ _ ht hstep => promptStep_holds ht hstep)
      (startedCaches_holds releases hprefix) hrun
  refine ⟨fun cache hcache turn redis redis' => ?_, fun actions' hsame => ?_⟩
  · have hempty : CachesHold (PromptGood deployment.keyPrefix agents) [deployment.keyPrefix]
        (startedCaches releases [cache.settings]) :=
      startedCaches_holds releases fun own hown => by
        rw [List.mem_singleton.mp hown]
        exact hholds.known cache hcache
    exact ⟨_, turn.messages_eq hholds hcache redis,
      turn.messages_eq hempty List.mem_cons_self redis'⟩
  · rw [← run_congr (fun s _ _ hsame => promptStep_congr hsame s) hsame]
    exact hrun

end Stored

/-- The agent of a desk. -/
def deskAgent : Dict :=
  [("id", .str "a1"), ("name", .str "desk"), ("model", .str "m1"),
    ("system_prompt", .str "Answer briefly.")]

def deskRelease : ReleaseRow where
  releaseId := "r1"
  agentId := "a1"
  version := 1
  status := "published"
  configJson := .obj [("agent", .obj deskAgent)]

/-- A turn of the desk, for some actor. -/
def deskTurn (actor query : String) {resolved : RuntimeContext}
    (h : buildRuntimeContext { localRunner := "mcp+stdio://python" } {} deskRelease (some actor)
      none = .ok resolved) : ConfiguredTurn fun _ _ _ => deskAgent where
  release := deskRelease
  config := [("agent", .obj deskAgent)]
  env := { localRunner := "mcp+stdio://python" }
  db := {}
  actorId := some actor
  channel := none
  resolved := resolved
  policy := resolved.policy
  state := { query := query }
  configured := rfl
  determined := rfl
  built := h
  named := by decide
  agentIdPlain := by decide
  releaseIdPlain := by decide

/-- Two runtimes that share Redis, and two actors. -/
theorem prompt_cache_transparent_desk :
    ∃ (turn turn' : ConfiguredTurn fun _ _ _ => deskAgent)
      (s : CacheState fun _ releaseId => .obj [("release", .str releaseId)]),
      turn.actorId = some "u1" ∧ turn'.actorId = some "u2"
      ∧ run promptStep (startedCaches twoReleases
          (Deployment.settings ⟨"aegora:runtime-config:v1", [(true, 1), (true, 256)]⟩))
        [.turn 0 turn {}, .turn 1 turn' {}] = some s
      ∧ ∀ cache ∈ s.runtimes, ∃ messages,
        (buildConfiguredMessages {} cache s.store turn'.state turn'.context).map Prod.snd
          = .ok messages
        ∧ (buildConfiguredMessages {} { settings := cache.settings } {} turn'.state
            turn'.context).map Prod.snd = .ok messages := by
  have hbuilds : ∀ actor ∈ ["u1", "u2"], ∃ resolved, buildRuntimeContext
      { localRunner := "mcp+stdio://python" } {} deskRelease (some actor) none
        = .ok resolved := by
    intro actor hactor
    have hscopes : (buildRuntimeContext { localRunner := "mcp+stdio://python" } {} deskRelease
        (some actor) none).map RuntimeContext.toolIds = .ok [] := by
      simp only [List.mem_cons, List.not_mem_nil, or_false] at hactor
      rcases hactor with rfl | rfl <;> decide +kernel
    obtain ⟨resolved, hresolved, -⟩ := map_eq_ok.mp hscopes
    exact ⟨resolved, hresolved⟩
  obtain ⟨resolved, hresolved⟩ := hbuilds "u1" (by decide)
  obtain ⟨resolved', hresolved'⟩ := hbuilds "u2" (by decide)
  let turn := deskTurn "u1" "Where is my order?" hresolved
  let turn' := deskTurn "u2" "Cancel it." hresolved'
  have hstart : CachesHold (PromptGood "aegora:runtime-config:v1" fun _ _ _ => deskAgent)
      ["aegora:runtime-config:v1"] (startedCaches twoReleases
        (Deployment.settings ⟨"aegora:runtime-config:v1", [(true, 1), (true, 256)]⟩)) :=
    startedCaches_holds twoReleases (by decide)
  obtain ⟨t, ht, hlength⟩ := promptStep_turn hstart Nat.zero_lt_two turn {}
  obtain ⟨s, hs, -⟩ := promptStep_turn (promptStep_holds hstart ht)
    (show 1 < t.runtimes.length by rw [hlength]; decide) turn' {}
  have hrun : run promptStep (startedCaches twoReleases
      (Deployment.settings ⟨"aegora:runtime-config:v1", [(true, 1), (true, 256)]⟩))
      [.turn 0 turn {}, .turn 1 turn' {}] = some s :=
    run_cons_eq.mpr ⟨t, ht, run_cons_eq.mpr ⟨s, hs, rfl⟩⟩
  exact ⟨turn, turn', s, rfl, rfl, hrun, fun cache hcache =>
    (prompt_cache_transparent _ twoReleases _ _ s hrun).1 cache hcache turn' {} {}⟩

end Aegora.ConfiguredPrompt
