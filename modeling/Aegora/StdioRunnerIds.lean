import Aegora.PyJson
import Aegora.UrlText

/-!
# Runner ids of stdio MCP servers

The Control Plane writes a stdio connection as a URL, `runner_tool_id`, and
the Runtime reads the command, its arguments, the directory and the
environment back with `parse_stdio_parts`; its own server has an id of the
same form. Text before a first slash is read as the host of the URL, a blank
argument is dropped, and arguments are decoded twice.

`stdio_ids_decode_iff` says for which connections the parts come back.
-/

namespace Aegora

open Py Urls

/-! ## Connections and their ids -/

/-- A stdio connection that `MCPConnectionRequest` accepts. -/
structure McpStdioConfig where
  command : String
  args : List String := []
  cwd : Option String := none
  env_vars : List String := []
  command_given : command ≠ ""
  command_fits : command.length ≤ 500
  args_fit : args.length ≤ 100
  cwd_fits : ∀ path ∈ cwd, path.length ≤ 1000
  env_vars_fit : env_vars.length ≤ 100

/-- `mcp+stdio://{quote(command, safe="/")}?{query}`. -/
def stdioUrl (command : String) (query : List Char) : String :=
  String.ofList (['m', 'c', 'p', '+', 's', 't', 'd', 'i', 'o'] ++ ':' :: '/' :: '/' ::
    (quote pathSafe command.toList ++ '?' :: query))

def argName : List Char := ['a', 'r', 'g']
def cwdName : List Char := ['c', 'w', 'd']
def envName : List Char := ['e', 'n', 'v']

/-- `",".join(names)`. -/
def joinNames (names : List String) : List Char :=
  List.intercalate [','] (names.map String.toList)

def McpStdioConfig.argPairs (config : McpStdioConfig) : List (List Char × List Char) :=
  config.args.map fun value => (argName, value.toList)

def McpStdioConfig.cwdPairs (config : McpStdioConfig) : List (List Char × List Char) :=
  match config.cwd with
  | none => []
  | some cwd => if cwd = "" then [] else [(cwdName, cwd.toList)]

def McpStdioConfig.envPairs (config : McpStdioConfig) : List (List Char × List Char) :=
  if config.env_vars = [] then [] else [(envName, joinNames config.env_vars)]

def McpStdioConfig.query (config : McpStdioConfig) : List (List Char × List Char) :=
  config.argPairs ++ config.cwdPairs ++ config.envPairs

/-- `MCPConnectionDefinition.runner_tool_id` of a stdio connection. -/
def McpStdioConfig.runnerToolId (config : McpStdioConfig) : String :=
  stdioUrl config.command (urlencode config.query)

/-- The variables that the Runtime's own server is given. -/
def localEnvNames : List String :=
  ["PYTHONPATH", "APP_ENV", "APP_PRODUCT_ID", "PG_HOST", "PG_PORT", "PG_DATABASE", "PG_USER",
    "PG_PASSWORD", "PG_SSLMODE", "LLM_GATEWAY_API_KEY", "LLM_GATEWAY_BASE_URL",
    "LLM_GATEWAY_CHAT_MODEL", "LLM_GATEWAY_FAST_MODEL", "EMBEDDING_PROVIDER",
    "EMBEDDING_API_KEY", "EMBEDDING_BASE_URL", "EMBEDDING_MODEL"]

def localArgs : List String := ["-m", "aegora_runtime.local_mcp_server"]

/-- The query of `local_mcp_stdio_runner_tool_id`, which is written out there. -/
def localQuery : List (List Char × List Char) :=
  localArgs.map (fun value => (argName, value.toList))
    ++ [(envName, joinNames localEnvNames), (['l', 'o', 'c', 'a', 'l'], ['1'])]

/-- `local_mcp_stdio_runner_tool_id()`, with `sys.executable`. -/
def localMcpStdioRunnerToolId (executable : String) : String :=
  stdioUrl executable (List.intercalate ['&'] (localQuery.map field))

/-! ## Reading them -/

structure StdioParts where
  command : String
  args : List String
  cwd : Option String
  env : List (String × String)
deriving DecidableEq

/-- The variables of `parse_stdio_parts` that `os.environ` has. -/
def presentEnv (environ : String → Option String) (names : List String) :
    List (String × String) :=
  Dict.ofEntries (names.filterMap fun name =>
    let key := strip name
    if key = "" then none else (environ key).map fun value => (key, value))

def parseStdioParts (environ : String → Option String) (runnerToolId : String) :
    Except String StdioParts :=
  let parsed := urlsplit runnerToolId.toList
  let command := unquote (if parsed.netloc = [] then parsed.path else parsed.netloc)
  if command = [] then .error "mcp stdio command 缺失"
  else
    let query := parseQsl parsed.query
    .ok
      { command := String.ofList command
        args := (valuesOf argName query).map fun item => String.ofList (unquote item)
        cwd := (valuesOf cwdName query).head?.map String.ofList
        env := presentEnv environ
          ((((valuesOf envName query).headD []).splitOn ',').map String.ofList) }

/-! ## The command -/

/-- The command that is read: the part before its first slash, if there is one. -/
def receivedCommand (command : List Char) : List Char :=
  let host := command.takeWhile (· ≠ '/')
  if host = [] then command else host

/-- A command without a slash, or an absolute one. -/
def CommandSurvives (command : String) : Prop :=
  '/' ∈ command.toList → ['/'] <+: command.toList

theorem receivedCommand_eq_self_iff (command : String) :
    receivedCommand command.toList = command.toList ↔ CommandSurvives command := by
  unfold receivedCommand CommandSurvives
  generalize command.toList = text
  dsimp only
  rcases text with - | ⟨c, text⟩
  · simp
  by_cases hc : c = '/'
  · subst hc
    rw [List.takeWhile_cons_of_neg (by simp), if_pos rfl]
    exact iff_of_true rfl fun _ => ⟨text, rfl⟩
  · have hhost : (c :: text).takeWhile (· ≠ '/') ≠ [] := by
      rw [List.takeWhile_cons_of_pos (by simpa using hc)]
      exact List.cons_ne_nil _ _
    rw [if_neg hhost, List.takeWhile_eq_self_iff]
    constructor
    · intro hall hmem
      exact absurd rfl (of_decide_eq_true (hall '/' hmem))
    · intro hsurvives a ha
      refine decide_eq_true ?_
      rintro rfl
      obtain ⟨rest, hrest⟩ := hsurvives ha
      exact hc (List.cons.inj hrest).1.symm

theorem receivedCommand_ne_nil {command : List Char} (h : command ≠ []) :
    receivedCommand command ≠ [] := by
  unfold receivedCommand
  dsimp only
  split
  · exact h
  · assumption

theorem stdioUrl_query_visible {query : List Char} (h : ∀ c ∈ query, 32 < c.toNat ∧ c ≠ '#')
    (command : String) : (∀ c ∈ quote pathSafe command.toList ++ '?' :: query, 32 < c.toNat)
      ∧ '#' ∉ quote pathSafe command.toList ++ '?' :: query := by
  have hbody : ∀ c ∈ quote pathSafe command.toList ++ '?' :: query, 32 < c.toNat ∧ c ≠ '#' := by
    intro c hc
    rcases List.mem_append.mp hc with hc | hc
    · obtain ⟨b, hb, hquoted⟩ := mem_quote hc
      obtain ⟨hvisible, hnot, -⟩ := pathByte_visible hb c hquoted
      exact ⟨hvisible, fun heq => hnot (by rw [heq]; decide)⟩
    · rcases List.mem_cons.mp hc with rfl | hc
      · decide
      · exact h c hc
  exact ⟨fun c hc => (hbody c hc).1, fun hmem => (hbody '#' hmem).2 rfl⟩

/-- What `parse_stdio_parts` takes for the command. -/
theorem command_of_parts (command query : List Char) :
    unquote (if (quote pathSafe command ++ '?' :: query).takeWhile (· ∉ ['/', '?', '#']) = []
        then (quote pathSafe command).dropWhile (· ∉ ['/', '?', '#'])
        else (quote pathSafe command ++ '?' :: query).takeWhile (· ∉ ['/', '?', '#']))
      = receivedCommand command := by
  rw [takeWhile_quote]
  unfold receivedCommand
  dsimp only
  by_cases hhost : command.takeWhile (· ≠ '/') = []
  · have hpath : (quote pathSafe command).dropWhile (· ∉ ['/', '?', '#'])
        = quote pathSafe command := by
      rcases command with - | ⟨c, command⟩
      · rfl
      · have hc : c = '/' := by
          by_contra hc
          rw [List.takeWhile_cons_of_pos (by simpa using hc)] at hhost
          cases hhost
        rw [hc, quote_cons]
        rfl
    have hnil : quote pathSafe [] = [] := rfl
    rw [hhost, hnil, if_pos rfl, if_pos rfl, hpath, unquote_quote literal_pathSafe]
  · have hquoted : quote pathSafe (command.takeWhile (· ≠ '/')) ≠ [] := fun hnil => hhost <| by
      rw [← unquote_quote literal_pathSafe (command.takeWhile (· ≠ '/')), hnil]
      rfl
    rw [if_neg hquoted, if_neg hhost, unquote_quote literal_pathSafe]

/-- The parts of a URL that `stdioUrl` wrote. -/
theorem parseStdioParts_stdioUrl {query : List Char}
    (h : ∀ c ∈ query, 32 < c.toNat ∧ c ≠ '#') (environ : String → Option String)
    (command : String) :
    parseStdioParts environ (stdioUrl command query)
      = if command = "" then .error "mcp stdio command 缺失"
        else .ok
          { command := String.ofList (receivedCommand command.toList)
            args := (valuesOf argName (parseQsl query)).map fun item =>
              String.ofList (unquote item)
            cwd := (valuesOf cwdName (parseQsl query)).head?.map String.ofList
            env := presentEnv environ
              ((((valuesOf envName (parseQsl query)).headD []).splitOn ',').map
                String.ofList) } := by
  obtain ⟨hvisible, hfragment⟩ := stdioUrl_query_visible h command
  unfold parseStdioParts stdioUrl
  rw [String.toList_ofList, urlsplit_of_scheme (by decide) (by decide)
    (List.all_iff_forall_prop.mp (by decide)) hvisible hfragment, partition_dropWhile_quote]
  dsimp only
  rw [command_of_parts]
  by_cases hempty : command = ""
  · rw [hempty]
    rfl
  · have hgiven : command.toList ≠ [] := fun hnil => hempty (String.toList_eq_nil_iff.mp hnil)
    rw [if_neg hempty, if_neg (receivedCommand_ne_nil hgiven)]

/-! ## The query -/

theorem valuesOf_append (name : List Char) (xs ys : List (List Char × List Char)) :
    valuesOf name (xs ++ ys) = valuesOf name xs ++ valuesOf name ys := by
  unfold valuesOf
  rw [List.filter_append, List.map_append]

theorem valuesOf_own (name : List Char) (values : List String) :
    valuesOf name ((values.map fun value => (name, value.toList)).filter (·.2 ≠ []))
      = (values.filter (· ≠ "")).map String.toList := by
  unfold valuesOf
  induction values with
  | nil => rfl
  | cons value values ih =>
      by_cases hvalue : value = ""
      · subst hvalue
        exact ih
      · have hchars : value.toList ≠ [] := fun hnil => hvalue (String.toList_eq_nil_iff.mp hnil)
        rw [List.map_cons, List.filter_cons_of_pos (by simpa using hchars),
          List.filter_cons_of_pos (by simp), List.map_cons, ih,
          List.filter_cons_of_pos (by simpa using hvalue), List.map_cons]

theorem valuesOf_other {name : List Char} (pairs : List (List Char × List Char))
    (h : ∀ pair ∈ pairs, pair.1 ≠ name) : valuesOf name (pairs.filter (·.2 ≠ [])) = [] := by
  unfold valuesOf
  rw [List.map_eq_nil_iff, List.filter_eq_nil_iff]
  intro pair hpair hname
  exact h pair (List.mem_of_mem_filter hpair) (of_decide_eq_true hname)

theorem McpStdioConfig.mem_argPairs {config : McpStdioConfig} {pair : List Char × List Char}
    (h : pair ∈ config.argPairs) : pair.1 = argName := by
  obtain ⟨value, -, rfl⟩ := List.mem_map.mp h
  rfl

theorem McpStdioConfig.mem_cwdPairs {config : McpStdioConfig} {pair : List Char × List Char}
    (h : pair ∈ config.cwdPairs) : pair.1 = cwdName := by
  unfold cwdPairs at h
  split at h
  · cases h
  · split at h
    · cases h
    · rw [List.mem_singleton.mp h]

theorem McpStdioConfig.mem_envPairs {config : McpStdioConfig} {pair : List Char × List Char}
    (h : pair ∈ config.envPairs) : pair.1 = envName := by
  unfold envPairs at h
  split at h
  · cases h
  · rw [List.mem_singleton.mp h]

/-- The values of the query under one of the three names. -/
theorem McpStdioConfig.valuesOf_query (config : McpStdioConfig) (name : List Char) :
    valuesOf name (config.query.filter (·.2 ≠ []))
      = valuesOf name (config.argPairs.filter (·.2 ≠ []))
        ++ valuesOf name (config.cwdPairs.filter (·.2 ≠ []))
        ++ valuesOf name (config.envPairs.filter (·.2 ≠ [])) := by
  unfold query
  rw [List.filter_append, List.filter_append, valuesOf_append, valuesOf_append]

theorem McpStdioConfig.valuesOf_arg (config : McpStdioConfig) :
    valuesOf argName (config.query.filter (·.2 ≠ []))
      = (config.args.filter (· ≠ "")).map String.toList := by
  rw [valuesOf_query, valuesOf_other config.cwdPairs fun pair h => by
      rw [mem_cwdPairs h]; decide,
    valuesOf_other config.envPairs fun pair h => by rw [mem_envPairs h]; decide,
    List.append_nil, List.append_nil]
  exact valuesOf_own argName config.args

theorem McpStdioConfig.valuesOf_cwd (config : McpStdioConfig) :
    (valuesOf cwdName (config.query.filter (·.2 ≠ []))).head?.map String.ofList
      = config.cwd.filter (· ≠ "") := by
  rw [valuesOf_query, valuesOf_other config.argPairs fun pair h => by
      rw [mem_argPairs h]; decide,
    valuesOf_other config.envPairs fun pair h => by rw [mem_envPairs h]; decide,
    List.append_nil, List.nil_append]
  unfold cwdPairs
  rcases config.cwd with - | cwd
  · rfl
  · by_cases hcwd : cwd = ""
    · subst hcwd
      rfl
    · have hown : valuesOf cwdName ([(cwdName, cwd.toList)].filter (·.2 ≠ []))
          = ([cwd].filter (· ≠ "")).map String.toList := valuesOf_own cwdName [cwd]
      dsimp only
      rw [if_neg hcwd, hown, List.filter_cons_of_pos (by simpa using hcwd),
        Option.filter_some_pos (by simpa using hcwd)]
      exact congrArg some String.ofList_toList

theorem McpStdioConfig.valuesOf_env (config : McpStdioConfig) :
    (valuesOf envName (config.query.filter (·.2 ≠ []))).headD [] = joinNames config.env_vars := by
  rw [valuesOf_query, valuesOf_other config.argPairs fun pair h => by
      rw [mem_argPairs h]; decide,
    valuesOf_other config.cwdPairs fun pair h => by rw [mem_cwdPairs h]; decide,
    List.nil_append, List.nil_append]
  unfold envPairs
  by_cases hnone : config.env_vars = []
  · rw [if_pos hnone, hnone]
    rfl
  · rw [if_neg hnone]
    by_cases hblank : joinNames config.env_vars = []
    · rw [List.filter_cons_of_neg (by simpa using hblank), hblank]
      rfl
    · rw [List.filter_cons_of_pos (by simpa using hblank)]
      rfl

/-! ## The environment -/

/-- The names that are read from a joined list. -/
theorem mem_presentEnv (environ : String → Option String) (names : List String) (key : String) :
    key ∈ (presentEnv environ names).map Prod.fst
      ↔ key ≠ "" ∧ (environ key).isSome ∧ ∃ name ∈ names, strip name = key := by
  unfold presentEnv
  rw [Dict.mem_keys_ofEntries]
  constructor
  · intro hkey
    obtain ⟨⟨_, value⟩, hentry, rfl⟩ := List.mem_map.mp hkey
    obtain ⟨name, hname, hmade⟩ := List.mem_filterMap.mp hentry
    dsimp only at hmade
    split at hmade
    · cases hmade
    · rename_i hne
      obtain ⟨found, hfound, heq⟩ := Option.map_eq_some_iff.mp hmade
      obtain ⟨rfl, -⟩ := Prod.ext_iff.mp heq
      exact ⟨hne, Option.isSome_iff_exists.mpr ⟨found, hfound⟩, name, hname, rfl⟩
  · rintro ⟨hne, hpresent, name, hname, rfl⟩
    obtain ⟨value, hvalue⟩ := Option.isSome_iff_exists.mp hpresent
    refine List.mem_map.mpr ⟨(strip name, value), List.mem_filterMap.mpr ⟨name, hname, ?_⟩, rfl⟩
    dsimp only
    rw [if_neg hne, hvalue]
    rfl

theorem splitOn_joinNames {names : List String} (h : ∀ name ∈ names, ',' ∉ name.toList)
    (hnames : names ≠ []) : ((joinNames names).splitOn ',').map String.ofList = names := by
  unfold joinNames
  rw [List.splitOn_intercalate ',' ?_ (by simpa using hnames), List.map_map]
  · conv_rhs => rw [← List.map_id names]
    exact List.map_congr_left fun name _ => String.ofList_toList
  · intro text htext
    obtain ⟨name, hname, rfl⟩ := List.mem_map.mp htext
    exact h name hname

/-- An empty list of names is read as one empty name, which is left out. -/
theorem mem_presentEnv_joined {names : List String} (h : ∀ name ∈ names, ',' ∉ name.toList)
    (environ : String → Option String) (key : String) :
    key ∈ (presentEnv environ (((joinNames names).splitOn ',').map String.ofList)).map Prod.fst
      ↔ key ≠ "" ∧ (environ key).isSome ∧ ∃ name ∈ names, strip name = key := by
  rw [mem_presentEnv]
  by_cases hnames : names = []
  · subst hnames
    have hempty : ((joinNames []).splitOn ',').map String.ofList = [""] := rfl
    rw [hempty]
    refine and_congr_right fun hne => and_congr_right fun _ => ?_
    constructor
    · rintro ⟨name, hname, hstrip⟩
      rw [List.mem_singleton.mp hname] at hstrip
      exact (hne (hstrip.symm.trans (by decide))).elim
    · rintro ⟨name, hname, -⟩
      cases hname
  · rw [splitOn_joinNames h hnames]

/-! ## What comes back -/

/-- The parts that were read are those of the connection. -/
structure McpStdioConfig.ReadBack (environ : String → Option String) (config : McpStdioConfig)
    (parts : StdioParts) : Prop where
  command : parts.command = config.command
  args : parts.args = config.args
  cwd : parts.cwd = config.cwd
  env : ∀ name, name ∈ parts.env.map Prod.fst
    ↔ name ∈ config.env_vars ∧ (environ name).isSome

/-- The connections whose parts survive their id. -/
structure McpStdioConfig.Survives (environ : String → Option String) (config : McpStdioConfig) :
    Prop where
  command : CommandSurvives config.command
  args : ∀ value ∈ config.args, value ≠ "" ∧ hasEscape value.toList = false
  cwd : config.cwd ≠ some ""
  listed : ∀ name ∈ config.env_vars, (environ name).isSome →
    name ≠ "" ∧ ∃ other ∈ config.env_vars, strip other = name
  stripped : ∀ name ∈ config.env_vars, strip name ≠ "" → (environ (strip name)).isSome →
    strip name ∈ config.env_vars

theorem McpStdioConfig.parse_runnerToolId (config : McpStdioConfig)
    (environ : String → Option String) :
    parseStdioParts environ config.runnerToolId
      = .ok
        { command := String.ofList (receivedCommand config.command.toList)
          args := (config.args.filter (· ≠ "")).map fun value =>
            String.ofList (unquote value.toList)
          cwd := config.cwd.filter (· ≠ "")
          env := presentEnv environ
            (((joinNames config.env_vars).splitOn ',').map String.ofList) } := by
  unfold runnerToolId
  rw [parseStdioParts_stdioUrl (fun _ => mem_urlencode), if_neg config.command_given,
    parseQsl_urlencode, valuesOf_arg, valuesOf_cwd, valuesOf_env, List.map_map]
  rfl

theorem ofList_eq_iff {text : List Char} {s : String} :
    String.ofList text = s ↔ text = s.toList := by
  constructor
  · rintro rfl
    exact String.toList_ofList.symm
  · rintro rfl
    exact String.ofList_toList

/-- The arguments come back when none is blank or has an escape, and only then. -/
theorem received_args_eq_iff (args : List String) :
    (args.filter (· ≠ "")).map (fun value => String.ofList (unquote value.toList)) = args
      ↔ ∀ value ∈ args, value ≠ "" ∧ hasEscape value.toList = false := by
  have hitem : ∀ value : String, String.ofList (unquote value.toList) = value
      ↔ hasEscape value.toList = false := fun value => by
    rw [ofList_eq_iff, unquote_eq_self_iff]
  constructor
  · intro h
    have hall : args.filter (· ≠ "") = args :=
      List.filter_sublist.eq_of_length (by rw [← List.length_map, h])
    have hgiven := List.filter_eq_self.mp hall
    rw [hall] at h
    conv_rhs at h => rw [← List.map_id args]
    exact fun value hvalue => ⟨of_decide_eq_true (hgiven value hvalue),
      (hitem value).mp (List.map_inj_left.mp h value hvalue)⟩
  · intro h
    rw [List.filter_eq_self.mpr fun value hvalue => decide_eq_true (h value hvalue).1]
    conv_rhs => rw [← List.map_id args]
    exact List.map_congr_left fun value hvalue => (hitem value).mpr (h value hvalue).2

/-- The names that come back are the present ones of the list. -/
theorem received_env_iff (names : List String) (environ : String → Option String) :
    (∀ key, (key ≠ "" ∧ (environ key).isSome ∧ ∃ name ∈ names, strip name = key)
        ↔ (key ∈ names ∧ (environ key).isSome))
      ↔ (∀ name ∈ names, (environ name).isSome →
          name ≠ "" ∧ ∃ other ∈ names, strip other = name)
        ∧ (∀ name ∈ names, strip name ≠ "" → (environ (strip name)).isSome →
          strip name ∈ names) := by
  constructor
  · intro h
    constructor
    · intro name hname hpresent
      obtain ⟨hne, -, hother⟩ := (h name).mpr ⟨hname, hpresent⟩
      exact ⟨hne, hother⟩
    · intro name hname hne hpresent
      exact ((h (strip name)).mp ⟨hne, hpresent, name, hname, rfl⟩).1
  · rintro ⟨hlisted, hstripped⟩ key
    constructor
    · rintro ⟨hne, hpresent, name, hname, rfl⟩
      exact ⟨hstripped name hname hne hpresent, hpresent⟩
    · rintro ⟨hkey, hpresent⟩
      obtain ⟨hne, hother⟩ := hlisted key hkey hpresent
      exact ⟨hne, hpresent, hother⟩

theorem filter_ne_empty_iff (cwd : Option String) :
    cwd.filter (· ≠ "") = cwd ↔ cwd ≠ some "" := by
  rcases cwd with - | cwd
  · simp
  · simp

theorem McpStdioConfig.readBack_iff (config : McpStdioConfig)
    (hcomma : ∀ name ∈ config.env_vars, ',' ∉ name.toList) (environ : String → Option String) :
    (∃ parts, parseStdioParts environ config.runnerToolId = .ok parts
        ∧ config.ReadBack environ parts)
      ↔ config.Survives environ := by
  rw [parse_runnerToolId]
  have hcommand : String.ofList (receivedCommand config.command.toList) = config.command
      ↔ CommandSurvives config.command := by
    rw [ofList_eq_iff, receivedCommand_eq_self_iff]
  have hargs := received_args_eq_iff config.args
  have hcwd := filter_ne_empty_iff config.cwd
  have henv := received_env_iff config.env_vars environ
  constructor
  · rintro ⟨parts, hparts, hread⟩
    cases hparts
    obtain ⟨hlisted, hstripped⟩ := henv.mp fun key =>
      (mem_presentEnv_joined hcomma environ key).symm.trans (hread.env key)
    exact
      { command := hcommand.mp hread.command
        args := hargs.mp hread.args
        cwd := hcwd.mp hread.cwd
        listed := hlisted
        stripped := hstripped }
  · intro hsurvives
    refine ⟨_, rfl, ?_⟩
    exact
      { command := hcommand.mpr hsurvives.command
        args := hargs.mpr hsurvives.args
        cwd := hcwd.mpr hsurvives.cwd
        env := fun key => (mem_presentEnv_joined hcomma environ key).trans
          (henv.mpr ⟨hsurvives.listed, hsurvives.stripped⟩ key) }

/-! ## The Runtime's own server -/

/-- The letters of a query that is written as it is read. -/
def plainChar (c : Char) : Bool := 32 < c.toNat && c ∉ ['%', '+', '&', '=', '#']

set_option maxRecDepth 4000 in
theorem localQuery_plain :
    ∀ pair ∈ localQuery, (pair.1.all plainChar && pair.2.all plainChar) = true
      ∧ pair.2 ≠ [] := by
  decide +kernel

set_option maxRecDepth 4000 in
theorem localEnvNames_plain :
    ∀ name ∈ localEnvNames, ',' ∉ name.toList ∧ strip name = name ∧ name ≠ "" := by
  decide +kernel

theorem localArgs_plain : ∀ value ∈ localArgs, value ≠ "" ∧ hasEscape value.toList = false := by
  decide +kernel

theorem not_plainChar {text : List Char} (h : text.all plainChar = true) {c : Char}
    (hc : plainChar c = false) : c ∉ text := fun hmem => by
  rw [List.all_eq_true.mp h c hmem] at hc
  cases hc

theorem mem_localQuery_text {c : Char} (h : c ∈ List.intercalate ['&'] (localQuery.map field)) :
    32 < c.toNat ∧ c ≠ '#' := by
  have hplain : ∀ text : List Char, text.all plainChar = true → c ∈ text →
      32 < c.toNat ∧ c ≠ '#' := by
    intro text htext hc
    obtain ⟨hvisible, hnot⟩ := Bool.and_eq_true_iff.mp (List.all_eq_true.mp htext c hc)
    refine ⟨of_decide_eq_true hvisible, fun heq => ?_⟩
    rw [heq] at hnot
    revert hnot
    decide
  rcases mem_query h with rfl | rfl | ⟨pair, hpair, h⟩
  · decide
  · decide
  · obtain ⟨hname, hvalue⟩ := Bool.and_eq_true_iff.mp (localQuery_plain pair hpair).1
    exact h.elim (hplain pair.1 hname) (hplain pair.2 hvalue)

theorem parseQsl_localQuery :
    parseQsl (List.intercalate ['&'] (localQuery.map field)) = localQuery := by
  have hseparated : Separated localQuery := by
    intro pair hpair
    obtain ⟨hname, hvalue⟩ := Bool.and_eq_true_iff.mp (localQuery_plain pair hpair).1
    exact ⟨not_plainChar hname (by decide), not_plainChar hname (by decide),
      not_plainChar hvalue (by decide)⟩
  have hgiven : localQuery.filter (·.2 ≠ []) = localQuery :=
    List.filter_eq_self.mpr fun pair hpair => decide_eq_true (localQuery_plain pair hpair).2
  rw [parseQsl_fields hseparated]
  unfold decoded
  rw [hgiven]
  conv_rhs => rw [← List.map_id localQuery]
  refine List.map_congr_left fun pair hpair => Prod.ext ?_ ?_
  · have hname := (Bool.and_eq_true_iff.mp (localQuery_plain pair hpair).1).1
    exact unquotePlus_of_plain (not_plainChar hname (by decide)) (not_plainChar hname (by decide))
  · have hvalue := (Bool.and_eq_true_iff.mp (localQuery_plain pair hpair).1).2
    exact unquotePlus_of_plain (not_plainChar hvalue (by decide))
      (not_plainChar hvalue (by decide))

/-- What the id of the Runtime's own server is read as, with the executable it was made from. -/
structure LocalReadBack (environ : String → Option String) (executable : String)
    (parts : StdioParts) : Prop where
  command : parts.command = executable
  args : parts.args = localArgs
  cwd : parts.cwd = none
  env : ∀ name, name ∈ parts.env.map Prod.fst ↔ name ∈ localEnvNames ∧ (environ name).isSome

theorem parse_localMcpStdioRunnerToolId (executable : String)
    (environ : String → Option String) :
    parseStdioParts environ (localMcpStdioRunnerToolId executable)
      = if executable = "" then .error "mcp stdio command 缺失"
        else .ok
          { command := String.ofList (receivedCommand executable.toList)
            args := localArgs
            cwd := none
            env := presentEnv environ
              (((joinNames localEnvNames).splitOn ',').map String.ofList) } := by
  have hargs : valuesOf argName localQuery = localArgs.map String.toList := rfl
  have hcwd : valuesOf cwdName localQuery = [] := rfl
  have henv : valuesOf envName localQuery = [joinNames localEnvNames] := rfl
  have hsame : localArgs.map (fun value => String.ofList (unquote value.toList)) = localArgs := by
    have hfilter : localArgs.filter (· ≠ "") = localArgs :=
      List.filter_eq_self.mpr fun value hvalue => decide_eq_true (localArgs_plain value hvalue).1
    have hreceived := (received_args_eq_iff localArgs).mpr localArgs_plain
    rw [hfilter] at hreceived
    exact hreceived
  unfold localMcpStdioRunnerToolId
  rw [parseStdioParts_stdioUrl fun _ => mem_localQuery_text, parseQsl_localQuery, hargs, hcwd,
    henv, List.map_map]
  exact congrArg _ (by
    conv_rhs => rw [← hsame]
    rfl)

theorem localReadBack_iff (executable : String) (environ : String → Option String) :
    (∃ parts, parseStdioParts environ (localMcpStdioRunnerToolId executable) = .ok parts
        ∧ LocalReadBack environ executable parts)
      ↔ executable ≠ "" ∧ CommandSurvives executable := by
  have hcommand : String.ofList (receivedCommand executable.toList) = executable
      ↔ CommandSurvives executable := by
    rw [ofList_eq_iff, receivedCommand_eq_self_iff]
  have hcomma : ∀ name ∈ localEnvNames, ',' ∉ name.toList := fun name hname =>
    (localEnvNames_plain name hname).1
  have henv := (received_env_iff localEnvNames environ).mpr
    ⟨fun name hname _ => ⟨(localEnvNames_plain name hname).2.2, name, hname,
        (localEnvNames_plain name hname).2.1⟩,
      fun name hname _ _ => by rw [(localEnvNames_plain name hname).2.1]; exact hname⟩
  rw [parse_localMcpStdioRunnerToolId]
  by_cases hempty : executable = ""
  · rw [if_pos hempty]
    exact iff_of_false (fun ⟨_, hparts, _⟩ => by cases hparts) fun h => h.1 hempty
  · rw [if_neg hempty]
    constructor
    · rintro ⟨parts, hparts, hread⟩
      cases hparts
      exact ⟨hempty, hcommand.mp hread.command⟩
    · rintro ⟨-, hsurvives⟩
      exact ⟨_, rfl, hcommand.mpr hsurvives, rfl, rfl, fun key =>
        (mem_presentEnv_joined hcomma environ key).trans (henv key)⟩

/-- The ids of stdio connections are read back as what they were made from exactly for commands
that are absolute or have no slash, arguments that are neither blank nor hold an escape, a
directory that is not blank, and names that are listed without blanks around them. -/
theorem stdio_ids_decode_iff (environ : String → Option String) :
    (∀ config : McpStdioConfig, (∀ name ∈ config.env_vars, ',' ∉ name.toList) →
      ((∃ parts, parseStdioParts environ config.runnerToolId = .ok parts
          ∧ config.ReadBack environ parts)
        ↔ config.Survives environ))
      ∧ ∀ executable : String,
        (∃ parts, parseStdioParts environ (localMcpStdioRunnerToolId executable) = .ok parts
            ∧ LocalReadBack environ executable parts)
          ↔ executable ≠ "" ∧ CommandSurvives executable :=
  ⟨fun config hcomma => config.readBack_iff hcomma environ,
    fun executable => localReadBack_iff executable environ⟩

def npxConfig : McpStdioConfig where
  command := "npx"
  args := ["-y", "a b"]
  env_vars := ["KEY"]
  command_given := by decide
  command_fits := by decide
  args_fit := by decide
  cwd_fits := fun _ h => by cases h
  env_vars_fit := by decide

def keyEnviron (name : String) : Option String := if name = "KEY" then some "v" else none

theorem stdio_ids_decode_npx :
    ∃ parts, parseStdioParts keyEnviron npxConfig.runnerToolId = .ok parts
      ∧ npxConfig.ReadBack keyEnviron parts :=
  ((stdio_ids_decode_iff keyEnviron).1 npxConfig (by decide)).mpr
    { command := fun h => by revert h; decide
      args := by decide
      cwd := by decide
      listed := by decide
      stripped := by decide }

/-- A script of the working directory. -/
def scriptConfig : McpStdioConfig where
  command := "./run.sh"
  command_given := by decide
  command_fits := by decide
  args_fit := by decide
  cwd_fits := fun _ h => by cases h
  env_vars_fit := by decide

/-- Its id is read as the command `.`. -/
theorem script_command_lost :
    ¬ ∀ (environ : String → Option String) (config : McpStdioConfig),
      (∀ name ∈ config.env_vars, ',' ∉ name.toList) →
        ∃ parts, parseStdioParts environ config.runnerToolId = .ok parts
          ∧ config.ReadBack environ parts := by
  intro h
  have hread := h (fun _ => none) scriptConfig (by decide)
  have hsurvives := ((scriptConfig.readBack_iff (by decide) fun _ => none).mp hread).command
  have hslash : '/' ∈ scriptConfig.command.toList := by decide
  have habsolute := hsurvives hslash
  revert habsolute
  decide

end Aegora
