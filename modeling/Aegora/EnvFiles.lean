import Aegora.NativePg
import Aegora.TextLines

/-!
# The shared environment file

Both services read the `.env` of the repository, each with a parser of its own.
`load_env_file` of the Runtime sets the variables that the process does not
have, so the first line of a key counts; `parse_env_file` of the Control Plane
fills a dictionary, so the last one does, and it knows the prefix `export`. One
takes a pair of quotes from a value, the other every quote at its ends.

`env_values_agree_iff` says for which files the two see the same value.
-/

namespace Aegora

open Py

namespace EnvFiles

/-! ## Lines -/

/-- The quotes that a value may stand in. -/
def quoteMarks : List Char := [Char.ofNat 39, Char.ofNat 34]

/-- `text.startswith(start)`. -/
def startsWith (start text : String) : Bool := start.toList.isPrefixOf text.toList

/-- `line.split("=", 1)`, both sides stripped; `none` for a line without `=`. -/
def splitAssignment (line : String) : Option (String × String) :=
  match splitAtChar '=' line.toList with
  | (_, none) => none
  | (key, some value) => some (strip (String.ofList key), strip (String.ofList value))

/-- What `load_env_file` reads a line as, before the quotes are taken off. -/
def plainAssignment (rawLine : String) : Option (String × String) :=
  let line := strip rawLine
  if line = "" ∨ startsWith "#" line then none else splitAssignment line

/-- What `parse_env_file` reads a line as, before the quotes are taken off. -/
def exportedAssignment (rawLine : String) : Option (String × String) :=
  let line := strip rawLine
  if line = "" ∨ startsWith "#" line then none
  else
    splitAssignment
      (if startsWith "export " line then strip (String.ofList (line.toList.drop 7)) else line)

/-- `_strip_quotes`: one pair of the same quotes. -/
def stripQuotes (value : String) : String :=
  match value.toList with
  | [] => value
  | first :: rest =>
      if rest.getLast? = some first ∧ first ∈ quoteMarks then String.ofList rest.dropLast else value

/-- `value.strip` of all quotes. -/
def stripAllQuotes (value : String) : String := String.ofList (stripOf quoteMarks value.toList)

/-! ## The Runtime -/

/-- Variables and their values. -/
abbrev Environ := List (String × String)

def nul : Char := Char.ofNat 0

/-- `os.environ[key] = value`. -/
def setEnviron (environ : Environ) (key value : String) : Except String Environ :=
  if nul ∈ key.toList ∨ nul ∈ value.toList ∨ '=' ∈ key.toList then .error "ValueError"
  else if key = "" then .error "OSError"
  else .ok (Dict.set environ key value)

/-- `os.environ.setdefault(key, value)`. -/
def setDefault (environ : Environ) (entry : String × String) : Except String Environ :=
  if (Dict.get? environ entry.1).isSome then .ok environ else setEnviron environ entry.1 entry.2

/-- The assignments that `load_env_file` reads in a text. -/
def plainEntries (text : String) : List (String × String) :=
  (splitLines text).filterMap plainAssignment

/-- `load_env_file`. -/
def loadEnvFile (file : Option String) (environ : Environ) : Except String Environ :=
  match file with
  | none => .ok environ
  | some text =>
      ((plainEntries text).map fun entry => (entry.1, stripQuotes entry.2)).foldlM setDefault
        environ

/-! ## The Control Plane -/

/-- The assignments that `parse_env_file` reads in a text. -/
def exportedEntries (text : String) : List (String × String) :=
  (splitLines text).filterMap exportedAssignment

/-- `parse_env_file`. -/
def parseEnvFile (file : Option String) : List (String × String) :=
  match file with
  | none => []
  | some text =>
      Dict.ofEntries ((exportedEntries text).map fun entry => (entry.1, stripAllQuotes entry.2))

/-- `env_value`. -/
def envValue (environ : Environ) (file : Option String) (key : String) : String :=
  match nonEmpty (Dict.get? environ key) with
  | some value => value
  | none => (Dict.get? (parseEnvFile file) key).getD ""

/-- The two services see the same value of a key: the Runtime after it has loaded the file, the
Control Plane when it asks for it. A missing value is an empty one. -/
def SeesSame (runtime controlPlane : Environ) (text key : String) : Prop :=
  ∃ loaded, loadEnvFile (some text) runtime = .ok loaded
    ∧ (Dict.get? loaded key).getD "" = envValue controlPlane (some text) key

/-! ## Quotes -/

section Quotes

variable {chars text : List Char}

/-- None of the characters stands at an end of the text. -/
def FreeEnds (chars text : List Char) : Prop :=
  (∀ c ∈ text.head?, c ∉ chars) ∧ ∀ c ∈ text.getLast?, c ∉ chars

theorem dropWhile_mem_eq_self (h : ∀ c ∈ text.head?, c ∉ chars) :
    text.dropWhile (· ∈ chars) = text := by
  cases text with
  | nil => rfl
  | cons c rest => exact List.dropWhile_cons_of_neg (by simpa using h c rfl)

theorem stripOf_eq_self (h : FreeEnds chars text) : stripOf chars text = text := by
  unfold stripOf
  rw [dropWhile_mem_eq_self h.1, dropWhile_mem_eq_self, List.reverse_reverse]
  rw [List.head?_reverse]
  exact h.2

theorem head?_dropWhile_mem : ∀ c ∈ (text.dropWhile (· ∈ chars)).head?, c ∉ chars := by
  intro c hc
  have hnot := List.head?_dropWhile_not (fun c => decide (c ∈ chars)) text
  rw [Option.mem_def.mp hc] at hnot
  simpa using hnot

theorem freeEnds_stripOf : FreeEnds chars (stripOf chars text) := by
  constructor
  · have hfront := dropWhile_rdropWhile (fun c => decide (c ∈ chars))
      (List.dropWhile_idempotent (p := fun c => decide (c ∈ chars)) text)
    intro c hc
    refine @head?_dropWhile_mem _ (stripOf chars text) c ?_
    rw [show (stripOf chars text).dropWhile (· ∈ chars) = stripOf chars text from hfront]
    exact hc
  · unfold stripOf
    rw [List.getLast?_reverse]
    exact head?_dropWhile_mem

/-- A character at both ends comes off. -/
theorem stripOf_wrap {c : Char} (hc : c ∈ chars) :
    stripOf chars (c :: (text ++ [c])) = stripOf chars text := by
  unfold stripOf
  rw [List.dropWhile_cons_of_pos (by simpa using hc)]
  by_cases hall : text.dropWhile (· ∈ chars) = []
  · rw [List.dropWhile_append, hall]
    simp [hc]
  · rw [List.dropWhile_append, List.isEmpty_eq_false_iff.mpr hall, if_neg Bool.false_ne_true,
      List.reverse_append, List.reverse_singleton, List.singleton_append,
      List.dropWhile_cons_of_pos (by simpa using hc)]

/-- The value has no quote at its ends, or stands in one pair of quotes. -/
def PlainlyQuoted (value : String) : Prop :=
  FreeEnds quoteMarks value.toList
    ∨ ∃ quote ∈ quoteMarks, ∃ inner,
      value.toList = quote :: (inner ++ [quote]) ∧ FreeEnds quoteMarks inner

theorem stripQuotes_of_pair {value : String} {quote : Char} (hquote : quote ∈ quoteMarks)
    {inner : List Char} (hvalue : value.toList = quote :: (inner ++ [quote])) :
    stripQuotes value = String.ofList inner := by
  unfold stripQuotes
  rw [hvalue]
  dsimp only
  rw [if_pos ⟨List.getLast?_concat, hquote⟩, List.dropLast_concat]

/-- Either the value stays, or it stands in a pair of quotes. -/
theorem stripQuotes_cases (value : String) :
    stripQuotes value = value
      ∨ ∃ quote ∈ quoteMarks, ∃ inner, value.toList = quote :: (inner ++ [quote]) := by
  unfold stripQuotes
  cases hvalue : value.toList with
  | nil => exact Or.inl rfl
  | cons first rest =>
      dsimp only
      split
      · rename_i hpair
        refine Or.inr ⟨first, hpair.2, rest.dropLast, ?_⟩
        rw [List.dropLast_append_getLast? first hpair.1]
      · exact Or.inl rfl

theorem stripAllQuotes_of_freeEnds {value : String} (h : FreeEnds quoteMarks value.toList) :
    stripAllQuotes value = value := by
  unfold stripAllQuotes
  rw [stripOf_eq_self h, String.ofList_toList]

theorem stripQuotes_of_freeEnds {value : String} (h : FreeEnds quoteMarks value.toList) :
    stripQuotes value = value := by
  rcases stripQuotes_cases value with hkept | ⟨quote, hquote, inner, hvalue⟩
  · exact hkept
  · rw [hvalue] at h
    exact absurd hquote (h.1 quote rfl)

theorem stripAllQuotes_of_pair {value : String} {quote : Char} (hquote : quote ∈ quoteMarks)
    {inner : List Char} (hvalue : value.toList = quote :: (inner ++ [quote])) :
    stripAllQuotes value = String.ofList (stripOf quoteMarks inner) := by
  unfold stripAllQuotes
  rw [hvalue, stripOf_wrap hquote]

/-- When the two ways to take off quotes agree on two values. -/
theorem stripQuotes_eq_iff (value other : String) :
    stripQuotes value = stripAllQuotes other
      ↔ PlainlyQuoted value ∧ stripAllQuotes value = stripAllQuotes other := by
  have hother : FreeEnds quoteMarks (stripAllQuotes other).toList := by
    unfold stripAllQuotes
    rw [String.toList_ofList]
    exact freeEnds_stripOf
  constructor
  · intro h
    rcases stripQuotes_cases value with hkept | ⟨quote, hquote, inner, hvalue⟩
    · rw [hkept] at h
      rw [← h] at hother
      exact ⟨Or.inl hother, (stripAllQuotes_of_freeEnds hother).trans h⟩
    · rw [stripQuotes_of_pair hquote hvalue] at h
      rw [← h, String.toList_ofList] at hother
      refine ⟨Or.inr ⟨quote, hquote, inner, hvalue, hother⟩, ?_⟩
      rw [stripAllQuotes_of_pair hquote hvalue, stripOf_eq_self hother, h]
  · rintro ⟨hfree | ⟨quote, hquote, inner, hvalue, hinner⟩, h⟩
    · rw [stripQuotes_of_freeEnds hfree, ← h, stripAllQuotes_of_freeEnds hfree]
    · rw [stripQuotes_of_pair hquote hvalue, ← h, stripAllQuotes_of_pair hquote hvalue,
        stripOf_eq_self hinner]

end Quotes

/-! ## Loading -/

section Loading

variable {environ loaded : Environ} {entries : List (String × String)}

/-- The operating system takes the variable. -/
def Settable (key value : String) : Prop :=
  nul ∉ key.toList ∧ nul ∉ value.toList ∧ '=' ∉ key.toList ∧ key ≠ ""

/-- Each variable is known before its line, or can be set. -/
def Loadable (environ : Environ) (entries : List (String × String)) : Prop :=
  ∀ before entry after, entries = before ++ entry :: after →
    (Dict.get? environ entry.1).isSome ∨ entry.1 ∈ before.map Prod.fst
      ∨ Settable entry.1 entry.2

theorem setEnviron_eq_ok {key value : String} :
    setEnviron environ key value = .ok loaded
      ↔ Settable key value ∧ loaded = Dict.set environ key value := by
  unfold setEnviron Settable
  split
  · rename_i h
    refine ⟨fun h => (nomatch h), fun hset => ?_⟩
    tauto
  · rename_i h
    split
    · rename_i hkey
      refine ⟨fun h => (nomatch h), fun hset => ?_⟩
      tauto
    · rename_i hkey
      rw [Except.ok.injEq]
      tauto

theorem setDefault_eq_ok {entry : String × String} :
    setDefault environ entry = .ok loaded
      ↔ ((Dict.get? environ entry.1).isSome = true ∧ loaded = environ)
        ∨ (Dict.get? environ entry.1 = none ∧ Settable entry.1 entry.2
          ∧ loaded = Dict.set environ entry.1 entry.2) := by
  unfold setDefault
  split
  · rename_i hknown
    rw [Except.ok.injEq]
    constructor
    · exact fun h => Or.inl ⟨hknown, h.symm⟩
    · rintro (⟨-, h⟩ | ⟨hnone, -⟩)
      · exact h.symm
      · rw [hnone] at hknown
        cases hknown
  · rename_i hunknown
    rw [setEnviron_eq_ok]
    rw [Bool.not_eq_true, Option.isSome_eq_false_iff, Option.isNone_iff_eq_none] at hunknown
    constructor
    · exact fun h => Or.inr ⟨hunknown, h⟩
    · rintro (⟨hknown, -⟩ | ⟨-, h⟩)
      · rw [hunknown] at hknown
        cases hknown
      · exact h

/-- The first value of a key counts, and one that the process has counts before it. -/
theorem get?_loaded (h : entries.foldlM setDefault environ = .ok loaded) (key : String) :
    Dict.get? loaded key = (Dict.get? environ key).or (entries.lookup key) := by
  induction entries generalizing environ with
  | nil =>
      obtain rfl := Except.ok.inj h
      rw [List.lookup_nil, Option.or_none]
  | cons entry rest ih =>
      obtain ⟨name, value⟩ := entry
      rw [List.foldlM_cons] at h
      obtain ⟨next, hset, hrest⟩ := bind_eq_ok.mp h
      rw [ih hrest]
      rcases setDefault_eq_ok.mp hset with ⟨hknown, rfl⟩ | ⟨hnone, -, rfl⟩
      · by_cases hkey : key = name
        · subst hkey
          obtain ⟨old, hold⟩ := Option.isSome_iff_exists.mp hknown
          rw [hold, Option.some_or, Option.some_or]
        · rw [List.lookup_cons, beq_false_of_ne hkey]
      · rw [Dict.get?_set]
        by_cases hkey : key = name
        · subst hkey
          rw [if_pos rfl, List.lookup_cons_self, hnone, Option.some_or, Option.none_or]
        · rw [if_neg hkey, List.lookup_cons, beq_false_of_ne hkey]

theorem loadable_cons {entry : String × String} :
    Loadable environ (entry :: entries)
      ↔ ((Dict.get? environ entry.1).isSome = true ∨ Settable entry.1 entry.2)
        ∧ ∀ before other after, entries = before ++ other :: after →
          ((Dict.get? environ other.1).isSome = true ∨ other.1 = entry.1)
            ∨ other.1 ∈ before.map Prod.fst ∨ Settable other.1 other.2 := by
  unfold Loadable
  constructor
  · intro h
    refine ⟨?_, fun before other after heq => ?_⟩
    · have hfirst := h [] entry entries rfl
      simpa using hfirst
    · have hother := h (entry :: before) other after (by rw [heq, List.cons_append])
      rw [List.map_cons, List.mem_cons] at hother
      tauto
  · rintro ⟨hfirst, hrest⟩ before other after heq
    cases before with
    | nil =>
        obtain ⟨rfl, -⟩ := List.cons.inj heq
        exact hfirst.imp_right Or.inr
    | cons first before =>
        obtain ⟨rfl, htail⟩ := List.cons.inj heq
        have hother := hrest before other after htail
        rw [List.map_cons, List.mem_cons]
        tauto

theorem exists_setDefault (environ : Environ) (entry : String × String) :
    (∃ next, setDefault environ entry = .ok next)
      ↔ (Dict.get? environ entry.1).isSome = true ∨ Settable entry.1 entry.2 := by
  constructor
  · rintro ⟨next, h⟩
    rcases setDefault_eq_ok.mp h with ⟨hknown, -⟩ | ⟨-, hsettable, -⟩
    · exact Or.inl hknown
    · exact Or.inr hsettable
  · intro h
    cases hget : Dict.get? environ entry.1 with
    | some old => exact ⟨environ, setDefault_eq_ok.mpr (Or.inl ⟨by rw [hget]; rfl, rfl⟩)⟩
    | none =>
        rw [hget] at h
        have hsettable := h.resolve_left Bool.false_ne_true
        exact ⟨_, setDefault_eq_ok.mpr (Or.inr ⟨hget, hsettable, rfl⟩)⟩

/-- After a line its key is known, and what was known before. -/
theorem isSome_setDefault {next : Environ} {entry : String × String}
    (h : setDefault environ entry = .ok next) (key : String) :
    (Dict.get? next key).isSome = true
      ↔ (Dict.get? environ key).isSome = true ∨ key = entry.1 := by
  rcases setDefault_eq_ok.mp h with ⟨hknown, rfl⟩ | ⟨-, -, rfl⟩
  · exact ⟨Or.inl, fun hcases => hcases.elim id fun hkey => hkey ▸ hknown⟩
  · rw [Dict.get?_set]
    by_cases hkey : key = entry.1 <;> simp [hkey]

/-- The file loads exactly when each of its variables can be set in its turn. -/
theorem loadable_iff :
    (∃ loaded, entries.foldlM setDefault environ = .ok loaded) ↔ Loadable environ entries := by
  induction entries generalizing environ with
  | nil => exact ⟨fun _ before entry after h => by simp at h, fun _ => ⟨environ, rfl⟩⟩
  | cons entry rest ih =>
      have hrest : ∀ {next}, setDefault environ entry = .ok next →
          (Loadable next rest ↔ ∀ before other after, rest = before ++ other :: after →
            ((Dict.get? environ other.1).isSome = true ∨ other.1 = entry.1)
              ∨ other.1 ∈ before.map Prod.fst ∨ Settable other.1 other.2) := by
        intro next hset
        unfold Loadable
        simp only [isSome_setDefault hset]
      rw [loadable_cons, ← exists_setDefault]
      constructor
      · rintro ⟨loaded, h⟩
        rw [List.foldlM_cons] at h
        obtain ⟨next, hset, htail⟩ := bind_eq_ok.mp h
        exact ⟨⟨next, hset⟩, (hrest hset).mp (ih.mp ⟨loaded, htail⟩)⟩
      · rintro ⟨⟨next, hset⟩, h⟩
        obtain ⟨loaded, htail⟩ := ih.mpr ((hrest hset).mpr h)
        refine ⟨loaded, ?_⟩
        rw [List.foldlM_cons]
        exact bind_eq_ok.mpr ⟨next, hset, htail⟩

end Loading

/-! ## What the two services see -/

section Values

variable {runtime controlPlane : Environ} {key : String}

/-- The value of the first line that assigns the key without `export`. -/
def firstValue (text key : String) : String := ((plainEntries text).lookup key).getD ""

/-- The value of the last line that assigns the key, with `export` or without. -/
def lastValue (text key : String) : String := ((exportedEntries text).reverse.lookup key).getD ""

theorem nul_mem_stripQuotes (value : String) :
    nul ∈ (stripQuotes value).toList ↔ nul ∈ value.toList := by
  rcases stripQuotes_cases value with hkept | ⟨quote, hquote, inner, hvalue⟩
  · rw [hkept]
  · have hne : nul ≠ quote := fun heq => absurd (heq ▸ hquote) (by decide)
    rw [stripQuotes_of_pair hquote hvalue, hvalue, String.toList_ofList]
    simp [hne]

theorem settable_stripQuotes (name value : String) :
    Settable name (stripQuotes value) ↔ Settable name value := by
  unfold Settable
  rw [nul_mem_stripQuotes]

/-- The quotes make no difference to what can be set. -/
theorem loadable_stripQuotes {environ : Environ} {entries : List (String × String)} :
    Loadable environ (entries.map fun entry => (entry.1, stripQuotes entry.2))
      ↔ Loadable environ entries := by
  unfold Loadable
  constructor
  · intro h before entry after heq
    have hentry := h (before.map fun entry => (entry.1, stripQuotes entry.2))
      (entry.1, stripQuotes entry.2) (after.map fun entry => (entry.1, stripQuotes entry.2))
      (by rw [heq, List.map_append, List.map_cons])
    rw [settable_stripQuotes, List.map_map] at hentry
    exact hentry
  · intro h before entry after heq
    obtain ⟨before', rest, rfl, rfl, hrest⟩ := List.map_eq_append_iff.mp heq
    obtain ⟨entry', after', rfl, rfl, rfl⟩ := List.map_eq_cons_iff.mp hrest
    have hentry := h before' entry' after' rfl
    rw [settable_stripQuotes, List.map_map]
    exact hentry

theorem getD_loaded {loaded : Environ} {text : String} (hruntime : Dict.get? runtime key = none)
    (h : loadEnvFile (some text) runtime = .ok loaded) :
    (Dict.get? loaded key).getD "" = stripQuotes (firstValue text key) := by
  rw [get?_loaded h, hruntime, Option.none_or]
  have hlookup := Dict.get?_map_values stripQuotes (plainEntries text) key
  unfold Dict.get? at hlookup
  rw [hlookup, firstValue]
  cases (plainEntries text).lookup key <;> rfl

theorem envValue_eq (hcontrol : Dict.get? controlPlane key = none) (text : String) :
    envValue controlPlane (some text) key = stripAllQuotes (lastValue text key) := by
  unfold envValue parseEnvFile
  rw [hcontrol]
  change (Dict.get? (Dict.ofEntries _) key).getD "" = _
  rw [Dict.get?_ofEntries, ← List.map_reverse, Dict.get?_map_values, lastValue, Dict.get?]
  cases (exportedEntries text).reverse.lookup key <;> rfl

end Values

end EnvFiles

open EnvFiles

/-- Where neither process has the variable, the two services see one value of it exactly when the
file loads, its first plain line puts the value in no quotes or in one pair, and its last line
gives the same value but for quotes. -/
theorem env_values_agree_iff {runtime controlPlane : Environ} {key : String}
    (hruntime : Dict.get? runtime key = none) (hcontrol : Dict.get? controlPlane key = none)
    (text : String) :
    SeesSame runtime controlPlane text key
      ↔ Loadable runtime (plainEntries text) ∧ PlainlyQuoted (firstValue text key)
        ∧ stripAllQuotes (firstValue text key) = stripAllQuotes (lastValue text key) := by
  unfold SeesSame
  rw [envValue_eq hcontrol, ← stripQuotes_eq_iff, ← loadable_stripQuotes, ← loadable_iff]
  constructor
  · rintro ⟨loaded, hload, hvalue⟩
    rw [getD_loaded hruntime hload] at hvalue
    exact ⟨⟨loaded, hload⟩, hvalue⟩
  · rintro ⟨⟨loaded, hload⟩, hvalue⟩
    exact ⟨loaded, hload, (getD_loaded hruntime hload).trans hvalue⟩

theorem env_values_agree_iff_model :
    SeesSame [("HOME", "/srv/runtime"), ("LANG", "C")] [("HOME", "/srv/control")]
        "LLM_MODEL=aegora" "LLM_MODEL"
      ↔ Loadable [("HOME", "/srv/runtime"), ("LANG", "C")] (plainEntries "LLM_MODEL=aegora")
        ∧ PlainlyQuoted (firstValue "LLM_MODEL=aegora" "LLM_MODEL")
        ∧ stripAllQuotes (firstValue "LLM_MODEL=aegora" "LLM_MODEL")
          = stripAllQuotes (lastValue "LLM_MODEL=aegora" "LLM_MODEL") :=
  @env_values_agree_iff [("HOME", "/srv/runtime"), ("LANG", "C")] [("HOME", "/srv/control")]
    "LLM_MODEL" (by decide) (by decide) "LLM_MODEL=aegora"

/-- The Runtime does not know the prefix `export`. -/
theorem exported_line_unseen :
    ¬ ∀ (runtime controlPlane : Environ) (text key : String), Dict.get? runtime key = none →
      Dict.get? controlPlane key = none → SeesSame runtime controlPlane text key := by
  intro h
  obtain ⟨loaded, hload, hvalue⟩ := h [] [] "export STRAPI_API_TOKEN=abc" "STRAPI_API_TOKEN" rfl rfl
  have hfile : loadEnvFile (some "export STRAPI_API_TOKEN=abc") []
      = .ok [("export STRAPI_API_TOKEN", "abc")] := by decide +kernel
  rw [hfile] at hload
  obtain rfl := Except.ok.inj hload
  exact absurd hvalue (by decide +kernel)

end Aegora
