import Aegora.JsonText

/-!
# Reading JSON texts

`json.loads` of a text, as the C scanner of the standard library reads it:
which texts it refuses, what it makes of escapes and numbers, and that arrays
and objects may only be nested to a depth that the interpreter bounds. An
escape can name half of a surrogate pair, so that a text of Python is a list
of code points here and not a `String`.

`scanOnce` takes fuel; `loads_ne_fuel` says that a text never uses up what
`loads` gives it.
-/

namespace Py

/-! ## Texts and values -/

/-- The code points of a `str`. -/
abbrev PyText := List Nat

def codePoints (text : String) : PyText := text.toList.map Char.toNat

/-- What `json.loads` returns; a float is given by its `repr`. -/
inductive Loaded where
  | null
  | bool (b : Bool)
  | int (n : Int)
  | float (repr : String)
  | str (text : PyText)
  | arr (items : List Loaded)
  | obj (entries : List (PyText × Loaded))

namespace Loaded

/-- `bool(x)`. -/
def truthy : Loaded → Bool
  | .null => false
  | .bool b => b
  | .int n => n != 0
  | .float repr => repr != "0.0" && repr != "-0.0"
  | .str text => !text.isEmpty
  | .arr items => !items.isEmpty
  | .obj entries => !entries.isEmpty

/-- `x == n`. -/
def eqInt (n : Int) : Loaded → Bool
  | .bool b => (if b then 1 else 0) = n
  | .int m => m = n
  | .float repr => floatInt? repr = some n
  | _ => false

/-- `d[key] = value`. -/
def setEntry (entries : List (PyText × Loaded)) (key : PyText) (value : Loaded) :
    List (PyText × Loaded) :=
  if entries.any (fun entry => entry.1 = key) then
    entries.map fun entry => if entry.1 = key then (key, value) else entry
  else entries ++ [(key, value)]

/-- `d.get(key)`. -/
def get (entries : List (PyText × Loaded)) (key : PyText) : Loaded :=
  ((entries.find? fun entry => entry.1 = key).map Prod.snd).getD .null

end Loaded

def isSurrogate (n : Nat) : Bool := 0xD800 ≤ n && n < 0xE000

/-- A code point in the `repr` of a text. -/
def reprPoint (quote n : Nat) : PyText :=
  if n = quote || n = 92 then [92, n]
  else if n = 10 then codePoints (String.ofList [backslash, 'n'])
  else if n = 13 then codePoints (String.ofList [backslash, 'r'])
  else if n = 9 then codePoints (String.ofList [backslash, 't'])
  else if n < 32 || n = 127 then
    codePoints (String.ofList [backslash, 'x', hexDigit (n / 16), hexDigit n])
  else if isSurrogate n then
    codePoints (String.ofList [backslash, 'u', hexDigit (n / 4096), hexDigit (n / 256),
      hexDigit (n / 16), hexDigit n])
  else [n]

def reprText (text : PyText) : PyText :=
  let quote := if 39 ∈ text ∧ 34 ∉ text then 34 else 39
  quote :: text.flatMap (reprPoint quote) ++ [quote]

mutual

/-- `repr(x)`. -/
def Loaded.repr : Loaded → PyText
  | .null => codePoints "None"
  | .bool b => codePoints (if b then "True" else "False")
  | .int n => codePoints (toString n)
  | .float repr => codePoints repr
  | .str text => reprText text
  | .arr items =>
      codePoints "[" ++ (codePoints ", ").intercalate (Loaded.reprItems items) ++ codePoints "]"
  | .obj entries =>
      codePoints "\x7b" ++ (codePoints ", ").intercalate (Loaded.reprEntries entries)
        ++ codePoints "\x7d"

def Loaded.reprItems : List Loaded → List PyText
  | [] => []
  | x :: xs => x.repr :: Loaded.reprItems xs

def Loaded.reprEntries : List (PyText × Loaded) → List PyText
  | [] => []
  | (key, value) :: entries =>
      (reprText key ++ codePoints ": " ++ value.repr) :: Loaded.reprEntries entries

end

/-- `str(x)`. -/
def Loaded.pyStr : Loaded → PyText
  | .str text => text
  | x => x.repr

/-! ## Strings -/

def hexDigitValue (c : Char) : Option Nat :=
  if '0' ≤ c && c ≤ '9' then some (c.toNat - 48)
  else if 'a' ≤ c && c ≤ 'f' then some (c.toNat - 87)
  else if 'A' ≤ c && c ≤ 'F' then some (c.toNat - 55)
  else none

/-- The four digits of an escape. -/
def hexValue4 (a b c d : Char) : Option Nat := do
  let a ← hexDigitValue a
  let b ← hexDigitValue b
  let c ← hexDigitValue c
  let d ← hexDigitValue d
  return ((a * 16 + b) * 16 + c) * 16 + d

/-- The character of a short escape. -/
def shortEscape (c : Char) : Option Nat :=
  if c = doubleQuote || c = backslash || c = '/' then some c.toNat
  else if c = 'b' then some 8
  else if c = 'f' then some 12
  else if c = 'n' then some 10
  else if c = 'r' then some 13
  else if c = 't' then some 9
  else none

def consUnit (unit : Nat) (scanned : List Nat × List Char) : List Nat × List Char :=
  (unit :: scanned.1, scanned.2)

/-- The characters and escapes up to the closing quote, and what follows it. -/
def scanUnits : List Char → Option (List Nat × List Char)
  | [] => none
  | c :: cs =>
      if c = doubleQuote then some ([], cs)
      else if c = backslash then
        match cs with
        | 'u' :: a :: b :: d :: e :: rest =>
            (hexValue4 a b d e).bind fun unit => (scanUnits rest).map (consUnit unit)
        | e :: rest => (shortEscape e).bind fun unit => (scanUnits rest).map (consUnit unit)
        | [] => none
      else if c.toNat < 32 then none
      else (scanUnits cs).map (consUnit c.toNat)

/-- The two halves of a pair make one code point; only escapes can name them. -/
def joinSurrogates : List Nat → PyText
  | high :: low :: rest =>
      if 0xD800 ≤ high ∧ high < 0xDC00 ∧ 0xDC00 ≤ low ∧ low < 0xE000 then
        (0x10000 + (high - 0xD800) * 0x400 + (low - 0xDC00)) :: joinSurrogates rest
      else high :: joinSurrogates (low :: rest)
  | units => units

/-- `scanstring`, after the opening quote. -/
def scanString (cs : List Char) : Option (PyText × List Char) :=
  (scanUnits cs).map fun scanned => (joinSurrogates scanned.1, scanned.2)

/-! ## Numbers and constants -/

/-- `sys.int_info.default_max_str_digits`. -/
def intMaxStrDigits : Nat := 4300

/-- The fraction, if a digit follows the point. -/
def scanFraction : List Char → List Char × List Char
  | '.' :: c :: cs =>
      if c.isDigit then ('.' :: (c :: cs).takeWhile Char.isDigit, (c :: cs).dropWhile Char.isDigit)
      else ([], '.' :: c :: cs)
  | cs => ([], cs)

/-- The sign of an exponent. -/
def scanSign : List Char → List Char × List Char
  | c :: cs => if c = '+' || c = '-' then ([c], cs) else ([], c :: cs)
  | [] => ([], [])

/-- The exponent, if it has a digit. -/
def scanExponent : List Char → List Char × List Char
  | c :: cs =>
      let (sign, rest) := scanSign cs
      let digits := rest.takeWhile Char.isDigit
      if (c = 'e' || c = 'E') && !digits.isEmpty then
        (c :: sign ++ digits, rest.dropWhile Char.isDigit)
      else ([], c :: cs)
  | [] => ([], [])

/-- The digits before the point: no other one follows a zero. -/
def scanDigits : List Char → Option (List Char × List Char)
  | [] => none
  | c :: cs =>
      if c = '0' then some (['0'], cs)
      else if c.isDigit then
        some ((c :: cs).takeWhile Char.isDigit, (c :: cs).dropWhile Char.isDigit)
      else none

def scanMinus : List Char → Bool × List Char
  | c :: cs => if c = '-' then (true, cs) else (false, c :: cs)
  | [] => (false, [])

/-- `_match_number`; `floatRepr` is `repr(float(text))`. -/
def scanNumber (floatRepr : String → String) (cs : List Char) : Option (Loaded × List Char) := do
  let (negative, rest) := scanMinus cs
  let (digits, rest) ← scanDigits rest
  let (fraction, rest) := scanFraction rest
  let (exponent, rest) := scanExponent rest
  if fraction.isEmpty && exponent.isEmpty then
    if intMaxStrDigits < digits.length then none
    else
      let n ← digitsValue digits
      return (.int (signed negative n), rest)
  else
    let sign := if negative then ['-'] else []
    return (.float (floatRepr (String.ofList (sign ++ digits ++ fraction ++ exponent))), rest)

/-- The names that stand for values. -/
def jsonConstants : List (String × Loaded) :=
  [("null", .null), ("true", .bool true), ("false", .bool false), ("NaN", .float "nan"),
    ("Infinity", .float "inf"), ("-Infinity", .float "-inf")]

def scanConstant (cs : List Char) : Option (Loaded × List Char) :=
  jsonConstants.findSome? fun constant =>
    if constant.1.toList <+: cs then some (constant.2, cs.drop constant.1.length) else none

/-! ## Values -/

/-- A `JSONDecodeError` or another `ValueError`, or a `RecursionError`. -/
inductive JsonError where
  | value
  | recursion
  | fuel
deriving DecidableEq, Repr

def JsonError.ofNone {α : Type} : Option α → Except JsonError α
  | some x => .ok x
  | none => .error .value

def isJsonSpace (c : Char) : Bool := c = ' ' || c.toNat = 9 || c.toNat = 10 || c.toNat = 13

def skipSpaces (cs : List Char) : List Char := cs.dropWhile isJsonSpace

/-- What follows the character, if it is the next one. -/
def nextIs (c : Char) (cs : List Char) : Option (List Char) :=
  match skipSpaces cs with
  | d :: rest => if d = c then some rest else none
  | [] => none

def openBrace : Char := Char.ofNat 123

def closeBrace : Char := Char.ofNat 125

section

variable (floatRepr : String → String)

mutual

/-- `scan_once`, with the depth to which arrays and objects may still be nested. -/
def scanOnce : Nat → Nat → List Char → Except JsonError (Loaded × List Char)
  | 0, _, _ => .error .fuel
  | _ + 1, _, [] => .error .value
  | fuel + 1, depth, c :: cs =>
      if c = doubleQuote then do
        let (text, rest) ← JsonError.ofNone (scanString cs)
        return (.str text, rest)
      else if c = openBrace || c = '[' then
        match depth with
        | 0 => .error .recursion
        | depth + 1 =>
            if c = openBrace then
              match nextIs closeBrace cs with
              | some rest => .ok (.obj [], rest)
              | none => scanEntries fuel depth [] cs
            else
              match nextIs ']' cs with
              | some rest => .ok (.arr [], rest)
              | none => scanItems fuel depth [] cs
      else JsonError.ofNone ((scanConstant (c :: cs)).or (scanNumber floatRepr (c :: cs)))

/-- The loop of `_parse_array`. -/
def scanItems : Nat → Nat → List Loaded → List Char → Except JsonError (Loaded × List Char)
  | 0, _, _, _ => .error .fuel
  | fuel + 1, depth, items, cs => do
      let (value, rest) ← scanOnce fuel depth (skipSpaces cs)
      match nextIs ']' rest with
      | some rest => return (.arr (items ++ [value]), rest)
      | none =>
          let rest ← JsonError.ofNone (nextIs ',' rest)
          scanItems fuel depth (items ++ [value]) rest

/-- The loop of `_parse_object`. -/
def scanEntries : Nat → Nat → List (PyText × Loaded) → List Char →
    Except JsonError (Loaded × List Char)
  | 0, _, _, _ => .error .fuel
  | fuel + 1, depth, entries, cs => do
      let rest ← JsonError.ofNone (nextIs doubleQuote cs)
      let (key, rest) ← JsonError.ofNone (scanString rest)
      let rest ← JsonError.ofNone (nextIs ':' rest)
      let (value, rest) ← scanOnce fuel depth (skipSpaces rest)
      match nextIs closeBrace rest with
      | some rest => return (.obj (Loaded.setEntry entries key value), rest)
      | none =>
          let rest ← JsonError.ofNone (nextIs ',' rest)
          scanEntries fuel depth (Loaded.setEntry entries key value) rest

end

/-- `json.loads`. -/
def loads (maxDepth : Nat) (text : String) : Except JsonError Loaded :=
  let cs := text.toList
  if cs.head? = some (Char.ofNat 0xFEFF) then .error .value
  else do
    let (value, rest) ← scanOnce floatRepr (2 * cs.length + 1) maxDepth (skipSpaces cs)
    if skipSpaces rest = [] then return value else .error .value

end

/-! ## The fuel is enough

Every scanner but the one of spaces consumes something. -/

theorem length_skipSpaces_le (cs : List Char) : (skipSpaces cs).length ≤ cs.length :=
  (List.dropWhile_sublist _).length_le

theorem length_nextIs {c : Char} {cs rest : List Char} (h : nextIs c cs = some rest) :
    rest.length < cs.length := by
  have hle := length_skipSpaces_le cs
  unfold nextIs at h
  split at h
  · rename_i d more hmore
    split at h
    · obtain rfl := Option.some.inj h
      rw [hmore, List.length_cons] at hle
      omega
    · cases h
  · cases h

theorem length_scanUnits {cs : List Char} {scanned : List Nat × List Char}
    (h : scanUnits cs = some scanned) : scanned.2.length < cs.length := by
  fun_induction scanUnits cs generalizing scanned with
  | case1 => cases h
  | case2 =>
      cases h
      simp
  | case3 a b d e rest hquote ih =>
      obtain ⟨unit, -, h⟩ := Option.bind_eq_some_iff.mp h
      obtain ⟨more, hmore, rfl⟩ := Option.map_eq_some_iff.mp h
      have hlt := ih hmore
      simp only [consUnit, List.length_cons]
      omega
  | case4 e rest hother hquote ih =>
      obtain ⟨unit, -, h⟩ := Option.bind_eq_some_iff.mp h
      obtain ⟨more, hmore, rfl⟩ := Option.map_eq_some_iff.mp h
      have hlt := ih hmore
      simp only [consUnit, List.length_cons]
      omega
  | case5 => cases h
  | case6 => cases h
  | case7 c cs hquote hescape hcontrol ih =>
      obtain ⟨more, hmore, rfl⟩ := Option.map_eq_some_iff.mp h
      have hlt := ih hmore
      simp only [consUnit, List.length_cons]
      omega

theorem length_scanString {cs rest : List Char} {text : PyText}
    (h : scanString cs = some (text, rest)) : rest.length < cs.length := by
  obtain ⟨scanned, hscanned, heq⟩ := Option.map_eq_some_iff.mp h
  obtain ⟨-, rfl⟩ := Prod.mk.injEq .. ▸ heq
  exact length_scanUnits hscanned

theorem length_scanMinus_le (cs : List Char) : (scanMinus cs).2.length ≤ cs.length := by
  unfold scanMinus
  split
  · split
    · simp
    · exact Nat.le_refl _
  · exact Nat.le_refl _

theorem length_scanDigits {cs digits rest : List Char} (h : scanDigits cs = some (digits, rest)) :
    rest.length < cs.length := by
  unfold scanDigits at h
  split at h
  · cases h
  · rename_i c cs
    split at h
    · obtain ⟨-, rfl⟩ := Prod.mk.injEq .. ▸ Option.some.inj h
      simp
    · split at h
      · rename_i hdigit
        obtain ⟨-, rfl⟩ := Prod.mk.injEq .. ▸ Option.some.inj h
        rw [List.dropWhile_cons_of_pos hdigit, List.length_cons]
        exact Nat.lt_succ_of_le (List.dropWhile_sublist _).length_le
      · cases h

theorem length_scanFraction_le (cs : List Char) : (scanFraction cs).2.length ≤ cs.length := by
  unfold scanFraction
  split
  · split
    · rename_i c cs hdigit
      have hle := (List.dropWhile_sublist (l := c :: cs) Char.isDigit).length_le
      rw [List.length_cons]
      exact Nat.le_succ_of_le hle
    · exact Nat.le_refl _
  · exact Nat.le_refl _

theorem length_scanSign_le (cs : List Char) : (scanSign cs).2.length ≤ cs.length := by
  unfold scanSign
  split
  · split
    · simp
    · exact Nat.le_refl _
  · exact Nat.le_refl _

theorem length_scanExponent_le (cs : List Char) : (scanExponent cs).2.length ≤ cs.length := by
  unfold scanExponent
  split
  · rename_i c cs
    dsimp only
    split
    · have hle := (List.dropWhile_sublist (l := (scanSign cs).2) Char.isDigit).length_le
      have hsign := length_scanSign_le cs
      dsimp only
      rw [List.length_cons]
      omega
    · exact Nat.le_refl _
  · exact Nat.le_refl _

section

variable {floatRepr : String → String}

theorem length_scanNumber {cs rest : List Char} {value : Loaded}
    (h : scanNumber floatRepr cs = some (value, rest)) : rest.length < cs.length := by
  unfold scanNumber at h
  dsimp only at h
  obtain ⟨⟨digits, more⟩, hdigits, h⟩ := Option.bind_eq_some_iff.mp h
  have hminus := length_scanMinus_le cs
  have hlt := length_scanDigits hdigits
  have hfraction := length_scanFraction_le more
  have hexponent := length_scanExponent_le (scanFraction more).2
  have hrest : rest = (scanExponent (scanFraction more).2).2 := by
    dsimp only at h
    split at h
    · split at h
      · cases h
      · obtain ⟨n, -, h⟩ := Option.bind_eq_some_iff.mp h
        cases h
        rfl
    · cases h
      rfl
  rw [hrest]
  omega

theorem length_scanConstant {cs rest : List Char} {value : Loaded}
    (h : scanConstant cs = some (value, rest)) : rest.length < cs.length := by
  obtain ⟨constant, hconstant, h⟩ := List.exists_of_findSome?_eq_some h
  have hpos : ∀ constant ∈ jsonConstants, 0 < constant.1.length := by
    unfold jsonConstants
    decide
  have hlength := hpos constant hconstant
  split at h
  · rename_i hprefix
    obtain ⟨-, rfl⟩ := Prod.mk.injEq .. ▸ Option.some.inj h
    have hle := hprefix.length_le
    rw [String.length_toList] at hle
    rw [List.length_drop]
    omega
  · cases h

/-- The scanner has not run out of fuel, and what it leaves is shorter than `n`. -/
def ScansTo (n : Nat) (scanned : Except JsonError (Loaded × List Char)) : Prop :=
  scanned ≠ .error .fuel ∧ ∀ value rest, scanned = .ok (value, rest) → rest.length < n

theorem scansTo_ok {n : Nat} {value : Loaded} {rest : List Char} (h : rest.length < n) :
    ScansTo n (.ok (value, rest)) := by
  refine ⟨by simp, fun value' rest' heq => ?_⟩
  cases heq
  exact h

theorem scansTo_mono {n m : Nat} {scanned : Except JsonError (Loaded × List Char)}
    (h : ScansTo m scanned) (hle : m ≤ n) : ScansTo n scanned :=
  ⟨h.1, fun value rest heq => Nat.lt_of_lt_of_le (h.2 value rest heq) hle⟩

theorem scansTo_error {n : Nat} {e : JsonError} (h : e ≠ .fuel) : ScansTo n (.error e) :=
  ⟨fun heq => h (Except.error.inj heq), by simp⟩

theorem scansTo_bind {n m : Nat} {scanned : Except JsonError (Loaded × List Char)}
    {f : Loaded × List Char → Except JsonError (Loaded × List Char)} (h : ScansTo m scanned)
    (hf : ∀ value rest, rest.length < m → ScansTo n (f (value, rest))) :
    ScansTo n (scanned >>= f) := by
  cases scanned with
  | error e =>
      refine scansTo_error fun heq => h.1 ?_
      rw [heq]
  | ok scanned => exact hf scanned.1 scanned.2 (h.2 scanned.1 scanned.2 rfl)

theorem scansTo_ofNone_bind {α : Type} {n : Nat} {x : Option α}
    {f : α → Except JsonError (Loaded × List Char)} (h : ∀ a, x = some a → ScansTo n (f a)) :
    ScansTo n (JsonError.ofNone x >>= f) := by
  cases x with
  | none => exact scansTo_error (by decide)
  | some a => exact h a rfl

theorem scansTo_ofNone {n : Nat} {x : Option (Loaded × List Char)}
    (h : ∀ value rest, x = some (value, rest) → rest.length < n) :
    ScansTo n (JsonError.ofNone x) := by
  cases x with
  | none => exact scansTo_error (by decide)
  | some scanned => exact scansTo_ok (h scanned.1 scanned.2 rfl)

/-- An item takes one step more than the value it starts with. -/
theorem scansTo_scan (fuel : Nat) :
    (∀ depth cs, 2 * cs.length < fuel → ScansTo cs.length (scanOnce floatRepr fuel depth cs))
      ∧ (∀ depth items cs, 2 * cs.length + 1 < fuel →
        ScansTo cs.length (scanItems floatRepr fuel depth items cs))
      ∧ ∀ depth entries cs, 2 * cs.length + 1 < fuel →
        ScansTo cs.length (scanEntries floatRepr fuel depth entries cs) := by
  induction fuel with
  | zero => exact ⟨fun _ _ h => by omega, fun _ _ _ h => by omega, fun _ _ _ h => by omega⟩
  | succ fuel ih =>
      obtain ⟨hvalue, hitems, hentries⟩ := ih
      refine ⟨fun depth cs hfuel => ?_, fun depth items cs hfuel => ?_,
        fun depth entries cs hfuel => ?_⟩
      · cases cs with
        | nil => exact scansTo_error (by decide)
        | cons c cs =>
            rw [List.length_cons] at hfuel ⊢
            rw [scanOnce.eq_def]
            dsimp only
            split
            · refine scansTo_ofNone_bind fun scanned hscanned => scansTo_ok ?_
              have hlt := length_scanString hscanned
              omega
            · split
              · cases depth with
                | zero => exact scansTo_error (by decide)
                | succ depth =>
                    dsimp only
                    split
                    · split
                      · rename_i more hmore
                        have hlt := length_nextIs hmore
                        exact scansTo_ok (by omega)
                      · exact scansTo_mono (hentries depth [] cs (by omega)) (Nat.le_succ _)
                    · split
                      · rename_i more hmore
                        have hlt := length_nextIs hmore
                        exact scansTo_ok (by omega)
                      · exact scansTo_mono (hitems depth [] cs (by omega)) (Nat.le_succ _)
              · refine scansTo_ofNone fun value rest h => ?_
                rcases Option.or_eq_some_iff.mp h with h | ⟨-, h⟩
                · exact length_scanConstant h
                · exact length_scanNumber h
      · rw [scanItems]
        have hskip := length_skipSpaces_le cs
        refine scansTo_bind (hvalue depth _ (by omega)) fun value rest hrest => ?_
        dsimp only
        split
        · rename_i more hmore
          have hlt := length_nextIs hmore
          exact scansTo_ok (by omega)
        · refine scansTo_ofNone_bind fun more hmore => ?_
          have hlt := length_nextIs hmore
          exact scansTo_mono (hitems depth _ more (by omega)) (by omega)
      · rw [scanEntries]
        refine scansTo_ofNone_bind fun quoted hquoted => ?_
        have hquote := length_nextIs hquoted
        refine scansTo_ofNone_bind fun scanned hscanned => ?_
        have hkey := length_scanString hscanned
        refine scansTo_ofNone_bind fun after hafter => ?_
        have hcolon := length_nextIs hafter
        have hskip := length_skipSpaces_le after
        refine scansTo_bind (hvalue depth _ (by omega)) fun value rest hrest => ?_
        dsimp only
        split
        · rename_i more hmore
          have hlt := length_nextIs hmore
          exact scansTo_ok (by omega)
        · refine scansTo_ofNone_bind fun more hmore => ?_
          have hlt := length_nextIs hmore
          exact scansTo_mono (hentries depth _ more (by omega)) (by omega)

/-- `json.loads` never runs out of fuel. -/
theorem loads_ne_fuel (maxDepth : Nat) (text : String) :
    loads floatRepr maxDepth text ≠ .error .fuel := by
  have hle := length_skipSpaces_le text.toList
  have hscan : ScansTo _ (scanOnce floatRepr (2 * text.toList.length + 1) maxDepth
      (skipSpaces text.toList)) :=
    (scansTo_scan _).1 maxDepth (skipSpaces text.toList) (by omega)
  unfold loads
  dsimp only
  split
  · simp
  · cases hscanned : scanOnce floatRepr (2 * text.toList.length + 1) maxDepth
        (skipSpaces text.toList) with
    | error e =>
        rw [hscanned] at hscan
        exact fun heq => hscan.1 (congrArg _ (Except.error.inj heq))
    | ok scanned =>
        show (if skipSpaces scanned.2 = [] then Except.ok scanned.1
          else Except.error JsonError.value) ≠ _
        split
        · simp
        · simp

end

end Py
