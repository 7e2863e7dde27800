import Aegora.JsonLoads

/-!
# Reading back what was written

`json.dumps` without spaces, and that `json.loads` returns the value it was
given (`loads_compact`). Like the scanner, the proof goes by its fuel: what
it reads with one step more follows from what it reads with the rest
(`readsValue_succ` and its two siblings). What follows a number must not
continue it (`Follows`), and a text shows by its first character what it is.
-/

namespace Py

/-! ## Compact texts -/

mutual

def Json.compact : Json → List Char
  | .null => "null".toList
  | .bool b => if b then "true".toList else "false".toList
  | .int n => (toString n).toList
  | .float repr => (jsonFloat repr).toList
  | .str s => (jsonString s).toList
  | .arr xs => '[' :: [','].intercalate (Json.compactItems xs) ++ [']']
  | .obj es => openBrace :: [','].intercalate (Json.compactEntries es) ++ [closeBrace]

def Json.compactItems : List Json → List (List Char)
  | [] => []
  | x :: xs => x.compact :: Json.compactItems xs

def Json.compactEntries : List (String × Json) → List (List Char)
  | [] => []
  | (key, value) :: es =>
      ((jsonString key).toList ++ ':' :: value.compact) :: Json.compactEntries es

end

/-- `json.dumps(x, ensure_ascii=False, separators=(",", ":"))`. -/
def Json.compactText (x : Json) : String := String.ofList x.compact

mutual

/-- The value as `json.loads` returns it. -/
def Loaded.ofJson : Json → Loaded
  | .null => .null
  | .bool b => .bool b
  | .int n => .int n
  | .float repr => .float repr
  | .str s => .str (codePoints s)
  | .arr xs => .arr (Loaded.ofItems xs)
  | .obj es => .obj (Loaded.ofEntries es)

def Loaded.ofItems : List Json → List Loaded
  | [] => []
  | x :: xs => .ofJson x :: Loaded.ofItems xs

def Loaded.ofEntries : List (String × Json) → List (PyText × Loaded)
  | [] => []
  | (key, value) :: es => (codePoints key, .ofJson value) :: Loaded.ofEntries es

end

mutual

/-- The value has no float, no number with too many digits and no key twice, and it is not nested
deeper than the scanner goes. -/
def Json.Readable : Nat → Json → Prop
  | _, .null | _, .bool _ | _, .str _ => True
  | _, .int n => (Nat.toDigits 10 n.natAbs).length ≤ intMaxStrDigits
  | _, .float _ => False
  | depth, .arr xs => 0 < depth ∧ Json.ReadableItems (depth - 1) xs
  | depth, .obj es =>
      0 < depth ∧ (es.map Prod.fst).Nodup ∧ Json.ReadableEntries (depth - 1) es

def Json.ReadableItems : Nat → List Json → Prop
  | _, [] => True
  | depth, x :: xs => x.Readable depth ∧ Json.ReadableItems depth xs

def Json.ReadableEntries : Nat → List (String × Json) → Prop
  | _, [] => True
  | depth, (_, value) :: es => value.Readable depth ∧ Json.ReadableEntries depth es

end

/-! ### Strings -/

theorem codePoints_injective : Function.Injective codePoints := by
  intro a b h
  have hchars : Function.Injective Char.toNat := fun c d hcd => Char.toNat_inj.mp hcd
  exact String.toList_inj.mp (List.map_injective_iff.mpr hchars h)

theorem scanUnits_quote (rest : List Char) :
    scanUnits (doubleQuote :: rest) = some ([], rest) := by
  rw [scanUnits.eq_def]
  exact if_pos rfl

theorem scanUnits_short {c : Char} (hc : c ≠ 'u') (more : List Char) :
    scanUnits (backslash :: c :: more)
      = (shortEscape c).bind fun unit => (scanUnits more).map (consUnit unit) := by
  have hquote : backslash ≠ doubleQuote := by decide
  rw [scanUnits.eq_def]
  dsimp only
  rw [if_neg hquote, if_pos rfl]
  split
  · rename_i heq
    exact absurd (List.cons.inj heq).1 hc
  · rename_i heq
    obtain ⟨rfl, rfl⟩ := List.cons.inj heq
    rfl
  · rename_i heq
    cases heq

theorem scanUnits_hex (a b d e : Char) (more : List Char) :
    scanUnits (backslash :: 'u' :: a :: b :: d :: e :: more)
      = (hexValue4 a b d e).bind fun unit => (scanUnits more).map (consUnit unit) := by
  have hquote : backslash ≠ doubleQuote := by decide
  rw [scanUnits.eq_def]
  dsimp only
  rw [if_neg hquote, if_pos rfl]
  rfl

theorem scanUnits_plain {c : Char} (hquote : c ≠ doubleQuote) (hescape : c ≠ backslash)
    (hcontrol : ¬ c.toNat < 32) (more : List Char) :
    scanUnits (c :: more) = (scanUnits more).map (consUnit c.toNat) := by
  rw [scanUnits.eq_def]
  dsimp only
  rw [if_neg hquote, if_neg hescape, if_neg hcontrol]

/-- An escaped character is read back. -/
theorem scanUnits_jsonChar (c : Char) (more : List Char) :
    scanUnits (jsonChar c ++ more) = (scanUnits more).map (consUnit c.toNat) := by
  have hhex : ∀ n < 32, hexValue4 '0' '0' (hexDigit (n / 16)) (hexDigit n) = some n := by decide
  have hshort : ∀ e, e ≠ 'u' → shortEscape e = some c.toNat →
      scanUnits (backslash :: e :: more) = (scanUnits more).map (consUnit c.toNat) := by
    intro e he hvalue
    rw [scanUnits_short he, hvalue]
    rfl
  unfold jsonChar
  split_ifs with hself h8 h9 h10 h12 h13 hcontrol
  · rw [Bool.or_eq_true, decide_eq_true_eq, decide_eq_true_eq] at hself
    rcases hself with rfl | rfl
    · exact hshort _ (by decide) (by decide)
    · exact hshort _ (by decide) (by decide)
  · exact hshort 'b' (by decide) (by rw [h8]; decide)
  · exact hshort 't' (by decide) (by rw [h9]; decide)
  · exact hshort 'n' (by decide) (by rw [h10]; decide)
  · exact hshort 'f' (by decide) (by rw [h12]; decide)
  · exact hshort 'r' (by decide) (by rw [h13]; decide)
  · refine (scanUnits_hex _ _ _ _ more).trans ?_
    rw [hhex c.toNat hcontrol]
    rfl
  · rw [Bool.or_eq_true, decide_eq_true_eq, decide_eq_true_eq, not_or] at hself
    exact scanUnits_plain hself.1 hself.2 hcontrol more

theorem scanUnits_flatMap (text rest : List Char) :
    scanUnits (text.flatMap jsonChar ++ doubleQuote :: rest)
      = some (text.map Char.toNat, rest) := by
  induction text with
  | nil => exact scanUnits_quote rest
  | cons c text ih =>
      rw [List.flatMap_cons, List.append_assoc, scanUnits_jsonChar, ih]
      rfl

/-- No character is half of a pair. -/
theorem joinSurrogates_toNat (text : List Char) :
    joinSurrogates (text.map Char.toNat) = text.map Char.toNat := by
  induction text with
  | nil => rfl
  | cons c text ih =>
      cases text with
      | nil => rfl
      | cons d text =>
          have hvalid := c.valid
          rw [List.map_cons, List.map_cons, joinSurrogates, if_neg, ← List.map_cons, ih]
          rintro ⟨hlow, hhigh, -⟩
          rcases hvalid with hvalid | ⟨hvalid, -⟩
          · exact absurd hlow (Nat.not_le_of_lt hvalid)
          · unfold Char.toNat at hhigh
            omega

theorem scanString_jsonString (s : String) (rest : List Char) :
    (jsonString s).toList ++ rest
        = doubleQuote :: (s.toList.flatMap jsonChar ++ doubleQuote :: rest)
      ∧ scanString (s.toList.flatMap jsonChar ++ doubleQuote :: rest)
        = some (codePoints s, rest) := by
  constructor
  · rw [jsonString, String.toList_ofList]
    simp
  · rw [scanString, scanUnits_flatMap, Option.map_some, joinSurrogates_toNat]
    rfl

/-! ### Numbers -/

/-- What may follow a value inside an array or an object, or nothing. -/
def Follows (rest : List Char) : Prop := ∀ c ∈ rest.head?, c = ',' ∨ c = ']' ∨ c = closeBrace

theorem takeWhile_digits {digits rest : List Char} (hdigits : ∀ c ∈ digits, c.isDigit = true)
    (hrest : Follows rest) :
    (digits ++ rest).takeWhile Char.isDigit = digits
      ∧ (digits ++ rest).dropWhile Char.isDigit = rest := by
  rw [List.takeWhile_append_of_pos hdigits, List.dropWhile_append_of_pos hdigits]
  cases rest with
  | nil => simp
  | cons c rest =>
      have hc : ¬ c.isDigit = true := by
        rcases hrest c rfl with rfl | rfl | rfl <;> decide
      rw [List.takeWhile_cons_of_neg hc, List.dropWhile_cons_of_neg hc, List.append_nil]
      exact ⟨rfl, rfl⟩

/-- A number does not start with a zero, except for zero itself. -/
theorem head?_toDigits {n : Nat} (hn : 0 < n) : (Nat.toDigits 10 n).head? ≠ some '0' := by
  have hsmall : ∀ d < 10, 0 < d → Nat.digitChar d ≠ '0' := by decide
  induction n using Nat.strongRecOn with
  | _ n ih =>
    by_cases hlt : n < 10
    · rw [Nat.toDigits_of_lt_base hlt]
      exact fun h => hsmall n hlt hn (Option.some.inj h)
    · rw [Nat.toDigits_of_base_le (by decide) (by omega)]
      have hpos : 0 < n / 10 := by omega
      have hhead := ih (n / 10) (by omega) hpos
      cases hdigits : Nat.toDigits 10 (n / 10) with
      | nil => exact absurd hdigits Nat.toDigits_ne_nil
      | cons c digits =>
          rw [hdigits] at hhead
          exact hhead

theorem scanDigits_toDigits (n : Nat) {rest : List Char} (hrest : Follows rest) :
    scanDigits (Nat.toDigits 10 n ++ rest) = some (Nat.toDigits 10 n, rest) := by
  rcases Nat.eq_zero_or_pos n with rfl | hn
  · rw [Nat.toDigits_zero]
    rfl
  · have hdigits : ∀ c ∈ Nat.toDigits 10 n, c.isDigit = true := fun c hc =>
      Nat.isDigit_of_mem_toDigits (by decide) (by decide) hc
    obtain ⟨htake, hdrop⟩ := takeWhile_digits hdigits hrest
    have hhead := head?_toDigits hn
    cases hlist : Nat.toDigits 10 n with
    | nil => exact absurd hlist Nat.toDigits_ne_nil
    | cons c digits =>
        rw [hlist] at hhead htake hdrop
        have hc := hdigits c (hlist ▸ List.mem_cons_self)
        have hzero : c ≠ '0' := fun h => hhead (congrArg some h)
        rw [List.cons_append, scanDigits, if_neg hzero, if_pos hc]
        rw [List.cons_append] at htake hdrop
        rw [htake, hdrop]

theorem scanFraction_follows {rest : List Char} (hrest : Follows rest) :
    scanFraction rest = ([], rest) := by
  unfold scanFraction
  split
  · rcases hrest '.' rfl with h | h | h
    · exact absurd h (by decide)
    · exact absurd h (by decide)
    · exact absurd h (by decide)
  · rfl

theorem scanExponent_follows {rest : List Char} (hrest : Follows rest) :
    scanExponent rest = ([], rest) := by
  cases rest with
  | nil => rfl
  | cons c rest =>
      have hc : (decide (c = 'e') || decide (c = 'E')) = false := by
        rcases hrest c rfl with rfl | rfl | rfl <;> decide
      rw [scanExponent]
      dsimp only
      rw [hc, Bool.false_and, if_neg Bool.false_ne_true]

/-- The characters of a number. -/
theorem toList_toString (n : Int) :
    (toString n).toList = (if n < 0 then ['-'] else []) ++ Nat.toDigits 10 n.natAbs := by
  cases n with
  | ofNat n =>
      rw [if_neg (by simp)]
      exact Nat.toList_repr
  | negSucc n =>
      rw [if_pos (Int.negSucc_lt_zero n)]
      show ("-" ++ Nat.repr (n + 1)).toList = _
      rw [String.toList_append, Nat.toList_repr]
      rfl

theorem scanMinus_toString (n : Int) (rest : List Char) :
    scanMinus ((toString n).toList ++ rest)
      = (decide (n < 0), Nat.toDigits 10 n.natAbs ++ rest) := by
  rw [toList_toString, List.append_assoc]
  by_cases hn : n < 0
  · rw [if_pos hn, decide_eq_true hn]
    rfl
  · rw [if_neg hn, decide_eq_false hn, List.nil_append]
    cases hlist : Nat.toDigits 10 n.natAbs with
    | nil => exact absurd hlist Nat.toDigits_ne_nil
    | cons c digits =>
        have hc : c.isDigit = true :=
          Nat.isDigit_of_mem_toDigits (by decide) (by decide) (hlist ▸ List.mem_cons_self)
        have hminus : c ≠ '-' := by
          rintro rfl
          exact absurd hc (by decide)
        rw [List.cons_append, scanMinus, if_neg hminus]

theorem signed_natAbs (n : Int) : signed (decide (n < 0)) n.natAbs = n := by
  unfold signed
  split
  · rename_i hn
    rw [decide_eq_true_eq] at hn
    omega
  · rename_i hn
    rw [decide_eq_true_eq] at hn
    omega

section

variable {floatRepr : String → String} {rest : List Char}

theorem scanNumber_toString {n : Int}
    (hlength : (Nat.toDigits 10 n.natAbs).length ≤ intMaxStrDigits) (hrest : Follows rest) :
    scanNumber floatRepr ((toString n).toList ++ rest) = some (.int n, rest) := by
  unfold scanNumber
  dsimp only
  rw [scanMinus_toString, scanDigits_toDigits _ hrest]
  dsimp only [bind, Option.bind]
  rw [scanFraction_follows hrest]
  dsimp only
  rw [scanExponent_follows hrest, if_pos (by rfl), if_neg (Nat.not_lt_of_le hlength),
    digitsValue_toDigits]
  exact congrArg (fun n => some (Loaded.int n, rest)) (signed_natAbs n)

/-- A digit is the first or the second character of a number. -/
theorem exists_digit_take (n : Int) :
    ∃ c ∈ ((toString n).toList ++ rest).take 2, c.isDigit = true := by
  rw [toList_toString, List.append_assoc]
  cases hlist : Nat.toDigits 10 n.natAbs with
  | nil => exact absurd hlist Nat.toDigits_ne_nil
  | cons c digits =>
      have hc : c.isDigit = true :=
        Nat.isDigit_of_mem_toDigits (by decide) (by decide) (hlist ▸ List.mem_cons_self)
      refine ⟨c, ?_, hc⟩
      split
      · simp
      · simp

theorem scanConstant_toString (n : Int) : scanConstant ((toString n).toList ++ rest) = none := by
  have hnames : ∀ constant ∈ jsonConstants, 2 ≤ constant.1.toList.length
      ∧ (constant.1.toList.take 2).any Char.isDigit = false := by
    unfold jsonConstants
    decide +kernel
  refine List.findSome?_eq_none_iff.mpr fun constant hconstant => if_neg fun hprefix => ?_
  obtain ⟨hlength, hletters⟩ := hnames constant hconstant
  obtain ⟨c, hc, hdigit⟩ : ∃ c ∈ ((toString n).toList ++ rest).take 2, c.isDigit = true :=
    exists_digit_take n
  have htake : constant.1.toList.take 2 = ((toString n).toList ++ rest).take 2 := by
    rw [List.prefix_iff_eq_take.mp hprefix, List.take_take, Nat.min_eq_left hlength]
  rw [← htake] at hc
  exact List.any_eq_false.mp hletters c hc hdigit

/-! ### The round trip -/

theorem nextIs_self {c : Char} (hc : isJsonSpace c = false) (cs : List Char) :
    nextIs c (c :: cs) = some cs := by
  have hskip : skipSpaces (c :: cs) = c :: cs :=
    List.dropWhile_cons_of_neg (by rw [hc]; exact Bool.false_ne_true)
  rw [nextIs, hskip]
  exact if_pos rfl

theorem nextIs_ne {c d : Char} (hd : isJsonSpace d = false) (hne : d ≠ c) (cs : List Char) :
    nextIs c (d :: cs) = none := by
  have hskip : skipSpaces (d :: cs) = d :: cs :=
    List.dropWhile_cons_of_neg (by rw [hd]; exact Bool.false_ne_true)
  rw [nextIs, hskip]
  exact if_neg hne

/-- How the text of a value starts. -/
def StartsValue (c : Char) : Prop :=
  isJsonSpace c = false ∧ c ≠ ']' ∧ c ≠ closeBrace ∧ c ≠ Char.ofNat 0xFEFF

instance (c : Char) : Decidable (StartsValue c) := inferInstanceAs (Decidable (_ ∧ _))

/-- How the text of a value starts that is no string, array or object. -/
def StartsScalar (c : Char) : Prop := c ≠ doubleQuote ∧ c ≠ openBrace ∧ c ≠ '['

instance (c : Char) : Decidable (StartsScalar c) := inferInstanceAs (Decidable (_ ∧ _))

theorem startsValue_digit {c : Char} (hc : c.isDigit = true) : StartsValue c ∧ StartsScalar c := by
  have hrange : 48 ≤ c.toNat ∧ c.toNat ≤ 57 := by
    unfold Char.isDigit at hc
    simp only [Bool.and_eq_true, decide_eq_true_eq] at hc
    exact hc
  have hne : ∀ d : Char, (d.toNat < 48 ∨ 57 < d.toNat) → c ≠ d := by
    rintro d hd rfl
    omega
  have hspace : isJsonSpace c = false := by
    unfold isJsonSpace
    simp only [Bool.or_eq_false_iff, decide_eq_false_iff_not]
    exact ⟨⟨⟨hne ' ' (by decide), by omega⟩, by omega⟩, by omega⟩
  exact ⟨⟨hspace, hne _ (by decide), hne _ (by decide), hne _ (by decide)⟩, hne _ (by decide),
    hne _ (by decide), hne _ (by decide)⟩

theorem exists_cons_toString (n : Int) :
    ∃ c cs, (toString n).toList = c :: cs ∧ StartsValue c ∧ StartsScalar c := by
  rw [toList_toString]
  by_cases hn : n < 0
  · rw [if_pos hn]
    exact ⟨'-', _, rfl, by decide, by decide⟩
  · rw [if_neg hn, List.nil_append]
    cases hlist : Nat.toDigits 10 n.natAbs with
    | nil => exact absurd hlist Nat.toDigits_ne_nil
    | cons c digits =>
        have hc : c.isDigit = true :=
          Nat.isDigit_of_mem_toDigits (by decide) (by decide) (hlist ▸ List.mem_cons_self)
        exact ⟨c, digits, rfl, startsValue_digit hc⟩

theorem exists_cons_compact {depth : Nat} {x : Json} (hx : x.Readable depth) :
    ∃ c cs, x.compact = c :: cs ∧ StartsValue c := by
  cases x with
  | null => exact ⟨'n', _, rfl, by decide⟩
  | bool b =>
      cases b with
      | false => exact ⟨'f', _, rfl, by decide⟩
      | true => exact ⟨'t', _, rfl, by decide⟩
  | int n =>
      obtain ⟨c, cs, hcons, hstarts, -⟩ := exists_cons_toString n
      exact ⟨c, cs, hcons, hstarts⟩
  | float repr => exact absurd hx (by simp [Json.Readable])
  | str s =>
      obtain ⟨hcons, -⟩ := scanString_jsonString s []
      rw [List.append_nil] at hcons
      exact ⟨doubleQuote, _, hcons, by decide⟩
  | arr xs => exact ⟨'[', _, rfl, by decide⟩
  | obj es => exact ⟨openBrace, _, rfl, by decide⟩

theorem skipSpaces_compact {depth : Nat} {x : Json} (hx : x.Readable depth) :
    skipSpaces (x.compact ++ rest) = x.compact ++ rest := by
  obtain ⟨c, cs, hcons, hspace, -⟩ := exists_cons_compact hx
  rw [hcons, List.cons_append]
  exact List.dropWhile_cons_of_neg (by rw [hspace]; exact Bool.false_ne_true)

theorem scanOnce_scalar {fuel depth : Nat} {c : Char} (hc : StartsScalar c) (cs : List Char) :
    scanOnce floatRepr (fuel + 1) depth (c :: cs)
      = JsonError.ofNone ((scanConstant (c :: cs)).or (scanNumber floatRepr (c :: cs))) := by
  obtain ⟨hquote, hbrace, hbracket⟩ := hc
  rw [scanOnce.eq_def]
  dsimp only
  rw [if_neg hquote, if_neg]
  rw [Bool.or_eq_true, decide_eq_true_eq, decide_eq_true_eq, not_or]
  exact ⟨hbrace, hbracket⟩

theorem scanOnce_string {fuel depth : Nat} (s : String) :
    scanOnce floatRepr (fuel + 1) depth ((jsonString s).toList ++ rest)
      = .ok (.str (codePoints s), rest) := by
  obtain ⟨hcons, hscan⟩ := scanString_jsonString s rest
  rw [hcons, scanOnce.eq_def]
  dsimp only
  rw [if_pos rfl, hscan]
  rfl

theorem setEntry_of_not_mem {entries : List (PyText × Loaded)} {key : PyText} (value : Loaded)
    (h : key ∉ entries.map Prod.fst) :
    Loaded.setEntry entries key value = entries ++ [(key, value)] := by
  refine if_neg fun hany => h ?_
  obtain ⟨entry, hentry, hkey⟩ := List.any_eq_true.mp hany
  rw [decide_eq_true_eq] at hkey
  exact hkey ▸ List.mem_map_of_mem hentry

theorem compactItems_cons (x : Json) (xs : List Json) (rest : List Char) :
    [','].intercalate (Json.compactItems (x :: xs)) ++ rest
      = x.compact ++ if xs = [] then rest
          else ',' :: ([','].intercalate (Json.compactItems xs) ++ rest) := by
  cases xs with
  | nil => simp [Json.compactItems]
  | cons y xs =>
      rw [Json.compactItems, Json.compactItems, List.intercalate_cons_cons, if_neg (by simp)]
      simp

theorem compactEntries_cons (key : String) (value : Json) (es : List (String × Json))
    (rest : List Char) :
    [','].intercalate (Json.compactEntries ((key, value) :: es)) ++ rest
      = (jsonString key).toList ++ ':' :: (value.compact ++ if es = [] then rest
          else ',' :: ([','].intercalate (Json.compactEntries es) ++ rest)) := by
  cases es with
  | nil => simp [Json.compactEntries]
  | cons entry es =>
      rw [Json.compactEntries, Json.compactEntries, List.intercalate_cons_cons, if_neg (by simp)]
      simp

/-- An array or an object that is not empty. -/
theorem scanOnce_items {fuel depth : Nat} {cs : List Char} (h : nextIs ']' cs = none) :
    scanOnce floatRepr (fuel + 1) (depth + 1) ('[' :: cs)
      = scanItems floatRepr fuel depth [] cs := by
  have hquote : '[' ≠ doubleQuote := by decide
  have hbrace : '[' ≠ openBrace := by decide
  rw [scanOnce.eq_def]
  dsimp only
  rw [if_neg hquote, if_pos (by decide), if_neg hbrace, h]

theorem scanOnce_entries {fuel depth : Nat} {cs : List Char} (h : nextIs closeBrace cs = none) :
    scanOnce floatRepr (fuel + 1) (depth + 1) (openBrace :: cs)
      = scanEntries floatRepr fuel depth [] cs := by
  have hquote : openBrace ≠ doubleQuote := by decide
  rw [scanOnce.eq_def]
  dsimp only
  rw [if_neg hquote, if_pos (by decide), if_pos rfl, h]

theorem scanOnce_empty {fuel depth : Nat} :
    scanOnce floatRepr (fuel + 1) (depth + 1) ('[' :: ']' :: rest) = .ok (.arr [], rest)
      ∧ scanOnce floatRepr (fuel + 1) (depth + 1) (openBrace :: closeBrace :: rest)
        = .ok (.obj [], rest) := by
  have hbracket : '[' ≠ doubleQuote := by decide
  have hquote : openBrace ≠ doubleQuote := by decide
  have hbrace : '[' ≠ openBrace := by decide
  constructor
  · rw [scanOnce.eq_def]
    dsimp only
    rw [if_neg hbracket, if_pos (by decide), if_neg hbrace, nextIs_self (by decide)]
  · rw [scanOnce.eq_def]
    dsimp only
    rw [if_neg hquote, if_pos (by decide), if_pos rfl, nextIs_self (by decide)]

theorem follows_cons {c : Char} (hc : c = ',' ∨ c = ']' ∨ c = closeBrace) (rest : List Char) :
    Follows (c :: rest) := by
  intro d hd
  obtain rfl := Option.some.inj hd
  exact hc

/-- The last item, and one that another follows. -/
theorem scanItems_step {fuel depth : Nat} {items : List Loaded} {cs : List Char} {value : Loaded} :
    (scanOnce floatRepr fuel depth (skipSpaces cs) = .ok (value, ']' :: rest) →
        scanItems floatRepr (fuel + 1) depth items cs = .ok (.arr (items ++ [value]), rest))
      ∧ (scanOnce floatRepr fuel depth (skipSpaces cs) = .ok (value, ',' :: rest) →
        scanItems floatRepr (fuel + 1) depth items cs
          = scanItems floatRepr fuel depth (items ++ [value]) rest) := by
  have hbracket : nextIs ']' (']' :: rest) = some rest := nextIs_self (by decide) rest
  have hcomma : nextIs ',' (',' :: rest) = some rest := nextIs_self (by decide) rest
  have hother : nextIs ']' (',' :: rest) = none := nextIs_ne (by decide) (by decide) rest
  constructor
  · intro hvalue
    rw [scanItems, hvalue]
    simp only [bind, Except.bind, hbracket]
    rfl
  · intro hvalue
    rw [scanItems, hvalue]
    simp only [bind, Except.bind, hother, hcomma, JsonError.ofNone]

/-- The last entry, and one that another follows. -/
theorem scanEntries_step {fuel depth : Nat} {entries : List (PyText × Loaded)} {key : String}
    {cs : List Char} {value : Loaded} :
    (scanOnce floatRepr fuel depth (skipSpaces cs) = .ok (value, closeBrace :: rest) →
        scanEntries floatRepr (fuel + 1) depth entries ((jsonString key).toList ++ ':' :: cs)
          = .ok (.obj (Loaded.setEntry entries (codePoints key) value), rest))
      ∧ (scanOnce floatRepr fuel depth (skipSpaces cs) = .ok (value, ',' :: rest) →
        scanEntries floatRepr (fuel + 1) depth entries ((jsonString key).toList ++ ':' :: cs)
          = scanEntries floatRepr fuel depth (Loaded.setEntry entries (codePoints key) value)
            rest) := by
  obtain ⟨hcons, hscan⟩ := scanString_jsonString key (':' :: cs)
  have hquote : ∀ cs, nextIs doubleQuote (doubleQuote :: cs) = some cs := nextIs_self (by decide)
  have hcolon : nextIs ':' (':' :: cs) = some cs := nextIs_self (by decide) cs
  have hbrace : nextIs closeBrace (closeBrace :: rest) = some rest := nextIs_self (by decide) rest
  have hcomma : nextIs ',' (',' :: rest) = some rest := nextIs_self (by decide) rest
  have hother : nextIs closeBrace (',' :: rest) = none := nextIs_ne (by decide) (by decide) rest
  rw [hcons]
  constructor
  · intro hvalue
    rw [scanEntries]
    simp only [bind, Except.bind, hquote, hscan, hcolon, hvalue, hbrace, JsonError.ofNone]
    rfl
  · intro hvalue
    rw [scanEntries]
    simp only [bind, Except.bind, hquote, hscan, hcolon, hvalue, hother, hcomma, JsonError.ofNone]

section

variable (floatRepr)

/-- With that much fuel the scanner reads the text of a value and nothing else. -/
def ReadsValue (fuel : Nat) : Prop :=
  ∀ (x : Json) (depth : Nat) (rest : List Char), x.Readable depth → Follows rest →
    2 * (x.compact ++ rest).length < fuel →
      scanOnce floatRepr fuel depth (x.compact ++ rest) = .ok (.ofJson x, rest)

def ReadsItems (fuel : Nat) : Prop :=
  ∀ (x : Json) (xs : List Json) (depth : Nat) (items : List Loaded) (rest : List Char),
    Json.ReadableItems depth (x :: xs) →
      2 * ([','].intercalate (Json.compactItems (x :: xs)) ++ ']' :: rest).length + 1 < fuel →
        scanItems floatRepr fuel depth items
            ([','].intercalate (Json.compactItems (x :: xs)) ++ ']' :: rest)
          = .ok (.arr (items ++ Loaded.ofItems (x :: xs)), rest)

def ReadsEntries (fuel : Nat) : Prop :=
  ∀ (key : String) (value : Json) (es : List (String × Json)) (depth : Nat)
    (entries : List (PyText × Loaded)) (rest : List Char),
    Json.ReadableEntries depth ((key, value) :: es) → (key :: es.map Prod.fst).Nodup →
      (∀ other ∈ key :: es.map Prod.fst, codePoints other ∉ entries.map Prod.fst) →
        2 * ([','].intercalate (Json.compactEntries ((key, value) :: es))
            ++ closeBrace :: rest).length + 1 < fuel →
          scanEntries floatRepr fuel depth entries
              ([','].intercalate (Json.compactEntries ((key, value) :: es)) ++ closeBrace :: rest)
            = .ok (.obj (entries ++ Loaded.ofEntries ((key, value) :: es)), rest)

end

theorem readsValue_succ {fuel : Nat} (hitems : ReadsItems floatRepr fuel)
    (hentries : ReadsEntries floatRepr fuel) : ReadsValue floatRepr (fuel + 1) := by
  intro x depth rest hx hrest hfuel
  cases x with
  | null => exact scanOnce_scalar (c := 'n') (by decide) _
  | bool b =>
      cases b with
      | false => exact scanOnce_scalar (c := 'f') (by decide) _
      | true => exact scanOnce_scalar (c := 't') (by decide) _
  | int n =>
      obtain ⟨c, cs, hcons, -, hscalar⟩ := exists_cons_toString n
      rw [Json.compact, hcons, List.cons_append]
      refine (scanOnce_scalar hscalar (cs ++ rest)).trans ?_
      rw [← List.cons_append, ← hcons, scanConstant_toString, scanNumber_toString hx hrest]
      rfl
  | float repr => exact absurd hx (by simp [Json.Readable])
  | str s => exact scanOnce_string s
  | arr xs =>
      obtain ⟨hdepth, hxs⟩ := hx
      obtain ⟨depth, rfl⟩ := Nat.exists_eq_succ_of_ne_zero (Nat.ne_of_gt hdepth)
      simp only [Json.compact, List.cons_append, List.append_assoc, List.nil_append] at hfuel ⊢
      cases xs with
      | nil => exact scanOnce_empty.1
      | cons x xs =>
          obtain ⟨c, cs, hcons, hspace, hbracket, -⟩ := exists_cons_compact hxs.1
          have hnext : nextIs ']'
              ([','].intercalate (Json.compactItems (x :: xs)) ++ ']' :: rest) = none := by
            rw [compactItems_cons, hcons]
            exact nextIs_ne hspace hbracket _
          rw [List.length_cons] at hfuel
          rw [scanOnce_items hnext]
          exact hitems x xs depth [] rest hxs (by omega)
  | obj es =>
      obtain ⟨hdepth, hkeys, hes⟩ := hx
      obtain ⟨depth, rfl⟩ := Nat.exists_eq_succ_of_ne_zero (Nat.ne_of_gt hdepth)
      simp only [Json.compact, List.cons_append, List.append_assoc, List.nil_append] at hfuel ⊢
      cases es with
      | nil => exact scanOnce_empty.2
      | cons entry es =>
          obtain ⟨key, value⟩ := entry
          have hnext : nextIs closeBrace ([','].intercalate
              (Json.compactEntries ((key, value) :: es)) ++ closeBrace :: rest) = none := by
            rw [compactEntries_cons, (scanString_jsonString key _).1]
            exact nextIs_ne (by decide) (by decide) _
          rw [List.length_cons] at hfuel
          rw [scanOnce_entries hnext]
          exact hentries key value es depth [] rest hes hkeys
            (fun _ _ h => absurd h List.not_mem_nil) (by omega)

theorem readsItems_succ {fuel : Nat} (hvalue : ReadsValue floatRepr fuel)
    (hitems : ReadsItems floatRepr fuel) : ReadsItems floatRepr (fuel + 1) := by
  rintro x xs depth items rest ⟨hx, hxs⟩ hfuel
  rw [compactItems_cons] at hfuel ⊢
  cases xs with
  | nil =>
      rw [if_pos rfl] at hfuel ⊢
      refine scanItems_step.1 ?_
      rw [skipSpaces_compact hx]
      exact hvalue x depth _ hx (follows_cons (by decide) rest) (by omega)
  | cons y ys =>
      rw [if_neg (List.cons_ne_nil y ys)] at hfuel ⊢
      have hscan := hvalue x depth
        (',' :: ([','].intercalate (Json.compactItems (y :: ys)) ++ ']' :: rest)) hx
        (follows_cons (by decide) _) (by omega)
      rw [scanItems_step.2 ((congrArg _ (skipSpaces_compact hx)).trans hscan)]
      rw [List.length_append, List.length_cons] at hfuel
      refine (hitems y ys depth (items ++ [Loaded.ofJson x]) rest hxs (by omega)).trans ?_
      simp [Loaded.ofItems]

theorem readsEntries_succ {fuel : Nat} (hvalue : ReadsValue floatRepr fuel)
    (hentries : ReadsEntries floatRepr fuel) : ReadsEntries floatRepr (fuel + 1) := by
  rintro key value es depth entries rest ⟨hx, hes⟩ hkeys hnew hfuel
  rw [compactEntries_cons] at hfuel ⊢
  rw [List.length_append, List.length_cons] at hfuel
  have hset := setEntry_of_not_mem (.ofJson value) (hnew key List.mem_cons_self)
  cases es with
  | nil =>
      rw [if_pos rfl] at hfuel ⊢
      have hscan := hvalue value depth _ hx (follows_cons (c := closeBrace) (by decide) rest)
        (by omega)
      rw [scanEntries_step.1 ((congrArg _ (skipSpaces_compact hx)).trans hscan), hset]
      rfl
  | cons entry es =>
      obtain ⟨nextKey, nextValue⟩ := entry
      rw [if_neg (List.cons_ne_nil _ es)] at hfuel ⊢
      have hscan := hvalue value depth (',' :: ([','].intercalate
        (Json.compactEntries ((nextKey, nextValue) :: es)) ++ closeBrace :: rest)) hx
        (follows_cons (by decide) _) (by omega)
      rw [scanEntries_step.2 ((congrArg _ (skipSpaces_compact hx)).trans hscan), hset]
      rw [List.length_append, List.length_cons] at hfuel
      obtain ⟨hkey, hkeys⟩ := List.nodup_cons.mp hkeys
      refine (hentries nextKey nextValue es depth
        (entries ++ [(codePoints key, Loaded.ofJson value)]) rest hes hkeys ?_ (by omega)).trans ?_
      · intro other hother
        rw [List.map_append, List.mem_append, not_or]
        refine ⟨hnew other (List.mem_cons_of_mem _ hother), fun hmem => hkey ?_⟩
        have hsame := codePoints_injective (List.mem_singleton.mp hmem)
        exact hsame ▸ hother
      · simp [Loaded.ofEntries]

theorem reads_compact (fuel : Nat) :
    ReadsValue floatRepr fuel ∧ ReadsItems floatRepr fuel ∧ ReadsEntries floatRepr fuel := by
  induction fuel with
  | zero =>
      refine ⟨fun _ _ _ _ _ h => ?_, fun _ _ _ _ _ _ h => ?_, fun _ _ _ _ _ _ _ _ _ h => ?_⟩
      · omega
      · omega
      · omega
  | succ fuel ih =>
      obtain ⟨hvalue, hitems, hentries⟩ := ih
      exact ⟨readsValue_succ hitems hentries, readsItems_succ hvalue hitems,
        readsEntries_succ hvalue hentries⟩

/-- `json.loads` reads back what `json.dumps` has written. -/
theorem loads_compact {maxDepth : Nat} {x : Json} (hx : x.Readable maxDepth) :
    loads floatRepr maxDepth x.compactText = .ok (.ofJson x) := by
  have htext : x.compactText.toList = x.compact ++ [] := by
    rw [Json.compactText, String.toList_ofList, List.append_nil]
  have hmark : (x.compact ++ []).head? ≠ some (Char.ofNat 0xFEFF) := by
    obtain ⟨c, cs, hcons, -, -, -, hmark⟩ := exists_cons_compact hx
    rw [hcons]
    exact fun h => hmark (Option.some.inj h)
  unfold loads
  dsimp only
  rw [htext, if_neg hmark, skipSpaces_compact hx,
    (reads_compact _).1 x maxDepth [] hx (fun _ h => by cases h) (by omega)]
  rfl

end

end Py
