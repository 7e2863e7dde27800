import Aegora.JsonLoads

/-!
# The exceptions of reading JSON

`Py.loads` has one error for a `JSONDecodeError` and for the `ValueError` of
an integer with more digits than the interpreter converts. A caller that
catches only the first sees the difference: `loadsFault` is `loads` with the
two kept apart (`mapError_loadsFault`). Then what a caller does with a value
that may be of any type: subscripts, `int(x)` and loops, each with the
exception it raises.
-/

namespace Py

/-! ## `json.loads` -/

inductive JsonFault where
  | decode
  | digits
  | recursion
  | fuel
deriving DecidableEq

namespace JsonFault

/-- The class of the exception. -/
def name : JsonFault → String
  | .decode => "JSONDecodeError"
  | .digits => "ValueError"
  | .recursion | .fuel => "RecursionError"

def error : JsonFault → JsonError
  | .decode | .digits => .value
  | .recursion => .recursion
  | .fuel => .fuel

def ofNone {α : Type} : Option α → Except JsonFault α
  | some x => .ok x
  | none => .error .decode

end JsonFault

/-- The text goes on with an integer that has too many digits to convert. -/
def longInteger (cs : List Char) : Bool :=
  match scanDigits (scanMinus cs).2 with
  | none => false
  | some (digits, rest) =>
      let (fraction, rest) := scanFraction rest
      fraction.isEmpty && (scanExponent rest).1.isEmpty && intMaxStrDigits < digits.length

section

variable (floatRepr : String → String)

/-- A constant or a number. -/
def scanAtom (cs : List Char) : Except JsonFault (Loaded × List Char) :=
  match (scanConstant cs).or (scanNumber floatRepr cs) with
  | some scanned => .ok scanned
  | none => .error (if longInteger cs then .digits else .decode)

mutual

/-- `scanOnce`, with the faults of `scanAtom`. -/
def scanOnceFault : Nat → Nat → List Char → Except JsonFault (Loaded × List Char)
  | 0, _, _ => .error .fuel
  | _ + 1, _, [] => .error .decode
  | fuel + 1, depth, c :: cs =>
      if c = doubleQuote then do
        let (text, rest) ← JsonFault.ofNone (scanString cs)
        return (.str text, rest)
      else if c = openBrace || c = '[' then
        match depth with
        | 0 => .error .recursion
        | depth + 1 =>
            if c = openBrace then
              match nextIs closeBrace cs with
              | some rest => .ok (.obj [], rest)
              | none => scanEntriesFault fuel depth [] cs
            else
              match nextIs ']' cs with
              | some rest => .ok (.arr [], rest)
              | none => scanItemsFault fuel depth [] cs
      else scanAtom floatRepr (c :: cs)

def scanItemsFault : Nat → Nat → List Loaded → List Char → Except JsonFault (Loaded × List Char)
  | 0, _, _, _ => .error .fuel
  | fuel + 1, depth, items, cs => do
      let (value, rest) ← scanOnceFault fuel depth (skipSpaces cs)
      match nextIs ']' rest with
      | some rest => return (.arr (items ++ [value]), rest)
      | none =>
          let rest ← JsonFault.ofNone (nextIs ',' rest)
          scanItemsFault fuel depth (items ++ [value]) rest

def scanEntriesFault : Nat → Nat → List (PyText × Loaded) → List Char →
    Except JsonFault (Loaded × List Char)
  | 0, _, _, _ => .error .fuel
  | fuel + 1, depth, entries, cs => do
      let rest ← JsonFault.ofNone (nextIs doubleQuote cs)
      let (key, rest) ← JsonFault.ofNone (scanString rest)
      let rest ← JsonFault.ofNone (nextIs ':' rest)
      let (value, rest) ← scanOnceFault fuel depth (skipSpaces rest)
      match nextIs closeBrace rest with
      | some rest => return (.obj (Loaded.setEntry entries key value), rest)
      | none =>
          let rest ← JsonFault.ofNone (nextIs ',' rest)
          scanEntriesFault fuel depth (Loaded.setEntry entries key value) rest

end

/-- `json.loads`. -/
def loadsFault (maxDepth : Nat) (text : String) : Except JsonFault Loaded :=
  let cs := text.toList
  if cs.head? = some (Char.ofNat 0xFEFF) then .error .decode
  else do
    let (value, rest) ← scanOnceFault floatRepr (2 * cs.length + 1) maxDepth (skipSpaces cs)
    if skipSpaces rest = [] then return value else .error .decode

end

/-! ## It is `loads` -/

theorem mapError_bind {ε ε' α β : Type} (g : ε → ε') (x : Except ε α) (f : α → Except ε β) :
    (x >>= f).mapError g = x.mapError g >>= fun a => (f a).mapError g := by
  cases x <;> rfl

theorem mapError_ofNone {α : Type} (x : Option α) :
    (JsonFault.ofNone x).mapError JsonFault.error = JsonError.ofNone x := by
  cases x <;> rfl

section

variable {floatRepr : String → String}

theorem mapError_scanAtom (cs : List Char) :
    (scanAtom floatRepr cs).mapError JsonFault.error
      = JsonError.ofNone ((scanConstant cs).or (scanNumber floatRepr cs)) := by
  unfold scanAtom
  split
  · rename_i scanned heq
    rw [heq]
    rfl
  · rename_i heq
    rw [heq]
    split <;> rfl

theorem mapError_scan (fuel : Nat) :
    (∀ depth cs, (scanOnceFault floatRepr fuel depth cs).mapError JsonFault.error
        = scanOnce floatRepr fuel depth cs)
      ∧ (∀ depth items cs, (scanItemsFault floatRepr fuel depth items cs).mapError JsonFault.error
        = scanItems floatRepr fuel depth items cs)
      ∧ ∀ depth entries cs,
        (scanEntriesFault floatRepr fuel depth entries cs).mapError JsonFault.error
          = scanEntries floatRepr fuel depth entries cs := by
  induction fuel with
  | zero => exact ⟨fun _ _ => by simp [scanOnceFault, scanOnce]; rfl, fun _ _ _ => by
      simp [scanItemsFault, scanItems]; rfl, fun _ _ _ => by
      simp [scanEntriesFault, scanEntries]; rfl⟩
  | succ fuel ih =>
      obtain ⟨hvalue, hitems, hentries⟩ := ih
      refine ⟨fun depth cs => ?_, fun depth items cs => ?_, fun depth entries cs => ?_⟩
      · cases cs with
        | nil => rfl
        | cons c cs =>
            rw [scanOnceFault.eq_def, scanOnce.eq_def]
            dsimp only
            split
            · rw [mapError_bind, mapError_ofNone]
              rfl
            split
            · cases depth with
              | zero => rfl
              | succ depth =>
                  dsimp only
                  split
                  · cases nextIs closeBrace cs with
                    | some rest => rfl
                    | none => exact hentries depth [] cs
                  · cases nextIs ']' cs with
                    | some rest => rfl
                    | none => exact hitems depth [] cs
            · exact mapError_scanAtom (c :: cs)
      · rw [scanItemsFault, scanItems, mapError_bind, hvalue]
        refine congrArg _ (funext fun scanned => ?_)
        dsimp only
        cases nextIs ']' scanned.2 with
        | some rest => rfl
        | none =>
            dsimp only
            rw [mapError_bind, mapError_ofNone]
            exact congrArg _ (funext fun rest => hitems depth _ rest)
      · rw [scanEntriesFault, scanEntries, mapError_bind, mapError_ofNone]
        refine congrArg _ (funext fun quoted => ?_)
        rw [mapError_bind, mapError_ofNone]
        refine congrArg _ (funext fun key => ?_)
        rw [mapError_bind, mapError_ofNone]
        refine congrArg _ (funext fun after => ?_)
        rw [mapError_bind, hvalue]
        refine congrArg _ (funext fun scanned => ?_)
        dsimp only
        cases nextIs closeBrace scanned.2 with
        | some rest => rfl
        | none =>
            dsimp only
            rw [mapError_bind, mapError_ofNone]
            exact congrArg _ (funext fun rest => hentries depth _ rest)

/-- The two differ only in what they say of an error. -/
theorem mapError_loadsFault (maxDepth : Nat) (text : String) :
    (loadsFault floatRepr maxDepth text).mapError JsonFault.error
      = loads floatRepr maxDepth text := by
  unfold loadsFault loads
  dsimp only
  split
  · rfl
  · rw [mapError_bind, (mapError_scan _).1]
    refine congrArg _ (funext fun scanned => ?_)
    split <;> rfl

end

/-! ## A value of any type -/

namespace Loaded

/-- `x[key]`. -/
def item (key : String) : Loaded → Except String Loaded
  | .obj entries =>
      match entries.find? fun entry => entry.1 = codePoints key with
      | some entry => .ok entry.2
      | none => .error "KeyError"
  | _ => .error "TypeError"

/-- `x[0]`. -/
def first : Loaded → Except String Loaded
  | .arr (x :: _) => .ok x
  | .str (n :: _) => .ok (.str [n])
  | .arr [] | .str [] => .error "IndexError"
  | .obj _ => .error "KeyError"
  | _ => .error "TypeError"

/-- What a loop over `x` goes through. -/
def iter : Loaded → Except String (List Loaded)
  | .arr items => .ok items
  | .str text => .ok (text.map fun n => .str [n])
  | .obj entries => .ok (entries.map fun entry => .str entry.1)
  | _ => .error "TypeError"

/-- `int(x)`, with `int` of a text given: `none` is its `ValueError`. -/
def pyInt (intText : PyText → Option Int) : Loaded → Except String Int
  | .int n => .ok n
  | .bool b => .ok (if b then 1 else 0)
  | .float "inf" | .float "-inf" => .error "OverflowError"
  | .float repr =>
      match truncRepr repr with
      | some n => .ok n
      | none => .error "ValueError"
  | .str text =>
      match intText text with
      | some n => .ok n
      | none => .error "ValueError"
  | _ => .error "TypeError"

end Loaded

end Py
