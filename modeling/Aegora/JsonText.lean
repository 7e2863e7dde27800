import Mathlib.Data.List.Sort
import Aegora.PyJson

/-!
# JSON texts

`json.dumps` with `ensure_ascii=False` and `sort_keys=True`, for any pair of
separators. What the code below uses of a text is where it ends:
a dumped string ends with a quote and a dumped dictionary with a brace, so
the two are told apart by their last character (`append_dumps_ne`).
-/

namespace Py

def backslash : Char := Char.ofNat 92

def doubleQuote : Char := Char.ofNat 34

/-- One character inside a JSON string. -/
def jsonChar (c : Char) : List Char :=
  if c = doubleQuote || c = backslash then [backslash, c]
  else if c.toNat = 8 then [backslash, 'b']
  else if c.toNat = 9 then [backslash, 't']
  else if c.toNat = 10 then [backslash, 'n']
  else if c.toNat = 12 then [backslash, 'f']
  else if c.toNat = 13 then [backslash, 'r']
  else if c.toNat < 32 then
    [backslash, 'u', '0', '0', hexDigit (c.toNat / 16), hexDigit c.toNat]
  else [c]

/-- `json.dumps` of a string. -/
def jsonString (s : String) : String :=
  String.ofList (doubleQuote :: s.toList.flatMap jsonChar ++ [doubleQuote])

/-- `json.dumps` of a float, from its `repr`. -/
def jsonFloat (repr : String) : String :=
  if repr = "inf" then "Infinity"
  else if repr = "-inf" then "-Infinity"
  else if repr = "nan" then "NaN"
  else repr

mutual

/-- `json.dumps(x, ensure_ascii=False, sort_keys=True, separators=(itemSep, keySep))`. -/
def Json.dumps (itemSep keySep : String) : Json → String
  | .null => "null"
  | .bool b => if b then "true" else "false"
  | .int n => toString n
  | .float r => jsonFloat r
  | .str s => jsonString s
  | .arr xs => "[" ++ itemSep.intercalate (Json.dumpsItems itemSep keySep xs) ++ "]"
  | .obj es =>
      let sorted := (Json.dumpsEntries itemSep keySep es).insertionSort fun a b => a.1 ≤ b.1
      "\x7b" ++ itemSep.intercalate (sorted.map fun kv => jsonString kv.1 ++ keySep ++ kv.2)
        ++ "\x7d"

def Json.dumpsItems (itemSep keySep : String) : List Json → List String
  | [] => []
  | x :: xs => x.dumps itemSep keySep :: Json.dumpsItems itemSep keySep xs

def Json.dumpsEntries (itemSep keySep : String) : List (String × Json) → List (String × String)
  | [] => []
  | (k, v) :: es => (k, v.dumps itemSep keySep) :: Json.dumpsEntries itemSep keySep es

end

mutual

/-- `json.dumps(x, ensure_ascii=False)`: the entries of a dictionary in their order. -/
def Json.text : Json → String
  | .null => "null"
  | .bool b => if b then "true" else "false"
  | .int n => toString n
  | .float r => jsonFloat r
  | .str s => jsonString s
  | .arr xs => "[" ++ ", ".intercalate (Json.textItems xs) ++ "]"
  | .obj es => "\x7b" ++ ", ".intercalate (Json.textEntries es) ++ "\x7d"

def Json.textItems : List Json → List String
  | [] => []
  | x :: xs => x.text :: Json.textItems xs

def Json.textEntries : List (String × Json) → List String
  | [] => []
  | (k, v) :: es => (jsonString k ++ ": " ++ v.text) :: Json.textEntries es

end

/-! ## How a text ends -/

theorem exists_intercalate_concat (sep x : String) (xs : List String) :
    ∃ before, sep.intercalate (xs ++ [x]) = before ++ x := by
  by_cases hxs : xs = []
  · exact ⟨"", by simp [hxs]⟩
  · refine ⟨sep.intercalate xs ++ sep, ?_⟩
    rw [String.intercalate_append_of_ne_nil hxs (List.cons_ne_nil x [])]
    simp

/-- The text of a dictionary ends with the value of its greatest key. -/
theorem dumps_obj_of_sorted {itemSep keySep : String} {entries : List (String × Json)}
    (before : List (String × String)) (key value : String)
    (h : (Json.dumpsEntries itemSep keySep entries).insertionSort (fun a b => a.1 ≤ b.1)
      = before ++ [(key, value)]) :
    ∃ text, (Json.obj entries).dumps itemSep keySep = text ++ value ++ "\x7d" := by
  rw [Json.dumps, h, List.map_append]
  obtain ⟨text, htext⟩ := exists_intercalate_concat itemSep (jsonString key ++ keySep ++ value)
    (before.map fun kv => jsonString kv.1 ++ keySep ++ kv.2)
  refine ⟨"\x7b" ++ text ++ jsonString key ++ keySep, ?_⟩
  rw [List.map_singleton, htext]
  simp only [String.append_assoc]

theorem getLast?_jsonString (s : String) : (jsonString s).toList.getLast? = some doubleQuote := by
  unfold jsonString
  rw [String.toList_ofList]
  exact List.getLast?_concat

theorem getLast?_dumps_obj (itemSep keySep : String) (entries : List (String × Json)) :
    ((Json.obj entries).dumps itemSep keySep).toList.getLast? = some (Char.ofNat 125) := by
  rw [Json.dumps, String.toList_append]
  exact List.getLast?_concat

/-- Before the same end, a string and a dictionary make different texts. -/
theorem append_dumps_ne (itemSep keySep s : String) (entries : List (String × Json))
    (a b c : String) :
    a ++ (Json.str s).dumps itemSep keySep ++ c
      ≠ b ++ (Json.obj entries).dumps itemSep keySep ++ c := by
  intro h
  have hlists := congrArg String.toList h
  simp only [String.toList_append] at hlists
  have hsame := List.append_cancel_right hlists
  have hlast := congrArg List.getLast? hsame
  rw [List.getLast?_append, List.getLast?_append, Json.dumps, getLast?_jsonString,
    getLast?_dumps_obj] at hlast
  have hends : doubleQuote = Char.ofNat 125 := by simpa using hlast
  exact absurd hends (by decide)

end Py
