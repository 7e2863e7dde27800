import Aegora.PyJson

/-!
# The lines of a text

`str.splitlines`. A line ends at a line boundary, or at the end of the text;
the boundary belongs to the line, and `"\r\n"` is one boundary.
-/

namespace Py

/-- The line boundaries of `str.splitlines`. -/
def isLineBreak (c : Char) : Bool :=
  let n := c.toNat
  (10 ≤ n && n ≤ 13) || (28 ≤ n && n ≤ 30) || n == 0x85 || n == 0x2028 || n == 0x2029

/-- Between these two characters the text is cut. -/
def cutsBetween (c d : Char) : Bool := isLineBreak c && !(c.toNat == 13 && d.toNat == 10)

/-- The first line begins with the character. -/
def ontoFirst (c : Char) : List (List Char) → List (List Char)
  | [] => [[c]]
  | line :: rest => (c :: line) :: rest

/-- `text.splitlines(keepends=True)`. -/
def keptLines : List Char → List (List Char)
  | [] => []
  | [c] => [[c]]
  | c :: d :: cs =>
      if cutsBetween c d then [c] :: keptLines (d :: cs) else ontoFirst c (keptLines (d :: cs))

/-- A line without its boundary. -/
def withoutBreak (line : List Char) : List Char :=
  match line.reverse with
  | [] => []
  | [c] => if isLineBreak c then [] else [c]
  | c :: d :: before =>
      if c.toNat == 10 && d.toNat == 13 then before.reverse
      else if isLineBreak c then (d :: before).reverse
      else line

/-- `text.splitlines()`. -/
def splitLines (text : String) : List String :=
  (keptLines text.toList).map fun line => String.ofList (withoutBreak line)

theorem flatten_ontoFirst (c : Char) (lines : List (List Char)) :
    (ontoFirst c lines).flatten = c :: lines.flatten := by
  cases lines <;> rfl

theorem ne_nil_of_mem_ontoFirst {c : Char} {line : List Char} {lines : List (List Char)}
    (hlines : ∀ old ∈ lines, old ≠ []) (h : line ∈ ontoFirst c lines) : line ≠ [] := by
  cases lines with
  | nil =>
      rw [List.mem_singleton.mp h]
      exact List.cons_ne_nil c []
  | cons first rest =>
      rcases List.mem_cons.mp h with rfl | h
      · exact List.cons_ne_nil c first
      · exact hlines line (List.mem_cons_of_mem first h)

/-- The lines are the text. -/
theorem flatten_keptLines (text : List Char) : (keptLines text).flatten = text := by
  induction text using keptLines.induct with
  | case1 => rfl
  | case2 c => rfl
  | case3 c d cs hcut ih =>
      rw [keptLines, if_pos hcut, List.flatten_cons, ih]
      rfl
  | case4 c d cs hkeep ih => rw [keptLines, if_neg hkeep, flatten_ontoFirst, ih]

/-- No line is empty, its boundary belongs to it. -/
theorem ne_nil_of_mem_keptLines (text : List Char) : ∀ line ∈ keptLines text, line ≠ [] := by
  induction text using keptLines.induct with
  | case1 =>
      intro line h
      cases h
  | case2 c =>
      intro line h
      rw [List.mem_singleton.mp h]
      exact List.cons_ne_nil c []
  | case3 c d cs hcut ih =>
      intro line h
      rw [keptLines, if_pos hcut] at h
      rcases List.mem_cons.mp h with rfl | h
      · exact List.cons_ne_nil c []
      · exact ih line h
  | case4 c d cs hkeep ih =>
      intro line h
      rw [keptLines, if_neg hkeep] at h
      exact ne_nil_of_mem_ontoFirst ih h

example : splitLines "a\r\nb\n\rc\u2028d" = ["a", "b", "", "c", "d"] := by decide

example : splitLines "a\n\nb\n" = ["a", "", "b"] := by decide

end Py
