import Mathlib.Algebra.GroupWithZero.Nat
import Mathlib.Data.Bool.AllAny
import Mathlib.Data.List.Basic

/-!
# Occurrences of a term in a text

A term occurs in a text when it is one of its infixes. Here is what that
means for a text put together from parts: a letter that the term does not
contain separates the parts, so the term occurs in the whole exactly when it
occurs in a part.

The words of a text are the occurrences with a separator on either side.

The last part is about lower case. `str.lower` maps a text letter by letter
except for the capital sigma, whose image depends on the letters around it
(`Lowering`); of a term without sigma, `occurs_lower_iff` says that it occurs
in the lowered text when it occurs in the images of the letters.
-/

namespace Occurrences

/-! ## Parts of a text -/

section Parts

variable {α : Type*} {term a b : List α} {c : α}

/-- A letter no occurrence starts with. -/
theorem infix_cons_iff_of_head (h : term.head? ≠ some c) : term <:+: c :: a ↔ term <:+: a := by
  rw [List.infix_cons_iff]
  refine ⟨fun hterm => hterm.elim (fun hprefix => ?_) id, Or.inr⟩
  cases term with
  | nil => exact List.nil_infix
  | cons d term =>
      obtain ⟨rfl, -⟩ := List.cons_prefix_cons.mp hprefix
      exact absurd rfl h

/-- A letter no occurrence contains. -/
theorem infix_append_cons_iff (h : c ∉ term) :
    term <:+: a ++ c :: b ↔ term <:+: a ∨ term <:+: b := by
  have hhead : term.head? ≠ some c := fun hhead => h (List.mem_of_mem_head? hhead)
  rw [List.infix_append_iff, infix_cons_iff_of_head hhead]
  constructor
  · rintro (hleft | hright | ⟨left, right, rfl, hleft, hright⟩)
    · exact Or.inl hleft
    · exact Or.inr hright
    · cases right with
      | nil =>
          rw [List.append_nil]
          exact Or.inl hleft.isInfix
      | cons d right =>
          obtain ⟨rfl, -⟩ := List.cons_prefix_cons.mp hright
          exact absurd (List.mem_append_right left List.mem_cons_self) h
  · rintro (hleft | hright)
    · exact Or.inl hleft
    · exact Or.inr (Or.inl hright)

theorem infix_intercalate_iff {parts : List (List α)} (hne : term ≠ []) (h : c ∉ term) :
    term <:+: List.intercalate [c] parts ↔ ∃ part ∈ parts, term <:+: part := by
  induction parts with
  | nil => simp [hne]
  | cons part parts ih =>
      cases parts with
      | nil => simp
      | cons next parts =>
          rw [List.intercalate_cons_cons, List.append_assoc, List.singleton_append,
            infix_append_cons_iff h, ih]
          simp only [List.mem_cons, exists_eq_or_imp]

theorem infix_intercalate_of_mem {sep part : List α} {parts : List (List α)} (h : part ∈ parts) :
    part <:+: List.intercalate sep parts := by
  induction parts with
  | nil => cases h
  | cons first parts ih =>
      cases parts with
      | nil =>
          obtain rfl := List.mem_singleton.mp h
          exact List.intercalate_singleton ▸ List.infix_rfl
      | cons next parts =>
          rw [List.intercalate_cons_cons]
          rcases List.mem_cons.mp h with rfl | h
          · exact List.infix_append_of_infix_left List.infix_append_left
          · exact List.infix_append_of_infix_right (ih h)

theorem flatMap_intercalate {β : Type*} (f : α → List β) (sep : List α) (parts : List (List α)) :
    (List.intercalate sep parts).flatMap f
      = List.intercalate (sep.flatMap f) (parts.map fun part => part.flatMap f) := by
  induction parts with
  | nil => rfl
  | cons part parts ih =>
      cases parts with
      | nil => simp
      | cons next parts =>
          rw [List.intercalate_cons_cons, List.flatMap_append, List.flatMap_append, ih]
          exact List.intercalate_cons_cons.symm

theorem length_intercalate_singleton (parts : List (List α)) :
    (List.intercalate [c] parts).length = (parts.map fun part => part.length + 1).sum - 1 := by
  induction parts with
  | nil => rfl
  | cons part parts ih =>
      cases parts with
      | nil => simp
      | cons next parts =>
          rw [List.intercalate_cons_cons, List.length_append, List.length_append, ih]
          simp only [List.map_cons, List.sum_cons, List.length_singleton]
          omega

/-- Joined parts are cut where the parts are cut and between them. -/
theorem splitOn_intercalate_flatMap [BEq α] [LawfulBEq α] {parts : List (List α)}
    (h : parts ≠ []) :
    (List.intercalate [c] parts).splitOn c = parts.flatMap fun part => part.splitOn c := by
  induction parts with
  | nil => exact absurd rfl h
  | cons part parts ih =>
      cases parts with
      | nil => simp
      | cons next parts =>
          rw [List.intercalate_cons_cons, List.append_assoc, List.singleton_append,
            List.splitOn_append_cons_self, ih (List.cons_ne_nil next parts)]
          rfl

/-- Two texts joined from parts are the same when the parts are cut into the same pieces. -/
theorem intercalate_eq_iff [BEq α] [LawfulBEq α] {parts parts' : List (List α)} (h : parts ≠ [])
    (h' : parts' ≠ []) :
    List.intercalate [c] parts = List.intercalate [c] parts'
      ↔ (parts.flatMap fun part => part.splitOn c) = parts'.flatMap fun part => part.splitOn c := by
  rw [← splitOn_intercalate_flatMap h, ← splitOn_intercalate_flatMap h']
  constructor
  · exact congrArg (List.splitOn c)
  · intro hsplit
    have hjoined : List.intercalate [c] ((List.intercalate [c] parts).splitOn c)
        = List.intercalate [c] parts := List.intercalate_splitOn c
    rw [← hjoined, hsplit, List.intercalate_splitOn]

theorem infix_flatMap {β : Type*} (f : α → List β) (h : term <:+: a) :
    term.flatMap f <:+: a.flatMap f := by
  obtain ⟨before, after, rfl⟩ := h
  rw [List.flatMap_append, List.flatMap_append]
  exact List.infix_append _ _ _

/-- Letters may be folded together as long as the term knows none of them. -/
theorem infix_map_iff_of_fixed {f : α → α} (hterm : ∀ c ∈ term, f c = c)
    (hother : ∀ c, f c ∈ term → f c = c) : term <:+: a.map f ↔ term <:+: a := by
  have hfixed : ∀ part : List α, (∀ c ∈ part, f c = c) → part.map f = part := fun part hpart =>
    (List.map_congr_left hpart).trans (List.map_id' part)
  constructor
  · intro hmap
    obtain ⟨part, hpart, hpart'⟩ := List.infix_map_iff.mp hmap
    rw [hpart', hfixed part fun c hc => hother c (hpart' ▸ List.mem_map_of_mem hc)]
    exact hpart
  · intro hplain
    have hmap := List.IsInfix.map f hplain
    rwa [hfixed term hterm] at hmap

end Parts

/-! ## Words -/

section Words

variable {α : Type*} {sep : α → Bool} {word text : List α}

/-- An occurrence of the word with a separator, or nothing, on either side. -/
def Delimited (sep : α → Bool) (word text : List α) : Prop :=
  ∃ before after, text = before ++ word ++ after
    ∧ (∀ c ∈ before.getLast?, sep c = true) ∧ ∀ c ∈ after.head?, sep c = true

/-- A text goes up to its first separator. -/
theorem first_separator (sep : α → Bool) (text : List α) :
    (∀ c ∈ text, sep c = false)
      ∨ ∃ a d b, text = a ++ d :: b ∧ (∀ c ∈ a, sep c = false) ∧ sep d = true := by
  induction text with
  | nil => exact Or.inl fun _ h => absurd h List.not_mem_nil
  | cons c text ih =>
      cases hc : sep c with
      | true => exact Or.inr ⟨[], c, text, rfl, fun _ h => absurd h List.not_mem_nil, hc⟩
      | false =>
          rcases ih with hnone | ⟨a, d, b, rfl, ha, hd⟩
          · exact Or.inl (List.forall_mem_cons.mpr ⟨hc, hnone⟩)
          · exact Or.inr ⟨c :: a, d, b, rfl, List.forall_mem_cons.mpr ⟨hc, ha⟩, hd⟩

theorem delimited_of_mem_splitOnP (h : word ∈ text.splitOnP sep) :
    (∀ c ∈ word, sep c = false) ∧ Delimited sep word text := by
  induction hlength : text.length using Nat.strongRecOn generalizing text with
  | _ n ih =>
      rcases first_separator sep text with hnone | ⟨a, d, b, rfl, ha, hd⟩
      · rw [List.splitOnP_eq_singleton hnone, List.mem_singleton] at h
        subst h
        exact ⟨hnone, [], [], by simp, by simp, by simp⟩
      · rw [List.splitOnP_append_cons_of_forall_mem ha d hd b] at h
        rcases List.mem_cons.mp h with rfl | h
        · exact ⟨ha, [], d :: b, by simp, by simp, by simp [hd]⟩
        · have hshorter : b.length < n := by
            rw [← hlength, List.length_append, List.length_cons]
            omega
          obtain ⟨hword, before, after, rfl, hbefore, hafter⟩ := ih b.length hshorter h rfl
          refine ⟨hword, a ++ d :: before, after, by simp, ?_, hafter⟩
          cases before with
          | nil => simp [hd]
          | cons c before => simpa [List.getLast?_append] using hbefore

/-- The pieces of a text are its delimited words. -/
theorem mem_splitOnP_iff :
    word ∈ text.splitOnP sep ↔ (∀ c ∈ word, sep c = false) ∧ Delimited sep word text := by
  refine ⟨delimited_of_mem_splitOnP, ?_⟩
  rintro ⟨hword, before, after, rfl, hbefore, hafter⟩
  have hrest : word ∈ (word ++ after).splitOnP sep := by
    cases after with
    | nil =>
        rw [List.append_nil, List.splitOnP_eq_singleton hword]
        exact List.mem_singleton_self word
    | cons d after =>
        rw [List.splitOnP_append_cons_of_forall_mem hword d (hafter d rfl)]
        exact List.mem_cons_self
  rcases List.eq_nil_or_concat' before with rfl | ⟨before, d, rfl⟩
  · exact hrest
  · have hd : sep d = true := hbefore d (by simp)
    have htext : before ++ [d] ++ word ++ after = before ++ d :: (word ++ after) := by simp
    rw [htext, List.splitOnP_append_cons before _ hd]
    exact List.mem_append_right _ hrest

end Words

/-! ## Lower case -/

/-- The two forms of a small sigma are one letter. -/
def plainSigma (c : Char) : Char := if c = 'ς' then 'σ' else c

/-- Chinese and Japanese letters and their punctuation, which have no case. -/
def Caseless (c : Char) : Prop :=
  (0x3000 ≤ c.toNat ∧ c.toNat ≤ 0x9FFF) ∨ (0xFF01 ≤ c.toNat ∧ c.toNat ≤ 0xFF20)

instance (c : Char) : Decidable (Caseless c) := inferInstanceAs (Decidable (_ ∨ _))

/-- What is known of `str.lower`: `lowerChar` maps a letter for itself. -/
structure Lowering (lower : String → String) (lowerChar : Char → List Char) : Prop where
  /-- Letter by letter, up to the form of a sigma. -/
  chars : ∀ text, (lower text).toList.map plainSigma
    = (text.toList.flatMap lowerChar).map plainSigma
  ascii : ∀ c, c.toNat < 128 → lowerChar c = [c.toLower]
  caseless : ∀ c, Caseless c → lowerChar c = [c]

/-- No form of the small sigma is in the term. -/
def NoSigma (term : List Char) : Prop := 'σ' ∉ term ∧ 'ς' ∉ term

instance (term : List Char) : Decidable (NoSigma term) := inferInstanceAs (Decidable (_ ∧ _))

namespace Lowering

variable {lower : String → String} {lowerChar : Char → List Char} {term : List Char}

theorem infix_plainSigma_iff (hterm : NoSigma term) (text : List Char) :
    term <:+: text.map plainSigma ↔ term <:+: text := by
  refine infix_map_iff_of_fixed (fun c hc => if_neg ?_) fun c hc => if_neg ?_
  · rintro rfl
    exact hterm.2 hc
  · rintro rfl
    exact hterm.1 hc

/-- A term without sigma occurs in the lowered text when the images of the letters show it. -/
theorem occurs_lower_iff (h : Lowering lower lowerChar) (hterm : NoSigma term) (text : String) :
    term <:+: (lower text).toList ↔ term <:+: text.toList.flatMap lowerChar := by
  rw [← infix_plainSigma_iff hterm, h.chars, infix_plainSigma_iff hterm]

theorem lower_empty (h : Lowering lower lowerChar) : lower "" = "" := by
  have hchars := h.chars ""
  rw [String.toList_empty, List.flatMap_nil, List.map_nil, List.map_eq_nil_iff] at hchars
  exact String.toList_eq_nil_iff.mp hchars

/-- A text of ASCII and caseless letters. -/
theorem flatMap_plain (h : Lowering lower lowerChar) {text : List Char}
    (htext : ∀ c ∈ text, c.toNat < 128 ∨ Caseless c) :
    text.flatMap lowerChar = text.map fun c => if c.toNat < 128 then c.toLower else c := by
  rw [List.map_eq_flatMap]
  refine List.flatMap_congr fun c hc => ?_
  by_cases hascii : c.toNat < 128
  · rw [if_pos hascii, h.ascii c hascii]
  · rw [if_neg hascii, h.caseless c ((htext c hc).resolve_left hascii)]

end Lowering

end Occurrences
