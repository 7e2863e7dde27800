import Aegora.Utf8
import Mathlib.Data.Bool.AllAny
import Mathlib.Data.List.Basic
import Mathlib.Data.List.Infix
import Mathlib.Data.List.TakeWhile

/-!
# Texts in URLs

`urllib.parse` on texts: percent-encoding and its two decodings, form-encoded
queries, and the parts of a URL. Decoding replaces an escape by its byte and
reads the bytes as UTF-8; a letter outside ASCII stands for its own bytes.

`unquote_quote` and `parseQsl_urlencode` are the round trips (a query loses
its blank values), `unquote_eq_self_iff` says which texts a second decoding
leaves alone.
-/

namespace Urls

open Utf8

/-! ## Escapes -/

/-- A digit of `%XX`, in upper case. -/
def hexChar (n : ℕ) : Char := if n < 10 then Char.ofNat (48 + n) else Char.ofNat (55 + n)

def hexValue (c : Char) : Option ℕ :=
  let n := c.toNat
  if 48 ≤ n ∧ n ≤ 57 then some (n - 48)
  else if 65 ≤ n ∧ n ≤ 70 then some (n - 55)
  else if 97 ≤ n ∧ n ≤ 102 then some (n - 87)
  else none

/-- `_ALWAYS_SAFE`. -/
def alwaysSafe (b : ℕ) : Bool :=
  (48 ≤ b && b ≤ 57) || (65 ≤ b && b ≤ 90) || (97 ≤ b && b ≤ 122)
    || b == 95 || b == 46 || b == 45 || b == 126

/-- The bytes that `quote(text, safe="/")` leaves. -/
def pathSafe (b : ℕ) : Bool := b == 47 || alwaysSafe b

def quoteByte (safe : ℕ → Bool) (b : ℕ) : List Char :=
  if safe b then [Char.ofNat b] else ['%', hexChar (b / 16), hexChar (b % 16)]

/-- `quote(text, safe)`, where the safe bytes are given by a test. -/
def quote (safe : ℕ → Bool) (text : List Char) : List Char := (encode text).flatMap (quoteByte safe)

/-- `quote_plus(text)`. -/
def quotePlus (text : List Char) : List Char :=
  (encode text).flatMap fun b => if b = 32 then ['+'] else quoteByte alwaysSafe b

/-- The bytes a text stands for. -/
def unquoteBytes : List Char → List ℕ
  | [] => []
  | '%' :: a :: b :: rest =>
      match hexValue a, hexValue b with
      | some high, some low => (16 * high + low) :: unquoteBytes rest
      | _, _ => 37 :: unquoteBytes (a :: b :: rest)
  | c :: rest => encodeChar c ++ unquoteBytes rest

/-- `unquote(text)`. -/
def unquote (text : List Char) : List Char := decode (unquoteBytes text)

/-- `unquote_plus(text)`. -/
def unquotePlus (text : List Char) : List Char :=
  unquote (text.map fun c => if c = '+' then ' ' else c)

/-! ## Queries and the parts of a URL -/

/-- `text.partition(c)`, without the separator. -/
def partition (c : Char) (text : List Char) : List Char × List Char :=
  (text.takeWhile (· ≠ c), (text.dropWhile (· ≠ c)).drop 1)

/-- `urlencode(pairs)`. -/
def urlencode (pairs : List (List Char × List Char)) : List Char :=
  List.intercalate ['&'] (pairs.map fun pair => quotePlus pair.1 ++ '=' :: quotePlus pair.2)

/-- A field of a query; one with a blank value is left out. -/
def parseField (field : List Char) : Option (List Char × List Char) :=
  let (name, value) := partition '=' field
  if value = [] then none else some (unquotePlus name, unquotePlus value)

/-- `parse_qsl(query)`. -/
def parseQsl (query : List Char) : List (List Char × List Char) :=
  (query.splitOn '&').filterMap parseField

/-- `parse_qs(query).get(name, [])`. -/
def valuesOf (name : List Char) (pairs : List (List Char × List Char)) : List (List Char) :=
  (pairs.filter (·.1 = name)).map Prod.snd

structure UrlParts where
  scheme : List Char
  netloc : List Char
  path : List Char
  query : List Char
deriving DecidableEq

def isSchemeChar (c : Char) : Bool := c.isAlphanum || c == '+' || c == '-' || c == '.'

/-- The scheme, in lower case, and what comes after its colon. -/
def splitScheme (url : List Char) : List Char × List Char :=
  let scheme := url.takeWhile (· ≠ ':')
  if ':' ∈ url ∧ (scheme.head?.any Char.isAlpha) ∧ scheme.all isSchemeChar then
    (scheme.map Char.toLower, (url.dropWhile (· ≠ ':')).drop 1)
  else ([], url)

/-- `_splitnetloc`, where there is one. -/
def splitNetloc (url : List Char) : List Char × List Char :=
  if ['/', '/'] <+: url then
    ((url.drop 2).takeWhile (· ∉ ['/', '?', '#']), (url.drop 2).dropWhile (· ∉ ['/', '?', '#']))
  else ([], url)

/-- `urlsplit(url)`, but for the checks of a host in brackets or outside ASCII. -/
def urlsplit (url : List Char) : UrlParts :=
  let cleaned := (url.dropWhile (·.toNat ≤ 32)).filter (· ∉ ['\t', '\r', '\n'])
  let (scheme, rest) := splitScheme cleaned
  let (netloc, rest) := splitNetloc rest
  let (rest, _) := partition '#' rest
  let (path, query) := partition '?' rest
  { scheme := scheme, netloc := netloc, path := path, query := query }

/-! ## Decoding undoes encoding -/

theorem hexValue_hexChar {n : ℕ} (h : n < 16) : hexValue (hexChar n) = some n := by
  revert n
  decide

theorem encodeChar_ascii {b : ℕ} (h : b < 128) : encodeChar (Char.ofNat b) = [b] := by
  revert b
  decide

theorem ofNat_ne_percent {b : ℕ} (h : b < 128) (hne : b ≠ 37) : Char.ofNat b ≠ '%' := by
  revert b
  decide

theorem encode_lt {text : List Char} {b : ℕ} (h : b ∈ encode text) : b < 256 := by
  obtain ⟨c, -, hb⟩ := List.mem_flatMap.mp h
  have hrange := toNat_range c
  unfold encodeChar at hb
  dsimp only at hb
  generalize c.toNat = n at *
  split_ifs at hb <;> simp only [List.mem_cons, List.not_mem_nil, or_false] at hb <;> omega

theorem unquoteBytes_cons {c : Char} (h : c ≠ '%') (rest : List Char) :
    unquoteBytes (c :: rest) = encodeChar c ++ unquoteBytes rest := by
  rw [unquoteBytes]
  rintro a b rest' rfl -
  exact h rfl

/-- The bytes that are written as they are. -/
def Literal (safe : ℕ → Bool) : Prop := ∀ b, safe b = true → b < 128 ∧ b ≠ 37

theorem unquoteBytes_quoteByte {safe : ℕ → Bool} (hsafe : Literal safe) {b : ℕ} (hb : b < 256)
    (rest : List Char) : unquoteBytes (quoteByte safe b ++ rest) = b :: unquoteBytes rest := by
  unfold quoteByte
  split
  · rename_i h
    obtain ⟨hascii, hne⟩ := hsafe b h
    rw [List.singleton_append, unquoteBytes_cons (ofNat_ne_percent hascii hne),
      encodeChar_ascii hascii]
    rfl
  · have hhigh : hexValue (hexChar (b / 16)) = some (b / 16) := hexValue_hexChar (by omega)
    have hlow : hexValue (hexChar (b % 16)) = some (b % 16) := hexValue_hexChar (by omega)
    rw [List.cons_append, List.cons_append, List.cons_append, List.nil_append, unquoteBytes]
    simp only [hhigh, hlow]
    rw [Nat.div_add_mod]

theorem unquoteBytes_quoteBytes {safe : ℕ → Bool} (hsafe : Literal safe) {bytes : List ℕ}
    (hbytes : ∀ b ∈ bytes, b < 256) (rest : List Char) :
    unquoteBytes (bytes.flatMap (quoteByte safe) ++ rest) = bytes ++ unquoteBytes rest := by
  induction bytes with
  | nil => rfl
  | cons b bytes ih =>
      rw [List.flatMap_cons, List.append_assoc,
        unquoteBytes_quoteByte hsafe (hbytes b List.mem_cons_self),
        ih fun b hb => hbytes b (List.mem_cons_of_mem _ hb), List.cons_append]

theorem unquote_quote {safe : ℕ → Bool} (hsafe : Literal safe) (text : List Char) :
    unquote (quote safe text) = text := by
  unfold unquote quote
  rw [← List.append_nil ((encode text).flatMap (quoteByte safe)),
    unquoteBytes_quoteBytes hsafe (fun _ => encode_lt), unquoteBytes, List.append_nil,
    decode_encode]

theorem literal_alwaysSafe : Literal alwaysSafe := by
  intro b h
  unfold alwaysSafe at h
  simp only [Bool.or_eq_true, Bool.and_eq_true, decide_eq_true_eq, beq_iff_eq] at h
  omega

/-! ### The plus sign -/

/-- What `quote_plus` leaves once its plus signs are spaces again. -/
def safeOrSpace (b : ℕ) : Bool := b == 32 || alwaysSafe b

theorem literal_safeOrSpace : Literal safeOrSpace := by
  intro b h
  rcases Bool.or_eq_true_iff.mp h with h | h
  · have := beq_iff_eq.mp h
    omega
  · exact literal_alwaysSafe b h

set_option maxRecDepth 4000 in
theorem plusByte_spaced {b : ℕ} (hb : b < 256) :
    (if b = 32 then ['+'] else quoteByte alwaysSafe b).map (fun c => if c = '+' then ' ' else c)
      = quoteByte safeOrSpace b := by
  revert b
  decide +kernel

theorem unquotePlus_quotePlus (text : List Char) : unquotePlus (quotePlus text) = text := by
  have hspaced : (quotePlus text).map (fun c => if c = '+' then ' ' else c)
      = quote safeOrSpace text := by
    unfold quotePlus quote
    rw [List.map_flatMap]
    exact List.flatMap_congr fun b hb => plusByte_spaced (encode_lt hb)
  rw [unquotePlus, hspaced, unquote_quote literal_safeOrSpace]

theorem unquoteBytes_of_plain {text : List Char} (h : '%' ∉ text) :
    unquoteBytes text = encode text := by
  induction text with
  | nil => rfl
  | cons c text ih =>
      obtain ⟨hc, htext⟩ := not_or.mp fun hmem => h (List.mem_cons.mpr hmem)
      rw [unquoteBytes_cons (Ne.symm hc), ih htext]
      rfl

theorem unquotePlus_of_plain {text : List Char} (hescape : '%' ∉ text) (hplus : '+' ∉ text) :
    unquotePlus text = text := by
  have hmap : text.map (fun c => if c = '+' then ' ' else c) = text := by
    conv_rhs => rw [← List.map_id text]
    refine List.map_congr_left fun c hc => if_neg fun heq => hplus ?_
    rw [← heq]
    exact hc
  rw [unquotePlus, hmap, unquote, unquoteBytes_of_plain hescape, decode_encode]

/-! ## Queries -/

theorem partition_of_not_mem {c : Char} {name : List Char} (h : c ∉ name) (rest : List Char) :
    partition c (name ++ c :: rest) = (name, rest) := by
  have hname : ∀ a ∈ name, decide (a ≠ c) = true := fun a ha => decide_eq_true fun heq =>
    h (heq ▸ ha)
  unfold partition
  rw [List.takeWhile_append_of_pos hname, List.dropWhile_append_of_pos hname,
    List.takeWhile_cons_of_neg (by simp), List.dropWhile_cons_of_neg (by simp), List.append_nil]
  rfl

/-- A name and a value written as a field. -/
def field (pair : List Char × List Char) : List Char := pair.1 ++ '=' :: pair.2

/-- The fields of a query, if none of the names and values holds a separator. -/
def Separated (pairs : List (List Char × List Char)) : Prop :=
  ∀ pair ∈ pairs, '=' ∉ pair.1 ∧ '&' ∉ pair.1 ∧ '&' ∉ pair.2

/-- What `parse_qsl` makes of them. -/
def decoded (pairs : List (List Char × List Char)) : List (List Char × List Char) :=
  (pairs.filter (·.2 ≠ [])).map fun pair => (unquotePlus pair.1, unquotePlus pair.2)

theorem parseField_field {pair : List Char × List Char} (h : '=' ∉ pair.1) :
    parseField (field pair)
      = if pair.2 = [] then none else some (unquotePlus pair.1, unquotePlus pair.2) := by
  unfold parseField field
  rw [partition_of_not_mem h]

theorem parseFields_map_field {pairs : List (List Char × List Char)} (h : Separated pairs) :
    (pairs.map field).filterMap parseField = decoded pairs := by
  unfold decoded
  induction pairs with
  | nil => rfl
  | cons pair pairs ih =>
      have hpairs : Separated pairs := fun other hother => h other (List.mem_cons_of_mem _ hother)
      rw [List.map_cons, List.filterMap_cons, parseField_field (h pair List.mem_cons_self).1,
        ih hpairs]
      by_cases hblank : pair.2 = [] <;> simp [hblank]

theorem parseQsl_fields {pairs : List (List Char × List Char)} (h : Separated pairs) :
    parseQsl (List.intercalate ['&'] (pairs.map field)) = decoded pairs := by
  unfold parseQsl
  rcases pairs with - | ⟨pair, pairs⟩
  · rfl
  · rw [List.splitOn_intercalate '&' ?_ (by simp), parseFields_map_field h]
    intro text htext
    obtain ⟨other, hother, rfl⟩ := List.mem_map.mp htext
    obtain ⟨-, hname, hvalue⟩ := h other hother
    unfold field
    simp only [List.mem_append, List.mem_cons, not_or]
    exact ⟨hname, by decide, hvalue⟩

set_option maxRecDepth 4000 in
theorem plusByte_visible {b : ℕ} (hb : b < 256) :
    ∀ c ∈ (if b = 32 then ['+'] else quoteByte alwaysSafe b),
      32 < c.toNat ∧ c ∉ ['&', '=', '#'] := by
  have hall : ∀ b < 256, (if b = 32 then ['+'] else quoteByte alwaysSafe b).all
      (fun c => 32 < c.toNat ∧ c ∉ ['&', '=', '#']) = true := by
    decide +kernel
  exact List.all_iff_forall_prop.mp (hall b hb)

theorem mem_quotePlus {text : List Char} {c : Char} (h : c ∈ quotePlus text) :
    32 < c.toNat ∧ c ∉ ['&', '=', '#'] := by
  obtain ⟨b, hb, hc⟩ := List.mem_flatMap.mp h
  exact plusByte_visible (encode_lt hb) c hc

theorem quotePlus_eq_nil {text : List Char} : quotePlus text = [] ↔ text = [] := by
  constructor
  · intro h
    rw [← unquotePlus_quotePlus text, h]
    rfl
  · rintro rfl
    rfl

theorem mem_intercalate {sep : List Char} {texts : List (List Char)} {c : Char}
    (h : c ∈ List.intercalate sep texts) : c ∈ sep ∨ ∃ text ∈ texts, c ∈ text := by
  induction texts with
  | nil => cases h
  | cons text texts ih =>
      rcases texts with - | ⟨next, texts⟩
      · exact Or.inr ⟨text, List.mem_cons_self, by simpa [List.intercalate] using h⟩
      · rw [List.intercalate_cons_cons, List.mem_append, List.mem_append] at h
        rcases h with (h | h) | h
        · exact Or.inr ⟨text, List.mem_cons_self, h⟩
        · exact Or.inl h
        · exact (ih h).imp id fun ⟨other, hother, hc⟩ =>
            ⟨other, List.mem_cons_of_mem _ hother, hc⟩

/-- The letters of a query. -/
theorem mem_query {pairs : List (List Char × List Char)} {c : Char}
    (h : c ∈ List.intercalate ['&'] (pairs.map field)) :
    c = '&' ∨ c = '=' ∨ ∃ pair ∈ pairs, c ∈ pair.1 ∨ c ∈ pair.2 := by
  rcases mem_intercalate h with h | ⟨text, htext, h⟩
  · exact Or.inl (List.mem_singleton.mp h)
  · obtain ⟨pair, hpair, rfl⟩ := List.mem_map.mp htext
    unfold field at h
    rcases List.mem_append.mp h with h | h
    · exact Or.inr (Or.inr ⟨pair, hpair, Or.inl h⟩)
    · rcases List.mem_cons.mp h with h | h
      · exact Or.inr (Or.inl h)
      · exact Or.inr (Or.inr ⟨pair, hpair, Or.inr h⟩)

/-- A pair as it is written in a query. -/
def quotedPair (pair : List Char × List Char) : List Char × List Char :=
  (quotePlus pair.1, quotePlus pair.2)

theorem urlencode_eq (pairs : List (List Char × List Char)) :
    urlencode pairs = List.intercalate ['&'] ((pairs.map quotedPair).map field) := by
  rw [List.map_map]
  rfl

theorem mem_urlencode {pairs : List (List Char × List Char)} {c : Char} (h : c ∈ urlencode pairs) :
    32 < c.toNat ∧ c ≠ '#' := by
  have hquoted : ∀ text, c ∈ quotePlus text → 32 < c.toNat ∧ c ≠ '#' := fun text hc =>
    ⟨(mem_quotePlus hc).1, fun heq => (mem_quotePlus hc).2 (by rw [heq]; decide)⟩
  rw [urlencode_eq] at h
  rcases mem_query h with rfl | rfl | ⟨pair, hpair, h⟩
  · decide
  · decide
  · obtain ⟨source, -, rfl⟩ := List.mem_map.mp hpair
    exact h.elim (hquoted source.1) (hquoted source.2)

/-- A query loses its blank values, and nothing else. -/
theorem parseQsl_urlencode (pairs : List (List Char × List Char)) :
    parseQsl (urlencode pairs) = pairs.filter (·.2 ≠ []) := by
  have hseparated : Separated (pairs.map quotedPair) := by
    intro pair hpair
    obtain ⟨pair, -, rfl⟩ := List.mem_map.mp hpair
    exact ⟨fun h => (mem_quotePlus h).2 (by decide), fun h => (mem_quotePlus h).2 (by decide),
      fun h => (mem_quotePlus h).2 (by decide)⟩
  have hfilter : (pairs.filter fun pair => (quotedPair pair).2 ≠ []) = pairs.filter (·.2 ≠ []) :=
    List.filter_congr fun pair _ => by simp [quotedPair, quotePlus_eq_nil]
  have hback : ∀ pair, (unquotePlus (quotedPair pair).1, unquotePlus (quotedPair pair).2) = pair :=
    fun pair => Prod.ext (unquotePlus_quotePlus _) (unquotePlus_quotePlus _)
  rw [urlencode_eq, parseQsl_fields hseparated]
  unfold decoded
  rw [List.filter_map, List.map_map]
  calc (pairs.filter fun pair => (quotedPair pair).2 ≠ []).map
        (fun pair => (unquotePlus (quotedPair pair).1, unquotePlus (quotedPair pair).2))
      = (pairs.filter fun pair => (quotedPair pair).2 ≠ []).map id :=
        List.map_congr_left fun pair _ => hback pair
    _ = pairs.filter (·.2 ≠ []) := by rw [List.map_id, hfilter]

theorem mem_quote {safe : ℕ → Bool} {text : List Char} {c : Char} (h : c ∈ quote safe text) :
    ∃ b, b < 256 ∧ c ∈ quoteByte safe b := by
  obtain ⟨b, hb, hc⟩ := List.mem_flatMap.mp h
  exact ⟨b, encode_lt hb, hc⟩

/-! ## The parts of a quoted path -/

theorem literal_pathSafe : Literal pathSafe := by
  intro b h
  rcases Bool.or_eq_true_iff.mp h with h | h
  · have := beq_iff_eq.mp h
    omega
  · exact literal_alwaysSafe b h

set_option maxRecDepth 4000 in
theorem pathByte_visible {b : ℕ} (hb : b < 256) :
    ∀ c ∈ quoteByte pathSafe b, 32 < c.toNat ∧ c ∉ ['?', '#'] ∧ (c = '/' → b = 47) := by
  have hall : ∀ b < 256, (quoteByte pathSafe b).all
      (fun c => 32 < c.toNat ∧ c ∉ ['?', '#'] ∧ (c = '/' → b = 47)) = true := by
    decide +kernel
  exact List.all_iff_forall_prop.mp (hall b hb)

theorem mem_encode_slash {c : Char} (h : 47 ∈ encodeChar c) : c = '/' := by
  have hback : c.toNat = 47 → c = '/' := fun hn => by
    rw [← Char.ofNat_toNat c, hn]
  unfold encodeChar at h
  dsimp only at h
  generalize c.toNat = n at *
  split_ifs at h <;> simp only [List.mem_cons, List.not_mem_nil, or_false] at h
  · exact hback h.symm
  · omega
  · omega
  · omega

theorem quote_cons (safe : ℕ → Bool) (c : Char) (text : List Char) :
    quote safe (c :: text) = (encodeChar c).flatMap (quoteByte safe) ++ quote safe text := by
  unfold quote encode
  rw [List.flatMap_cons, List.flatMap_append]

/-- A quoted path ends at its first slash, where it is read as a host. -/
theorem takeWhile_quote (text query : List Char) :
    (quote pathSafe text ++ '?' :: query).takeWhile (· ∉ ['/', '?', '#'])
      = quote pathSafe (text.takeWhile (· ≠ '/')) := by
  induction text with
  | nil => rfl
  | cons c text ih =>
      by_cases hc : c = '/'
      · subst hc
        rw [List.takeWhile_cons_of_neg (by simp)]
        rfl
      · have hplain : ∀ a ∈ (encodeChar c).flatMap (quoteByte pathSafe),
            decide (a ∉ ['/', '?', '#']) = true := by
          intro a ha
          obtain ⟨b, hb, hquoted⟩ := List.mem_flatMap.mp ha
          have hlt : b < 256 := encode_lt
            (List.mem_flatMap.mpr ⟨c, List.mem_cons_self, hb⟩ : b ∈ encode [c])
          obtain ⟨-, hnot, hslash⟩ := pathByte_visible hlt a hquoted
          refine decide_eq_true fun hmem => ?_
          rcases List.mem_cons.mp hmem with rfl | hmem
          · exact hc (mem_encode_slash (hslash rfl ▸ hb))
          · exact hnot hmem
        rw [quote_cons, List.append_assoc, List.takeWhile_append_of_pos hplain, ih,
          List.takeWhile_cons_of_pos (by simpa using hc), quote_cons]

theorem partition_of_absent {c : Char} {text : List Char} (h : c ∉ text) :
    partition c text = (text, []) := by
  have htext : ∀ a ∈ text, decide (a ≠ c) = true := fun a ha => decide_eq_true fun heq =>
    h (heq ▸ ha)
  unfold partition
  rw [List.takeWhile_eq_self_iff.mpr htext, List.dropWhile_eq_nil_iff.mpr htext]
  rfl

/-- `urlsplit` takes no letter from a text without blanks. -/
theorem cleaned_of_visible {text : List Char} (h : ∀ c ∈ text, 32 < c.toNat) :
    (text.dropWhile (·.toNat ≤ 32)).filter (· ∉ ['\t', '\r', '\n']) = text := by
  have hdrop : text.dropWhile (·.toNat ≤ 32) = text := by
    rcases text with - | ⟨c, text⟩
    · rfl
    · have hc := h c List.mem_cons_self
      exact List.dropWhile_cons_of_neg (by simpa using hc)
  rw [hdrop, List.filter_eq_self]
  intro c hc
  have hlarge := h c hc
  refine decide_eq_true fun hmem => ?_
  simp only [List.mem_cons, List.not_mem_nil, or_false] at hmem
  rcases hmem with rfl | rfl | rfl <;> exact absurd hlarge (by decide)

theorem splitScheme_of_scheme {scheme : List Char} (hhead : scheme.head?.any Char.isAlpha = true)
    (hall : scheme.all isSchemeChar = true) (rest : List Char) :
    splitScheme (scheme ++ ':' :: rest) = (scheme.map Char.toLower, rest) := by
  have hcolon : ':' ∉ scheme := fun hmem => by
    have := List.all_eq_true.mp hall ':' hmem
    revert this
    decide
  obtain ⟨hbefore, hafter⟩ := Prod.ext_iff.mp (partition_of_not_mem hcolon rest)
  unfold partition at hbefore hafter
  dsimp only at hbefore hafter
  unfold splitScheme
  dsimp only
  rw [hbefore, hafter, if_pos ⟨List.mem_append_right _ List.mem_cons_self, hhead, hall⟩]

/-- A URL that begins with a scheme and a host, and has no fragment. -/
theorem urlsplit_of_scheme {scheme body : List Char}
    (hhead : scheme.head?.any Char.isAlpha = true) (hall : scheme.all isSchemeChar = true)
    (hscheme : ∀ c ∈ scheme, 32 < c.toNat) (hbody : ∀ c ∈ body, 32 < c.toNat)
    (hfragment : '#' ∉ body) :
    urlsplit (scheme ++ ':' :: '/' :: '/' :: body)
      = { scheme := scheme.map Char.toLower
          netloc := body.takeWhile (· ∉ ['/', '?', '#'])
          path := (partition '?' (body.dropWhile (· ∉ ['/', '?', '#']))).1
          query := (partition '?' (body.dropWhile (· ∉ ['/', '?', '#']))).2 } := by
  have hvisible : ∀ c ∈ scheme ++ ':' :: '/' :: '/' :: body, 32 < c.toNat := by
    intro c hc
    rcases List.mem_append.mp hc with hc | hc
    · exact hscheme c hc
    · simp only [List.mem_cons] at hc
      rcases hc with rfl | rfl | rfl | hc
      · decide
      · decide
      · decide
      · exact hbody c hc
  have hfragment : '#' ∉ body.dropWhile (· ∉ ['/', '?', '#']) := fun hmem =>
    hfragment ((List.dropWhile_sublist _).mem hmem)
  have hnetloc : splitNetloc ('/' :: '/' :: body) = (body.takeWhile (· ∉ ['/', '?', '#']),
      body.dropWhile (· ∉ ['/', '?', '#'])) := if_pos ⟨body, rfl⟩
  unfold urlsplit
  rw [cleaned_of_visible hvisible]
  dsimp only
  rw [splitScheme_of_scheme hhead hall]
  dsimp only
  rw [hnetloc]
  dsimp only
  rw [partition_of_absent hfragment]

/-- A quoted path and a query after the two slashes. -/
theorem dropWhile_quote (text query : List Char) :
    (quote pathSafe text ++ '?' :: query).dropWhile (· ∉ ['/', '?', '#'])
      = (quote pathSafe text).dropWhile (· ∉ ['/', '?', '#']) ++ '?' :: query := by
  rw [List.dropWhile_append]
  split
  · rename_i hempty
    rw [List.isEmpty_iff.mp hempty]
    rfl
  · rfl

theorem partition_dropWhile_quote (text query : List Char) :
    partition '?' ((quote pathSafe text ++ '?' :: query).dropWhile (· ∉ ['/', '?', '#']))
      = ((quote pathSafe text).dropWhile (· ∉ ['/', '?', '#']), query) := by
  have hquery : '?' ∉ (quote pathSafe text).dropWhile (· ∉ ['/', '?', '#']) := by
    intro hmem
    obtain ⟨b, hb, hc⟩ := mem_quote ((List.dropWhile_sublist _).mem hmem)
    exact (pathByte_visible hb _ hc).2.1 (by decide)
  rw [dropWhile_quote, partition_of_not_mem hquery]

/-! ## Decoding twice -/

/-- A `%XX` somewhere in a text. -/
def hasEscape : List Char → Bool
  | [] => false
  | '%' :: a :: b :: rest =>
      ((hexValue a).isSome && (hexValue b).isSome) || hasEscape (a :: b :: rest)
  | _ :: rest => hasEscape rest

/-- A byte makes no more than one letter. -/
theorem decodeFrom_cons_length {n e : ℕ} {bs : List ℕ}
    (h : ∀ p, (decodeFrom p bs).length + e ≤ pendingLength p + n) (b : ℕ) (p : Option Pending) :
    (decodeFrom p (b :: bs)).length + e ≤ pendingLength p + (n + 1) := by
  rw [decodeFrom_cons, List.length_append]
  have hfeed := feed_potential p b
  have hrest := h (feed p b).2
  omega

theorem encodeChar_begins {c : Char} (hc : 0x80 ≤ c.toNat) :
    ∃ b bs, encodeChar c = b :: bs ∧ 0xC0 ≤ b := by
  unfold encodeChar
  dsimp only
  rw [if_neg (by omega)]
  split_ifs
  · exact ⟨_, _, rfl, by omega⟩
  · exact ⟨_, _, rfl, by omega⟩
  · exact ⟨_, _, rfl, by omega⟩

/-- The bytes of a letter make no more than one letter. -/
theorem decodeFrom_letter_length {n e : ℕ} {bs : List ℕ}
    (h : ∀ p, (decodeFrom p bs).length + e ≤ pendingLength p + n) (c : Char)
    (p : Option Pending) :
    (decodeFrom p (encodeChar c ++ bs)).length + e ≤ pendingLength p + (n + 1) := by
  by_cases hc : c.toNat < 0x80
  · have hchar : encodeChar c = [c.toNat] := if_pos hc
    rw [hchar, List.singleton_append]
    exact decodeFrom_cons_length h c.toNat p
  · obtain ⟨b, more, hletter, hb⟩ := encodeChar_begins (Nat.le_of_not_lt hc)
    have hrest := h none
    have hread := decodeFrom_encodeChar (Nat.le_of_not_lt hc) bs
    have hnone : pendingLength none = 0 := rfl
    rw [hletter, List.cons_append] at hread ⊢
    rw [decodeFrom_begin p hb, List.length_append, hread, List.length_cons]
    cases p with
    | none =>
        dsimp only [Option.isSome_none]
        simp only [Bool.false_eq_true, if_false, List.length_nil]
        omega
    | some q =>
        have hsome : pendingLength (some q) = 1 := rfl
        simp only [Option.isSome_some, if_true, List.length_singleton]
        omega

/-- A text with an escape is shorter after its decoding. Three letters become one byte. -/
theorem unquote_length (text : List Char) (p : Option Pending) :
    (decodeFrom p (unquoteBytes text)).length + (hasEscape text).toNat
      ≤ pendingLength p + text.length := by
  induction text using unquoteBytes.induct generalizing p with
  | case1 =>
      cases p with
      | none => exact Nat.le_refl 0
      | some q => exact Nat.le_refl 1
  | case2 a b rest high low hlow hhigh ih =>
      have hrest : ∀ q, (decodeFrom q (unquoteBytes rest)).length + 0
          ≤ pendingLength q + rest.length := fun q => by
        have := ih q
        omega
      have hbyte := decodeFrom_cons_length hrest (16 * high + low) p
      have hescape := Bool.toNat_le (hasEscape ('%' :: a :: b :: rest))
      rw [unquoteBytes, hhigh, hlow]
      simp only [List.length_cons]
      omega
  | case3 a b rest hnot ih =>
      have hescape : hasEscape ('%' :: a :: b :: rest) = hasEscape (a :: b :: rest) := by
        rw [hasEscape, Bool.or_eq_right_iff_imp]
        intro hboth
        obtain ⟨ha, hb⟩ := Bool.and_eq_true_iff.mp hboth
        obtain ⟨high, hhigh⟩ := Option.isSome_iff_exists.mp ha
        obtain ⟨low, hlow⟩ := Option.isSome_iff_exists.mp hb
        exact (hnot high low hhigh hlow).elim
      rw [hescape, List.length_cons]
      have hbytes : unquoteBytes ('%' :: a :: b :: rest) = 37 :: unquoteBytes (a :: b :: rest) := by
        rw [unquoteBytes]
        split
        · rename_i high low hhigh hlow
          exact (hnot high low hhigh hlow).elim
        · rfl
      rw [hbytes]
      exact decodeFrom_cons_length ih 37 p
  | case4 c rest hnot ih =>
      rw [unquoteBytes, hasEscape, List.length_cons]
      · exact decodeFrom_letter_length ih c p
      · exact hnot
      · exact hnot

theorem unquoteBytes_of_hasEscape {text : List Char} (h : hasEscape text = false) :
    unquoteBytes text = encode text := by
  induction text using unquoteBytes.induct with
  | case1 => rfl
  | case2 a b rest high low hlow hhigh ih =>
      rw [hasEscape, hhigh, hlow] at h
      cases h
  | case3 a b rest hnot ih =>
      have hrest : hasEscape (a :: b :: rest) = false := by
        rw [hasEscape] at h
        exact (Bool.or_eq_false_iff.mp h).2
      rw [unquoteBytes, ih hrest]
      split
      · rename_i high low hhigh hlow
        exact (hnot high low hhigh hlow).elim
      · rfl
  | case4 c rest hnot ih =>
      rw [hasEscape] at h
      · rw [unquoteBytes, ih h]
        · rfl
        · exact hnot
      · exact hnot

/-- A second decoding leaves the texts without an escape alone, and only these. -/
theorem unquote_eq_self_iff (text : List Char) :
    unquote text = text ↔ hasEscape text = false := by
  constructor
  · intro h
    have hlength := unquote_length text none
    have hsame : (decodeFrom none (unquoteBytes text)).length = text.length := by
      conv_rhs => rw [← h]
      rfl
    have hnone : pendingLength none = 0 := rfl
    rcases hescape : hasEscape text with - | -
    · rfl
    · rw [hescape, Bool.toNat_true] at hlength
      omega
  · intro h
    rw [unquote, unquoteBytes_of_hasEscape h, decode_encode]

end Urls
