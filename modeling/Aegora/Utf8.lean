import Mathlib.Data.Nat.Notation
import Mathlib.Tactic.Common

/-!
# UTF-8

Letters as bytes, and bytes as letters. Decoding goes byte by byte: what it
has read of a letter is `Pending`, and where the next byte cannot go on with
it, the replacement character stands for what was read and the byte begins
anew (`errors="replace"`). Bytes are natural numbers below 256.

`decode_encodeChar` is the round trip of a letter, `feed_potential` bounds
how many letters some bytes can make.
-/

namespace Utf8

/-! ## Encoding -/

def encodeChar (c : Char) : List ℕ :=
  let n := c.toNat
  if n < 0x80 then [n]
  else if n < 0x800 then [0xC0 + n / 64, 0x80 + n % 64]
  else if n < 0x10000 then [0xE0 + n / 4096, 0x80 + n / 64 % 64, 0x80 + n % 64]
  else [0xF0 + n / 262144, 0x80 + n / 4096 % 64, 0x80 + n / 64 % 64, 0x80 + n % 64]

/-- `text.encode("utf-8")`. -/
def encode (text : List Char) : List ℕ := text.flatMap encodeChar

/-! ## Decoding -/

/-- The beginning of a letter: its bits so far, the bytes it still needs, and the range of the
next one. -/
structure Pending where
  bits : ℕ
  left : ℕ
  low : ℕ := 0x80
  high : ℕ := 0xBF
  high_lt : high < 0xC0 := by decide
deriving DecidableEq

def replacement : Char := Char.ofNat 0xFFFD

/-- What a byte above 127 begins. -/
def lead (b : ℕ) : Option Pending :=
  if b < 0xC2 then none
  else if b < 0xE0 then some { bits := b - 0xC0, left := 1 }
  else if b = 0xE0 then some { bits := 0, left := 2, low := 0xA0 }
  else if b = 0xED then some { bits := 0xD, left := 2, high := 0x9F }
  else if b < 0xF0 then some { bits := b - 0xE0, left := 2 }
  else if b = 0xF0 then some { bits := 0, left := 3, low := 0x90 }
  else if b = 0xF4 then some { bits := 4, left := 3, high := 0x8F }
  else if b < 0xF4 then some { bits := b - 0xF0, left := 3 }
  else none

/-- A byte where a letter begins: the letters it completes, and what it leaves pending. -/
def begin (b : ℕ) : List Char × Option Pending :=
  if b < 0x80 then ([Char.ofNat b], none)
  else match lead b with
    | some p => ([], some p)
    | none => ([replacement], none)

def feed : Option Pending → ℕ → List Char × Option Pending
  | none, b => begin b
  | some p, b =>
      if p.low ≤ b ∧ b ≤ p.high then
        if p.left = 1 then ([Char.ofNat (p.bits * 64 + (b - 0x80))], none)
        else ([], some { bits := p.bits * 64 + (b - 0x80), left := p.left - 1 })
      else (replacement :: (begin b).1, (begin b).2)

/-- The letters of some bytes after what is pending. -/
def decodeFrom : Option Pending → List ℕ → List Char
  | none, [] => []
  | some _, [] => [replacement]
  | p, b :: bs => (feed p b).1 ++ decodeFrom (feed p b).2 bs

/-- `data.decode("utf-8", errors="replace")`. -/
def decode (bytes : List ℕ) : List Char := decodeFrom none bytes

/-- The letters of some bytes after what is pending, unless one would have to be replaced. -/
def decodeStrictFrom : Option Pending → List ℕ → Option (List Char)
  | none, [] => some []
  | some _, [] => none
  | none, b :: bs =>
      if b < 0x80 then (decodeStrictFrom none bs).map (Char.ofNat b :: ·)
      else (lead b).bind fun p => decodeStrictFrom (some p) bs
  | some p, b :: bs =>
      if p.low ≤ b ∧ b ≤ p.high then
        if p.left = 1 then
          (decodeStrictFrom none bs).map (Char.ofNat (p.bits * 64 + (b - 0x80)) :: ·)
        else decodeStrictFrom (some { bits := p.bits * 64 + (b - 0x80), left := p.left - 1 }) bs
      else none

/-- `data.decode("utf-8")`; `none` is a `UnicodeDecodeError`. -/
def decodeStrict (bytes : List ℕ) : Option (List Char) := decodeStrictFrom none bytes

/-! ## The round trip -/

theorem decodeFrom_cons (p : Option Pending) (b : ℕ) (bs : List ℕ) :
    decodeFrom p (b :: bs) = (feed p b).1 ++ decodeFrom (feed p b).2 bs := by
  cases p <;> rfl

theorem decodeFrom_ascii {b : ℕ} (hb : b < 0x80) (bs : List ℕ) :
    decodeFrom none (b :: bs) = Char.ofNat b :: decodeFrom none bs := by
  rw [decodeFrom_cons]
  simp only [feed, begin, if_pos hb]
  rfl

theorem decodeFrom_lead {b : ℕ} {p : Pending} (hb : lead b = some p) (bs : List ℕ) :
    decodeFrom none (b :: bs) = decodeFrom (some p) bs := by
  have hlarge : ¬ b < 0x80 := by
    intro hsmall
    unfold lead at hb
    rw [if_pos (by omega)] at hb
    cases hb
  rw [decodeFrom_cons]
  simp only [feed, begin, if_neg hlarge, hb]
  rfl

/-- A byte that goes on with the letter. -/
theorem decodeFrom_next {p : Pending} {b : ℕ} (hrange : p.low ≤ b ∧ b ≤ p.high) (hleft : p.left ≠ 1)
    (bs : List ℕ) :
    decodeFrom (some p) (b :: bs)
      = decodeFrom (some { bits := p.bits * 64 + (b - 0x80), left := p.left - 1 }) bs := by
  rw [decodeFrom_cons]
  simp only [feed, if_pos hrange, if_neg hleft]
  rfl

/-- A byte that completes it. -/
theorem decodeFrom_last {p : Pending} {b : ℕ} (hrange : p.low ≤ b ∧ b ≤ p.high) (hleft : p.left = 1)
    (bs : List ℕ) :
    decodeFrom (some p) (b :: bs)
      = Char.ofNat (p.bits * 64 + (b - 0x80)) :: decodeFrom none bs := by
  rw [decodeFrom_cons]
  simp only [feed, if_pos hrange, if_pos hleft]
  rfl

/-- A byte that begins a letter ends what is pending. -/
theorem decodeFrom_begin (p : Option Pending) {b : ℕ} (hb : 0xC0 ≤ b) (bs : List ℕ) :
    decodeFrom p (b :: bs)
      = (if p.isSome then [replacement] else []) ++ decodeFrom none (b :: bs) := by
  cases p with
  | none => rfl
  | some q =>
      have hrange : ¬ (q.low ≤ b ∧ b ≤ q.high) := fun h => by
        have := q.high_lt
        omega
      rw [decodeFrom_cons, decodeFrom_cons none]
      simp only [feed, if_neg hrange]
      rfl

theorem toNat_range (c : Char) : c.toNat < 0xD800 ∨ (0xDFFF < c.toNat ∧ c.toNat < 0x110000) := by
  have hvalid := c.valid
  exact hvalid

/-- The first byte of three leaves room for the second. -/
theorem lead_three {n : ℕ} (hlow : 0x800 ≤ n) (hhigh : n < 0x10000)
    (hvalid : n < 0xD800 ∨ 0xDFFF < n) :
    ∃ p, lead (0xE0 + n / 4096) = some p ∧ p.bits = n / 4096 ∧ p.left = 2
      ∧ p.low ≤ 0x80 + n / 64 % 64 ∧ 0x80 + n / 64 % 64 ≤ p.high := by
  unfold lead
  rw [if_neg (by omega), if_neg (by omega)]
  split
  · exact ⟨_, rfl, by dsimp only; omega, rfl, by dsimp only; omega, by dsimp only; omega⟩
  split
  · exact ⟨_, rfl, by dsimp only; omega, rfl, by dsimp only; omega, by dsimp only; omega⟩
  · rw [if_pos (by omega)]
    exact ⟨_, rfl, by dsimp only; omega, rfl, by dsimp only; omega, by dsimp only; omega⟩

/-- The first byte of four. -/
theorem lead_four {n : ℕ} (hlow : 0x10000 ≤ n) (hhigh : n < 0x110000) :
    ∃ p, lead (0xF0 + n / 262144) = some p ∧ p.bits = n / 262144 ∧ p.left = 3
      ∧ p.low ≤ 0x80 + n / 4096 % 64 ∧ 0x80 + n / 4096 % 64 ≤ p.high := by
  unfold lead
  rw [if_neg (by omega), if_neg (by omega), if_neg (by omega), if_neg (by omega),
    if_neg (by omega)]
  split
  · exact ⟨_, rfl, by dsimp only; omega, rfl, by dsimp only; omega, by dsimp only; omega⟩
  split
  · exact ⟨_, rfl, by dsimp only; omega, rfl, by dsimp only; omega, by dsimp only; omega⟩
  · rw [if_pos (by omega)]
    exact ⟨_, rfl, by dsimp only; omega, rfl, by dsimp only; omega, by dsimp only; omega⟩

/-- A letter outside ASCII is read back. -/
theorem decodeFrom_encodeChar {c : Char} (hc : 0x80 ≤ c.toNat) (rest : List ℕ) :
    decodeFrom none (encodeChar c ++ rest) = c :: decodeFrom none rest := by
  have hrange := toNat_range c
  have hback : ∀ n, n = c.toNat → Char.ofNat n = c := fun n hn => hn ▸ Char.ofNat_toNat c
  unfold encodeChar
  dsimp only
  generalize c.toNat = n at *
  rw [if_neg (by omega)]
  split
  · have hlead : lead (0xC0 + n / 64) = some { bits := 0xC0 + n / 64 - 0xC0, left := 1 } := by
      unfold lead
      rw [if_neg (by omega), if_pos (by omega)]
    rw [List.cons_append, List.cons_append, decodeFrom_lead hlead,
      decodeFrom_last (by dsimp only; omega) rfl, hback _ (by dsimp only; omega)]
    rfl
  split
  · obtain ⟨p, hlead, hbits, hleft, hfits⟩ :=
      lead_three (n := n) (by omega) (by omega) (by omega)
    rw [List.cons_append, List.cons_append, List.cons_append, decodeFrom_lead hlead,
      decodeFrom_next hfits (by omega), decodeFrom_last (by dsimp only; omega)
        (by dsimp only; omega), hback _ (by dsimp only; omega)]
    rfl
  · obtain ⟨p, hlead, hbits, hleft, hfits⟩ := lead_four (n := n) (by omega) (by omega)
    rw [List.cons_append, List.cons_append, List.cons_append, List.cons_append,
      decodeFrom_lead hlead, decodeFrom_next hfits (by omega),
      decodeFrom_next (by dsimp only; omega) (by dsimp only; omega),
      decodeFrom_last (by dsimp only; omega) (by dsimp only; omega),
      hback _ (by dsimp only; omega)]
    rfl

theorem decode_encode (text : List Char) : decode (encode text) = text := by
  unfold decode encode
  induction text with
  | nil => rfl
  | cons c text ih =>
      rw [List.flatMap_cons]
      by_cases hc : c.toNat < 0x80
      · have hchar : encodeChar c = [c.toNat] := if_pos hc
        rw [hchar, List.singleton_append, decodeFrom_ascii hc, ih, Char.ofNat_toNat]
      · rw [decodeFrom_encodeChar (by omega), ih]

/-! ## How many letters bytes make -/

/-- What is pending will make one letter more. -/
def pendingLength (p : Option Pending) : ℕ := if p.isSome then 1 else 0

theorem begin_potential (b : ℕ) : (begin b).1.length + pendingLength (begin b).2 ≤ 1 := by
  unfold begin
  split
  · exact Nat.le_refl 1
  · split <;> exact Nat.le_refl 1

/-- A byte makes at most one letter. -/
theorem feed_potential (p : Option Pending) (b : ℕ) :
    (feed p b).1.length + pendingLength (feed p b).2 ≤ pendingLength p + 1 := by
  cases p with
  | none => exact Nat.le_trans (begin_potential b) (Nat.le_add_left 1 _)
  | some q =>
      unfold feed
      dsimp only
      have hbegin := begin_potential b
      have hpending : pendingLength (some q) = 1 := rfl
      split_ifs
      · simp [pendingLength]
      · simp [pendingLength]
      · rw [List.length_cons]
        dsimp only
        omega

end Utf8
