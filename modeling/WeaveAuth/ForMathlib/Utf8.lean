import Mathlib.Data.Nat.Notation
import Mathlib.Tactic.SplitIfs

/-!
# UTF-8, and decoding what is not

Bytes are natural numbers. `encode` is the encoding of a text. `lossy` decodes any bytes, as
`String::from_utf8_lossy` does: whatever is not UTF-8 is replaced, each maximal beginning of a
character by one U+FFFD. It is a machine that takes one byte at a time and keeps what has begun of
a character.

## Main results

* `lossy_append_cons`: a byte that continues no character is a boundary
* `lossy_encodeChar_append`: an encoded character is decoded, whatever comes after it
* `lossy_append_encodeChar_append`: and whatever came before

## Implementation notes

How many replacement characters an ill-formed sequence gives is part of the result, and follows the
standard's recommendation, as Rust does: one for each maximal part that could have begun a
character. So `begin` keeps the range that the next byte has to be in, which is narrower after some
first bytes.
-/

namespace WeaveAuth

namespace Utf8

/-- The UTF-8 encoding of a character. -/
def encodeChar (c : Char) : List ℕ := (String.utf8EncodeChar c).map UInt8.toNat

/-- The UTF-8 encoding of a text. -/
def encode (s : List Char) : List ℕ := s.flatMap encodeChar

/-- What stands for bytes that are not UTF-8. -/
def replacement : Char := '\uFFFD'

/-- What has begun of a character. -/
structure Begun where
  /-- The bits so far. -/
  bits : ℕ
  /-- How many bytes are missing after the next. -/
  missing : ℕ
  /-- The bounds of the next byte. -/
  low : ℕ
  high : ℕ
  le_low : 0x80 ≤ low
  high_le : high ≤ 0xBF

/-- A byte that begins a character, or none. -/
def begin (b : ℕ) : List Char × Option Begun :=
  if b < 0x80 then ([Char.ofNat b], none)
  else if 0xC2 ≤ b ∧ b ≤ 0xDF then
    ([], some ⟨b - 0xC0, 0, 0x80, 0xBF, Nat.le_refl _, Nat.le_refl _⟩)
  else if b = 0xE0 then ([], some ⟨0, 1, 0xA0, 0xBF, by decide, Nat.le_refl _⟩)
  else if b = 0xED then ([], some ⟨0xD, 1, 0x80, 0x9F, Nat.le_refl _, by decide⟩)
  else if 0xE1 ≤ b ∧ b ≤ 0xEF then
    ([], some ⟨b - 0xE0, 1, 0x80, 0xBF, Nat.le_refl _, Nat.le_refl _⟩)
  else if b = 0xF0 then ([], some ⟨0, 2, 0x90, 0xBF, by decide, Nat.le_refl _⟩)
  else if b = 0xF4 then ([], some ⟨4, 2, 0x80, 0x8F, Nat.le_refl _, by decide⟩)
  else if 0xF1 ≤ b ∧ b ≤ 0xF3 then
    ([], some ⟨b - 0xF0, 2, 0x80, 0xBF, Nat.le_refl _, Nat.le_refl _⟩)
  else ([replacement], none)

/-- One byte: the characters that are complete with it, and what has begun. -/
def feed : Option Begun → ℕ → List Char × Option Begun
  | none, b => begin b
  | some p, b =>
    if p.low ≤ b ∧ b ≤ p.high then
      match p.missing with
      | 0 => ([Char.ofNat (64 * p.bits + b % 64)], none)
      | n + 1 => ([], some ⟨64 * p.bits + b % 64, n, 0x80, 0xBF, Nat.le_refl _, Nat.le_refl _⟩)
    else (replacement :: (begin b).1, (begin b).2)

/-- The rest of the bytes, after what has begun. -/
def decodeFrom : Option Begun → List ℕ → List Char
  | none, [] => []
  | some _, [] => [replacement]
  | p, b :: bs => (feed p b).1 ++ decodeFrom (feed p b).2 bs

/-- `String::from_utf8_lossy`. -/
def lossy (bs : List ℕ) : List Char := decodeFrom none bs

@[simp] theorem lossy_nil : lossy [] = [] := rfl

@[simp] theorem encode_nil : encode [] = [] := rfl

@[simp] theorem encode_cons (c : Char) (s : List Char) :
    encode (c :: s) = encodeChar c ++ encode s := rfl

@[simp] theorem encode_append (s s' : List Char) : encode (s ++ s') = encode s ++ encode s' :=
  List.flatMap_append

/-! ### Boundaries -/

/-- The byte continues no character. -/
def IsBoundary (b : ℕ) : Prop := b < 0x80 ∨ 0xC0 ≤ b

/-- **What a boundary ends is decoded as if nothing came after it.** -/
theorem lossy_append_cons {b : ℕ} (hb : IsBoundary b) (bs as : List ℕ) :
    lossy (as ++ b :: bs) = lossy as ++ lossy (b :: bs) := by
  suffices h : ∀ p, decodeFrom p (as ++ b :: bs) = decodeFrom p as ++ lossy (b :: bs) from h none
  induction as with
  | nil =>
    intro p
    cases p with
    | none => rfl
    | some p =>
      have hlow := p.le_low
      have hhigh := p.high_le
      have hout : ¬(p.low ≤ b ∧ b ≤ p.high) := by
        rcases hb with hb | hb <;> omega
      simp [decodeFrom, lossy, feed, hout]
  | cons a as ih =>
    intro p
    cases p <;> simp only [List.cons_append, decodeFrom, ih, List.append_assoc]

/-! ### Encoded characters -/

/-- A character is a scalar value: no surrogate, and not too large. -/
theorem toNat_scalar (c : Char) : c.toNat < 0xD800 ∨ 0xDFFF < c.toNat ∧ c.toNat < 0x110000 :=
  c.valid

theorem encodeChar_eq (c : Char) : encodeChar c =
    if c.toNat < 0x80 then [c.toNat]
    else if c.toNat < 0x800 then [0xC0 + c.toNat / 64, 0x80 + c.toNat % 64]
    else if c.toNat < 0x10000 then
      [0xE0 + c.toNat / 4096, 0x80 + c.toNat / 64 % 64, 0x80 + c.toNat % 64]
    else [0xF0 + c.toNat / 262144, 0x80 + c.toNat / 4096 % 64, 0x80 + c.toNat / 64 % 64,
      0x80 + c.toNat % 64] := by
  have hscalar := toNat_scalar c
  have hval : c.val.toNat = c.toNat := rfl
  simp only [encodeChar, String.utf8EncodeChar, hval]
  generalize c.toNat = n at hscalar ⊢
  split_ifs <;> try omega
  all_goals
    simp only [List.map_cons, List.map_nil, UInt8.toNat_ofNat', List.cons.injEq, and_true]
    omega

theorem encodeChar_ascii {c : Char} (h : c.toNat < 0x80) : encodeChar c = [c.toNat] := by
  rw [encodeChar_eq, if_pos h]

theorem toNat_ofNat {b : ℕ} (hb : b < 0x80) : (Char.ofNat b).toNat = b := by
  have hvalid : b.isValidChar := Or.inl (by omega)
  rw [Char.ofNat, dif_pos hvalid]
  rfl

/-- An ASCII text is read back from its bytes. -/
theorem encode_map_ofNat {bs : List ℕ} (hbs : ∀ b ∈ bs, b < 0x80) :
    encode (bs.map Char.ofNat) = bs := by
  induction bs with
  | nil => rfl
  | cons b bs ih =>
    obtain ⟨hb, hbs⟩ := List.forall_mem_cons.mp hbs
    rw [List.map_cons, encode_cons, ih hbs, encodeChar_ascii (by rwa [toNat_ofNat hb]),
      toNat_ofNat hb]
    rfl

/-- The bytes of an ASCII text are its characters. -/
theorem encode_ascii {s : List Char} (hs : ∀ c ∈ s, c.toNat < 0x80) :
    encode s = s.map Char.toNat := by
  induction s with
  | nil => rfl
  | cons c s ih =>
    obtain ⟨hc, hs⟩ := List.forall_mem_cons.mp hs
    rw [encode_cons, ih hs, encodeChar_ascii hc]
    rfl

/-- The bytes of a character beyond ASCII are too. -/
theorem le_of_mem_encodeChar {c : Char} (h : 0x80 ≤ c.toNat) {b : ℕ} (hb : b ∈ encodeChar c) :
    0x80 ≤ b := by
  rw [encodeChar_eq, if_neg (by omega)] at hb
  split_ifs at hb <;> simp only [List.mem_cons, List.not_mem_nil, or_false] at hb <;> omega

/-- The first byte of a character continues none. -/
theorem encodeChar_cons (c : Char) : ∃ b bs, encodeChar c = b :: bs ∧ IsBoundary b := by
  rw [encodeChar_eq]
  split_ifs with h₁ h₂ h₃
  · exact ⟨_, _, rfl, Or.inl h₁⟩
  all_goals exact ⟨_, _, rfl, Or.inr (by omega)⟩

theorem lt_of_mem_encodeChar {c : Char} {b : ℕ} (hb : b ∈ encodeChar c) : b < 256 := by
  obtain ⟨byte, -, rfl⟩ := List.mem_map.mp hb
  exact byte.toNat_lt

theorem lt_of_mem_encode {s : List Char} {b : ℕ} (hb : b ∈ encode s) : b < 256 := by
  obtain ⟨c, -, hc⟩ := List.mem_flatMap.mp hb
  exact lt_of_mem_encodeChar hc

theorem lossy_cons (b : ℕ) (bs : List ℕ) :
    lossy (b :: bs) = (begin b).1 ++ decodeFrom (begin b).2 bs := rfl

/-- The last byte of a character. -/
theorem decodeFrom_last {p : Begun} {b : ℕ} (hmissing : p.missing = 0) (hb : p.low ≤ b ∧ b ≤ p.high)
    (bs : List ℕ) :
    decodeFrom (some p) (b :: bs) = Char.ofNat (64 * p.bits + b % 64) :: lossy bs := by
  simp [decodeFrom, feed, hb, hmissing, lossy]

/-- One in the middle of it. -/
theorem decodeFrom_more {p : Begun} {b n : ℕ} (hmissing : p.missing = n + 1)
    (hb : p.low ≤ b ∧ b ≤ p.high) (bs : List ℕ) :
    decodeFrom (some p) (b :: bs) =
      decodeFrom (some ⟨64 * p.bits + b % 64, n, 0x80, 0xBF, Nat.le_refl _, Nat.le_refl _⟩) bs := by
  simp [decodeFrom, feed, hb, hmissing]

theorem begin_two {b : ℕ} (hb : 0xC2 ≤ b ∧ b ≤ 0xDF) :
    begin b = ([], some ⟨b - 0xC0, 0, 0x80, 0xBF, Nat.le_refl _, Nat.le_refl _⟩) := by
  rw [begin, if_neg (by omega), if_pos hb]

/-- The second byte of three may be any that makes neither an overlong encoding nor a surrogate. -/
theorem begin_three (b d : ℕ) (hb : 0xE0 ≤ b ∧ b ≤ 0xEF) (hd : 0x80 ≤ d ∧ d ≤ 0xBF)
    (hshort : b = 0xE0 → 0xA0 ≤ d) (hsurrogate : b = 0xED → d ≤ 0x9F) :
    ∃ p : Begun, begin b = ([], some p) ∧ p.bits = b - 0xE0 ∧ p.missing = 1 ∧
      p.low ≤ d ∧ d ≤ p.high := by
  rw [begin, if_neg (by omega), if_neg (by omega)]
  split_ifs with h₁ h₂ h₃
  · subst h₁
    exact ⟨_, rfl, rfl, rfl, hshort rfl, hd.2⟩
  · subst h₂
    exact ⟨_, rfl, rfl, rfl, hd.1, hsurrogate rfl⟩
  · exact ⟨_, rfl, rfl, rfl, hd.1, hd.2⟩
  all_goals omega

/-- And that of four any that is neither overlong nor too large. -/
theorem begin_four (b d : ℕ) (hb : 0xF0 ≤ b ∧ b ≤ 0xF4) (hd : 0x80 ≤ d ∧ d ≤ 0xBF)
    (hshort : b = 0xF0 → 0x90 ≤ d) (hlarge : b = 0xF4 → d ≤ 0x8F) :
    ∃ p : Begun, begin b = ([], some p) ∧ p.bits = b - 0xF0 ∧ p.missing = 2 ∧
      p.low ≤ d ∧ d ≤ p.high := by
  rw [begin, if_neg (by omega), if_neg (by omega), if_neg (by omega), if_neg (by omega),
    if_neg (by omega)]
  split_ifs with h₁ h₂ h₃
  · subst h₁
    exact ⟨_, rfl, rfl, rfl, hshort rfl, hd.2⟩
  · subst h₂
    exact ⟨_, rfl, rfl, rfl, hd.1, hlarge rfl⟩
  · exact ⟨_, rfl, rfl, rfl, hd.1, hd.2⟩
  · omega

/-- **An encoded character is decoded.** -/
theorem lossy_encodeChar_append (c : Char) (bs : List ℕ) :
    lossy (encodeChar c ++ bs) = c :: lossy bs := by
  have hscalar := toNat_scalar c
  have hc := Char.ofNat_toNat c
  rw [encodeChar_eq]
  generalize c.toNat = n at hscalar hc ⊢
  split_ifs with h₁ h₂ h₃
  · rw [List.cons_append, lossy_cons, begin, if_pos h₁, hc]
    rfl
  · have hbits : 64 * (0xC0 + n / 64 - 0xC0) + (0x80 + n % 64) % 64 = n := by omega
    rw [List.cons_append, lossy_cons, begin_two (by omega), List.nil_append, List.cons_append,
      decodeFrom_last rfl ⟨by simp, by simp; omega⟩, hbits, hc, List.nil_append]
  · obtain ⟨p, hbegin, hlead, hmissing, hnext⟩ := begin_three (0xE0 + n / 4096)
      (0x80 + n / 64 % 64) (by omega) (by omega) (by omega) (by omega)
    have hbits : 64 * (64 * p.bits + (0x80 + n / 64 % 64) % 64) + (0x80 + n % 64) % 64 = n := by
      omega
    rw [List.cons_append, lossy_cons, hbegin, List.nil_append, List.cons_append,
      decodeFrom_more hmissing hnext, List.cons_append,
      decodeFrom_last rfl ⟨by simp, by simp; omega⟩, hbits, hc, List.nil_append]
  · obtain ⟨p, hbegin, hlead, hmissing, hnext⟩ := begin_four (0xF0 + n / 262144)
      (0x80 + n / 4096 % 64) (by omega) (by omega) (by omega) (by omega)
    have hbits : 64 * (64 * (64 * p.bits + (0x80 + n / 4096 % 64) % 64) +
        (0x80 + n / 64 % 64) % 64) + (0x80 + n % 64) % 64 = n := by omega
    rw [List.cons_append, lossy_cons, hbegin, List.nil_append, List.cons_append,
      decodeFrom_more hmissing hnext, List.cons_append,
      decodeFrom_more rfl ⟨by simp, by simp; omega⟩, List.cons_append,
      decodeFrom_last rfl ⟨by simp, by simp; omega⟩, hbits, hc, List.nil_append]

/-- **Whatever came before it.** -/
theorem lossy_append_encodeChar_append (c : Char) (as bs : List ℕ) :
    lossy (as ++ (encodeChar c ++ bs)) = lossy as ++ c :: lossy bs := by
  obtain ⟨b, bs', hc, hb⟩ := encodeChar_cons c
  rw [← lossy_encodeChar_append c bs, hc, List.cons_append, lossy_append_cons hb]

theorem lossy_encode_append (s : List Char) (bs : List ℕ) :
    lossy (encode s ++ bs) = s ++ lossy bs := by
  induction s with
  | nil => rfl
  | cons c s ih =>
    rw [encode_cons, List.append_assoc, lossy_encodeChar_append, ih, List.cons_append]

@[simp] theorem lossy_encode (s : List Char) : lossy (encode s) = s := by
  simpa using lossy_encode_append s []

/-- Two incomplete characters, and a byte that begins none. -/
example : lossy [0xE2, 0x82, 0x2F, 0xF0, 0x9F, 0xFF] =
    [replacement, '/', replacement, replacement] := by decide

end Utf8

end WeaveAuth
