import Mathlib.Data.List.Basic
import WeaveAuth.ForMathlib.Utf8

/-!
# Percent-encoding

`percentDecode` and `percentEncode` work on bytes, as the `percent_encoding` crate does; a `%` that
is not followed by two hexadecimal digits stands for itself. `decodeLossy` reads a text once
percent-decoded, with what is not UTF-8 replaced.

## Main results

* `percentDecode_encode_append`: what was encoded is decoded
* `decodeLossy_append_cons`: decoding a text leaves a plain character where it is, and the two
  sides of it are decoded on their own
* `decodeLossy_intercalate`: so decoding and splitting at such a character commute

## Implementation notes

The decoder never fails and is not injective; the encoder takes the set of bytes that it escapes, so
that one lemma serves every set. Which set a caller uses is the caller's: none is named here.
-/

namespace WeaveAuth

namespace Percent

open Utf8

/-- The value of a hexadecimal digit. -/
def hexDigit (b : ℕ) : Option ℕ :=
  if 0x30 ≤ b ∧ b ≤ 0x39 then some (b - 0x30)
  else if 0x41 ≤ b ∧ b ≤ 0x46 then some (b - 0x37)
  else if 0x61 ≤ b ∧ b ≤ 0x66 then some (b - 0x57)
  else none

/-- The hexadecimal digit of a value, in upper case. -/
def digit (n : ℕ) : ℕ := if n < 10 then 0x30 + n else 0x37 + n

/-- No two hexadecimal digits come first. -/
def NoEscape (bs : List ℕ) : Prop :=
  ∀ h l rest, bs = h :: l :: rest → hexDigit h = none ∨ hexDigit l = none

/-- `percent_decode`. -/
def percentDecode : List ℕ → List ℕ
  | [] => []
  | b :: bs =>
    if b = 0x25 then
      match bs with
      | h :: l :: rest =>
        match hexDigit h, hexDigit l with
        | some x, some y => (16 * x + y) :: percentDecode rest
        | _, _ => b :: percentDecode (h :: l :: rest)
      | rest => b :: percentDecode rest
    else b :: percentDecode bs

/-- `percent_encode`, of the bytes in a set. -/
def percentEncode (encoded : ℕ → Bool) (bs : List ℕ) : List ℕ :=
  bs.flatMap fun b => if encoded b then [0x25, digit (b / 16), digit (b % 16)] else [b]

@[simp] theorem percentDecode_nil : percentDecode [] = [] := rfl

theorem percentDecode_cons {b : ℕ} (hb : b ≠ 0x25) (bs : List ℕ) :
    percentDecode (b :: bs) = b :: percentDecode bs := by
  rw [percentDecode.eq_def]
  exact if_neg hb

theorem percentDecode_escape {h l x y : ℕ} (hx : hexDigit h = some x) (hy : hexDigit l = some y)
    (bs : List ℕ) : percentDecode (0x25 :: h :: l :: bs) = (16 * x + y) :: percentDecode bs := by
  simp [percentDecode, hx, hy]

/-- A `%` that begins no escape. -/
theorem percentDecode_percent {bs : List ℕ} (hbs : NoEscape bs) :
    percentDecode (0x25 :: bs) = 0x25 :: percentDecode bs := by
  match bs with
  | [] | [_] => simp [percentDecode]
  | h :: l :: bs =>
    rcases hbs h l bs rfl with hnone | hnone <;> simp [percentDecode, hnone]

theorem percentEncode_cons (encoded : ℕ → Bool) (b : ℕ) (bs : List ℕ) :
    percentEncode encoded (b :: bs) =
      (if encoded b then [0x25, digit (b / 16), digit (b % 16)] else [b]) ++
        percentEncode encoded bs := rfl

theorem hexDigit_digit {n : ℕ} (hn : n < 16) : hexDigit (digit n) = some n := by
  rw [digit, hexDigit]
  split_ifs
  all_goals first | omega | simp

/-- **What was encoded is decoded**, if every `%` was. -/
theorem percentDecode_encode_append {encoded : ℕ → Bool} {bs : List ℕ}
    (hpercent : 0x25 ∈ bs → encoded 0x25 = true) (hbs : ∀ b ∈ bs, b < 256) (rest : List ℕ) :
    percentDecode (percentEncode encoded bs ++ rest) = bs ++ percentDecode rest := by
  induction bs with
  | nil => rfl
  | cons b bs ih =>
    have hb := hbs b List.mem_cons_self
    have ih := ih (fun hmem => hpercent (List.mem_cons_of_mem _ hmem))
      fun b' hb' => hbs b' (List.mem_cons_of_mem _ hb')
    rw [percentEncode_cons, List.append_assoc]
    by_cases henc : encoded b = true
    · rw [if_pos henc]
      simp only [List.cons_append, List.nil_append]
      rw [percentDecode_escape (hexDigit_digit (by omega)) (hexDigit_digit (by omega)), ih]
      congr 1
      omega
    · rw [if_neg henc]
      have hne : b ≠ 0x25 := by
        rintro rfl
        exact henc (hpercent List.mem_cons_self)
      rw [List.cons_append, List.nil_append, percentDecode_cons hne, ih, List.cons_append]

/-! ### Plain bytes -/

/-- The byte is of no escape. -/
def IsPlain (b : ℕ) : Prop := b ≠ 0x25 ∧ hexDigit b = none

theorem isPlain_of_le {b : ℕ} (hb : 0x80 ≤ b) : IsPlain b := by
  refine ⟨by omega, ?_⟩
  rw [hexDigit, if_neg (by omega), if_neg (by omega), if_neg (by omega)]

theorem NoEscape.append_cons {as : List ℕ} (h : NoEscape as) {b : ℕ} (hb : IsPlain b)
    (bs : List ℕ) : NoEscape (as ++ b :: bs) := by
  match as with
  | [] => exact fun x y rest heq => Or.inl ((List.cons.inj heq).1 ▸ hb.2)
  | [a] => exact fun x y rest heq => Or.inr ((List.cons.inj (List.cons.inj heq).2).1 ▸ hb.2)
  | a :: a' :: as =>
    intro x y rest heq
    obtain ⟨rfl, hrest⟩ := List.cons.inj heq
    obtain ⟨rfl, -⟩ := List.cons.inj hrest
    exact h a a' as rfl

/-- **No escape reaches over a plain byte.** -/
theorem percentDecode_append_cons {b : ℕ} (hb : IsPlain b) (as bs : List ℕ) :
    percentDecode (as ++ b :: bs) = percentDecode as ++ b :: percentDecode bs := by
  fun_induction percentDecode as with
  | case1 => exact percentDecode_cons hb.1 bs
  | case2 h l rest x y hy hx ih =>
    simp only [List.cons_append]
    rw [percentDecode_escape hx hy, ih]
  | case3 h l rest hnone ih =>
    have hescape : NoEscape (h :: l :: rest) := by
      intro h' l' rest' heq
      obtain ⟨rfl, hrest⟩ := List.cons.inj heq
      obtain ⟨rfl, -⟩ := List.cons.inj hrest
      cases hx : hexDigit h with
      | none => exact Or.inl rfl
      | some x =>
        cases hy : hexDigit l with
        | none => exact Or.inr rfl
        | some y => exact (hnone x y hx hy).elim
    rw [List.cons_append, percentDecode_percent (hescape.append_cons hb bs), ih, List.cons_append]
  | case4 rest hshort ih =>
    have hescape : NoEscape rest := fun h l rest' heq => (hshort h l rest' heq).elim
    rw [List.cons_append, percentDecode_percent (hescape.append_cons hb bs), ih, List.cons_append]
  | case5 a as ha ih => rw [List.cons_append, percentDecode_cons ha, ih, List.cons_append]

theorem percentDecode_plain_append {bs : List ℕ} (hbs : ∀ b ∈ bs, IsPlain b) (rest : List ℕ) :
    percentDecode (bs ++ rest) = bs ++ percentDecode rest := by
  induction bs with
  | nil => rfl
  | cons b bs ih =>
    rw [List.cons_append, percentDecode_cons (hbs b List.mem_cons_self).1,
      ih fun b' hb' => hbs b' (List.mem_cons_of_mem _ hb'), List.cons_append]

/-! ### Texts -/

/-- `percent_decode_str(s).decode_utf8_lossy()`. -/
def decodeLossy (s : List Char) : List Char := lossy (percentDecode (encode s))

/-- The character is of no escape. -/
def IsPlainChar (c : Char) : Prop := c ≠ '%' ∧ hexDigit c.toNat = none

instance (c : Char) : Decidable (IsPlainChar c) := inferInstanceAs (Decidable (_ ∧ _))

theorem IsPlainChar.isPlain {c : Char} (hc : IsPlainChar c) {b : ℕ} (hb : b ∈ encodeChar c) :
    IsPlain b := by
  by_cases hascii : c.toNat < 0x80
  · rw [encodeChar_ascii hascii, List.mem_singleton] at hb
    subst hb
    refine ⟨fun h => hc.1 ?_, hc.2⟩
    rw [← Char.ofNat_toNat c, h]
  · exact isPlain_of_le (le_of_mem_encodeChar (Nat.le_of_not_lt hascii) hb)

theorem IsPlainChar.percentDecode {c : Char} (hc : IsPlainChar c) (as bs : List ℕ) :
    percentDecode (as ++ (encodeChar c ++ bs)) =
      percentDecode as ++ (encodeChar c ++ percentDecode bs) := by
  obtain ⟨b, bs', henc, -⟩ := encodeChar_cons c
  have hplain : ∀ b' ∈ b :: bs', IsPlain b' := fun b' hb' => hc.isPlain (henc ▸ hb')
  rw [henc, List.cons_append, percentDecode_append_cons (hplain b List.mem_cons_self),
    percentDecode_plain_append fun b' hb' => hplain b' (List.mem_cons_of_mem _ hb'),
    List.cons_append]

/-- **A plain character stays where it is**, and both sides of it are decoded on their own. -/
theorem decodeLossy_append_cons {c : Char} (hc : IsPlainChar c) (s s' : List Char) :
    decodeLossy (s ++ c :: s') = decodeLossy s ++ c :: decodeLossy s' := by
  rw [decodeLossy, encode_append, encode_cons, hc.percentDecode, lossy_append_encodeChar_append]
  rfl

theorem decodeLossy_cons {c : Char} (hc : IsPlainChar c) (s : List Char) :
    decodeLossy (c :: s) = c :: decodeLossy s :=
  decodeLossy_append_cons hc [] s

/-- **Decoding commutes with splitting** at a plain character. -/
theorem decodeLossy_intercalate {c : Char} (hc : IsPlainChar c) (segments : List (List Char)) :
    decodeLossy ([c].intercalate segments) = [c].intercalate (segments.map decodeLossy) := by
  induction segments with
  | nil => rfl
  | cons s segments ih =>
    cases segments with
    | nil => simp
    | cons s' segments =>
      rw [List.intercalate_cons_cons, List.append_assoc, List.singleton_append,
        decodeLossy_append_cons hc, ih]
      simp [List.intercalate_cons_cons]

end Percent

end WeaveAuth
