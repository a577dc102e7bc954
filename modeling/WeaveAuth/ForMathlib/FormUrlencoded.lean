import WeaveAuth.ForMathlib.PercentEncoding

/-!
# Forms, URL-encoded

`application/x-www-form-urlencoded`, as the `form_urlencoded` crate reads and writes it: pairs of
texts, which `&` separates, with a `=` between a name and its value. A space is written as a plus;
what is neither a letter, a digit, nor one of `*-._` is percent-encoded.

## Main results

* `parse_serialize`: the pairs that were written are read
* `mem_serialize`: what characters are written

## Implementation notes

Reading is on bytes and total: an escape that is none stands for itself, and what is not UTF-8 is
replaced, so two different inputs may be read alike. Writing is on texts, and what it writes is
ASCII. `parse_serialize` is for every list of pairs, also with empty names and with names that
repeat.
-/

namespace WeaveAuth

namespace FormUrlencoded

open Utf8 Percent

/-- The byte is written as it is. -/
def unchanged (b : ℕ) : Bool :=
  b = 0x2A || b = 0x2D || b = 0x2E || b = 0x5F || (0x30 ≤ b && b ≤ 0x39) ||
    (0x41 ≤ b && b ≤ 0x5A) || (0x61 ≤ b && b ≤ 0x7A)

def serializeByte (b : ℕ) : List ℕ :=
  if unchanged b then [b]
  else if b = 0x20 then [0x2B]
  else [0x25, digit (b / 16), digit (b % 16)]

/-- `byte_serialize`. -/
def byteSerialize (bs : List ℕ) : List ℕ := bs.flatMap serializeByte

def serializePair (pair : List Char × List Char) : List ℕ :=
  byteSerialize (encode pair.1) ++ 0x3D :: byteSerialize (encode pair.2)

/-- The bytes that a `Serializer` has written when it is finished. -/
def serializeBytes (pairs : List (List Char × List Char)) : List ℕ :=
  [0x26].intercalate (pairs.map serializePair)

/-- The text of them. -/
def serialize (pairs : List (List Char × List Char)) : List Char :=
  (serializeBytes pairs).map Char.ofNat

def plusToSpace (b : ℕ) : ℕ := if b = 0x2B then 0x20 else b

def decode (bs : List ℕ) : List Char := lossy (percentDecode (bs.map plusToSpace))

/-- What comes before the first `=`, and what after it. -/
def parsePair (bs : List ℕ) : List Char × List Char :=
  (decode (bs.takeWhile (· ≠ 0x3D)), decode ((bs.dropWhile (· ≠ 0x3D)).drop 1))

/-- `parse`. -/
def parse (bs : List ℕ) : List (List Char × List Char) :=
  ((bs.splitOn 0x26).filter (· ≠ [])).map parsePair

/-! ### What is written -/

theorem unchanged_digit : ∀ n < 16, unchanged (digit n) = true := by decide

/-- A byte that is written is unchanged, a plus or a percent sign. -/
theorem mem_serializeByte {b d : ℕ} (hb : b < 256) (h : d ∈ serializeByte b) :
    unchanged d = true ∨ d = 0x2B ∨ d = 0x25 := by
  rw [serializeByte] at h
  split_ifs at h with hsame hspace
  · rw [List.mem_singleton.mp h]
    exact Or.inl hsame
  · exact Or.inr (Or.inl (List.mem_singleton.mp h))
  · simp only [List.mem_cons, List.not_mem_nil, or_false] at h
    rcases h with rfl | rfl | rfl
    · exact Or.inr (Or.inr rfl)
    · exact Or.inl (unchanged_digit _ (by omega))
    · exact Or.inl (unchanged_digit _ (by omega))

theorem mem_byteSerialize {s : List Char} {d : ℕ} (h : d ∈ byteSerialize (encode s)) :
    unchanged d = true ∨ d = 0x2B ∨ d = 0x25 := by
  obtain ⟨b, hb, hd⟩ := List.mem_flatMap.mp h
  exact mem_serializeByte (lt_of_mem_encode hb) hd

/-- No separator is written in a name or a value. -/
theorem separator_not_mem (s : List Char) :
    0x26 ∉ byteSerialize (encode s) ∧ 0x3D ∉ byteSerialize (encode s) := by
  constructor <;> intro h <;> rcases mem_byteSerialize h with hsame | heq | heq
  all_goals first | cases hsame | cases heq

/-- **What characters are written.** -/
theorem mem_serializeBytes {pairs : List (List Char × List Char)} {b : ℕ}
    (h : b ∈ serializeBytes pairs) :
    unchanged b = true ∨ b = 0x2B ∨ b = 0x25 ∨ b = 0x3D ∨ b = 0x26 := by
  induction pairs with
  | nil => cases h
  | cons pair pairs ih =>
    have hpair : b ∈ serializePair pair → unchanged b = true ∨ b = 0x2B ∨ b = 0x25 ∨ b = 0x3D := by
      intro h
      rcases List.mem_append.mp h with h | h
      · exact (mem_byteSerialize h).imp_right (Or.imp_right Or.inl)
      · rcases List.mem_cons.mp h with rfl | h
        · exact Or.inr (Or.inr (Or.inr rfl))
        · exact (mem_byteSerialize h).imp_right (Or.imp_right Or.inl)
    have hfirst : b ∈ serializePair pair →
        unchanged b = true ∨ b = 0x2B ∨ b = 0x25 ∨ b = 0x3D ∨ b = 0x26 := fun h =>
      (hpair h).imp_right (Or.imp_right (Or.imp_right Or.inl))
    cases pairs with
    | nil => exact hfirst (by simpa [serializeBytes] using h)
    | cons pair' pairs =>
      rw [serializeBytes, List.map_cons, List.intercalate_cons_of_ne_nil (by simp)] at h
      simp only [List.mem_append, List.mem_singleton] at h
      rcases h with (h | rfl) | h
      · exact hfirst h
      · simp
      · exact ih h

/-- All of it is ASCII. -/
theorem lt_of_mem_serializeBytes {pairs : List (List Char × List Char)} {b : ℕ}
    (hb : b ∈ serializeBytes pairs) : b < 0x80 := by
  have hunchanged : unchanged b = true → b < 0x80 := by
    simp only [unchanged, Bool.or_eq_true, Bool.and_eq_true, decide_eq_true_eq]
    omega
  rcases mem_serializeBytes hb with h | rfl | rfl | rfl | rfl
  · exact hunchanged h
  all_goals decide

/-- So its text has these bytes. -/
theorem encode_serialize (pairs : List (List Char × List Char)) :
    encode (serialize pairs) = serializeBytes pairs :=
  encode_map_ofNat fun _ hb => lt_of_mem_serializeBytes hb

theorem mem_serialize {pairs : List (List Char × List Char)} {c : Char} (h : c ∈ serialize pairs) :
    unchanged c.toNat = true ∨ c = '+' ∨ c = '%' ∨ c = '=' ∨ c = '&' := by
  obtain ⟨b, hb, rfl⟩ := List.mem_map.mp h
  rw [toNat_ofNat (lt_of_mem_serializeBytes hb)]
  rcases mem_serializeBytes hb with h | rfl | rfl | rfl | rfl
  · exact Or.inl h
  all_goals simp

/-- It is visible. -/
theorem visible_of_mem_serialize {pairs : List (List Char × List Char)} {c : Char}
    (h : c ∈ serialize pairs) : 0x20 ≤ c.toNat ∧ c.toNat < 0x7F := by
  rcases mem_serialize h with hsame | rfl | rfl | rfl | rfl
  · simp only [unchanged, Bool.or_eq_true, Bool.and_eq_true, decide_eq_true_eq] at hsame
    omega
  all_goals decide

/-! ### Reading what was written -/

theorem map_serializeByte {b : ℕ} (hb : b < 256) : (serializeByte b).map plusToSpace =
    if !unchanged b && b ≠ 0x20 then [0x25, digit (b / 16), digit (b % 16)] else [b] := by
  have hkept : ∀ d, unchanged d = true → plusToSpace d = d := by
    intro d hd
    refine if_neg ?_
    rintro rfl
    cases hd
  rw [serializeByte]
  by_cases hsame : unchanged b = true
  · simp [hsame, hkept]
  · by_cases hspace : b = 0x20
    · subst hspace
      rfl
    · have hhigh := hkept _ (unchanged_digit (b / 16) (by omega))
      have hlow := hkept _ (unchanged_digit (b % 16) (by omega))
      have hpercent : plusToSpace 0x25 = 0x25 := rfl
      simp [hsame, hspace, hhigh, hlow, hpercent]

/-- **A text that was written is read.** -/
theorem decode_byteSerialize (s : List Char) : decode (byteSerialize (encode s)) = s := by
  have hencoded : ∀ bs : List ℕ, (∀ b ∈ bs, b < 256) → (byteSerialize bs).map plusToSpace =
      percentEncode (fun b => !unchanged b && b ≠ 0x20) bs := by
    intro bs hbs
    rw [byteSerialize, List.map_flatMap]
    exact List.flatMap_congr fun b hb => map_serializeByte (hbs b hb)
  have hbytes : ∀ b ∈ encode s, b < 256 := fun b hb => lt_of_mem_encode hb
  have hdecode := @percentDecode_encode_append (fun b => !unchanged b && b ≠ 0x20) _ (fun _ => rfl)
    hbytes []
  rw [List.append_nil, percentDecode_nil, List.append_nil] at hdecode
  rw [decode, hencoded _ hbytes, hdecode, lossy_encode]

theorem parsePair_serializePair (pair : List Char × List Char) :
    parsePair (serializePair pair) = pair := by
  have hname : ∀ b ∈ byteSerialize (encode pair.1), decide (b ≠ 0x3D) = true := by
    intro b hb
    refine decide_eq_true ?_
    rintro rfl
    exact (separator_not_mem pair.1).2 hb
  rw [parsePair, serializePair, List.takeWhile_append_of_pos hname,
    List.dropWhile_append_of_pos hname]
  simp [decode_byteSerialize]

/-- **The pairs that were written are read.** -/
theorem parse_serialize (pairs : List (List Char × List Char)) :
    parse (encode (serialize pairs)) = pairs := by
  rw [encode_serialize, parse, serializeBytes]
  cases pairs with
  | nil => rfl
  | cons pair pairs =>
    have hseparated : ∀ l ∈ (pair :: pairs).map serializePair, 0x26 ∉ l := by
      intro l hl
      obtain ⟨⟨name, value⟩, -, rfl⟩ := List.mem_map.mp hl
      simp [serializePair, separator_not_mem]
    have hne : ∀ l ∈ (pair :: pairs).map serializePair, decide (l ≠ []) = true := by
      intro l hl
      obtain ⟨pair, -, rfl⟩ := List.mem_map.mp hl
      simp [serializePair]
    rw [List.splitOn_intercalate _ hseparated (by simp), List.filter_eq_self.mpr hne, List.map_map]
    exact (List.map_congr_left fun pair _ => parsePair_serializePair pair).trans (List.map_id _)

end FormUrlencoded

end WeaveAuth
