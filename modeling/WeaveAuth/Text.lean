import Mathlib.Data.List.DropRight

/-!
# Texts

What Rust's `str` does with a text, as a list of characters.

## Implementation notes

A text is its characters, and an index of a `str` is never needed: what the code cuts by bytes it
cuts at an ASCII character, where a list is cut too.
-/

namespace WeaveAuth

/-- `char::is_whitespace`: Unicode's `White_Space`. -/
def isWhitespace (c : Char) : Bool :=
  let n := c.toNat
  (0x09 ≤ n && n ≤ 0x0D) || n = 0x20 || n = 0x85 || n = 0xA0 || n = 0x1680 ||
    (0x2000 ≤ n && n ≤ 0x200A) || n = 0x2028 || n = 0x2029 || n = 0x202F || n = 0x205F || n = 0x3000

/-- `str::trim`. -/
def trim (s : List Char) : List Char := (s.dropWhile isWhitespace).rdropWhile isWhitespace

/-- `str::split_once` at a character. -/
def splitOnce (c : Char) (s : List Char) : Option (List Char × List Char) :=
  if c ∈ s then some (s.takeWhile (· ≠ c), (s.dropWhile (· ≠ c)).drop 1) else none

/-- `char::is_ascii`. -/
def isAscii (c : Char) : Bool := c.toNat < 0x80

/-- `str::to_ascii_lowercase`. -/
def toAsciiLowercase (s : List Char) : List Char := s.map Char.toLower

/-- `str::eq_ignore_ascii_case`. -/
def eqIgnoreAsciiCase (s s' : List Char) : Bool := toAsciiLowercase s == toAsciiLowercase s'

/-! ### Trimming and splitting -/

theorem trim_of_forall {s : List Char} (h : ∀ c ∈ s, isWhitespace c = false) : trim s = s := by
  have hfirst : s.dropWhile isWhitespace = s := by
    cases s with
    | nil => rfl
    | cons c s => rw [List.dropWhile_cons_of_neg (by simp [h c List.mem_cons_self])]
  rw [trim, hfirst, List.rdropWhile_eq_self_iff]
  intro hne
  simp [h _ (List.getLast_mem hne)]

/-- A text among white space, without any of its own. -/
theorem trim_append {before s after : List Char} (hbefore : ∀ c ∈ before, isWhitespace c = true)
    (hs : ∀ c ∈ s, isWhitespace c = false) (hafter : ∀ c ∈ after, isWhitespace c = true) :
    trim (before ++ s ++ after) = s := by
  have hend : (s ++ after).rdropWhile isWhitespace = s := by
    rw [List.rdropWhile, List.reverse_append, List.dropWhile_append_of_pos (by simpa using hafter),
      ← List.rdropWhile, List.rdropWhile_eq_self_iff]
    intro hne
    simp [hs _ (List.getLast_mem hne)]
  rw [trim, List.append_assoc, List.dropWhile_append_of_pos hbefore]
  cases s with
  | nil =>
    rw [List.nil_append, List.dropWhile_eq_nil_iff.mpr hafter]
    rfl
  | cons c s =>
    rw [List.cons_append, List.dropWhile_cons_of_neg (by simp [hs c List.mem_cons_self])]
    exact hend

theorem trim_cons {c : Char} (hc : isWhitespace c = true) (s : List Char) :
    trim (c :: s) = trim s := by
  rw [trim, trim, List.dropWhile_cons_of_pos hc]

/-- Nothing but blanks is trimmed. -/
theorem exists_trim (s : List Char) : ∃ before after,
    (∀ c ∈ before, isWhitespace c = true) ∧ s = before ++ trim s ++ after := by
  refine ⟨s.takeWhile isWhitespace, (s.dropWhile isWhitespace).rtakeWhile isWhitespace,
    fun c hc => List.mem_takeWhile_imp hc, ?_⟩
  rw [List.append_assoc, trim, List.rdropWhile_append_rtakeWhile, List.takeWhile_append_dropWhile]

theorem splitOnce_append {c : Char} {a : List Char} (ha : c ∉ a) (b : List Char) :
    splitOnce c (a ++ c :: b) = some (a, b) := by
  have hall : ∀ x ∈ a, decide (x ≠ c) = true := fun x hx => by
    simpa using fun heq : x = c => ha (heq ▸ hx)
  rw [splitOnce, if_pos (by simp), List.takeWhile_append_of_pos hall,
    List.dropWhile_append_of_pos hall, List.takeWhile_cons_of_neg (by simp),
    List.dropWhile_cons_of_neg (by simp), List.append_nil, List.drop_one, List.tail_cons]

theorem eq_of_splitOnce {c : Char} {s a b : List Char} (h : splitOnce c s = some (a, b)) :
    s = a ++ c :: b := by
  obtain ⟨hmem, h⟩ := Option.ite_none_right_eq_some.mp h
  obtain ⟨rfl, rfl⟩ := Prod.mk.inj (Option.some.inj h)
  have hne : s.dropWhile (· ≠ c) ≠ [] := fun hnil => by
    simpa using List.dropWhile_eq_nil_iff.mp hnil c hmem
  have hhead : (s.dropWhile (· ≠ c)).head hne = c := by
    simpa using List.head_dropWhile_not (· ≠ c) hne
  have hrest : s.dropWhile (· ≠ c) = c :: (s.dropWhile (· ≠ c)).drop 1 := by
    have hcons := List.cons_head_tail hne
    rw [hhead] at hcons
    rw [List.drop_one, hcons]
  calc s = s.takeWhile (· ≠ c) ++ s.dropWhile (· ≠ c) := (List.takeWhile_append_dropWhile).symm
    _ = s.takeWhile (· ≠ c) ++ c :: (s.dropWhile (· ≠ c)).drop 1 := congrArg _ hrest

/-- A check of a text, character by character. -/
theorem visible_of_all {text : List Char}
    (h : (text.all fun c => c == '\t' || 0x20 ≤ c.toNat && c.toNat < 0x7F) = true) :
    ∀ c ∈ text, c = '\t' ∨ 0x20 ≤ c.toNat ∧ c.toNat < 0x7F := by
  simpa only [List.all_eq_true, Bool.or_eq_true, Bool.and_eq_true, beq_iff_eq,
    decide_eq_true_eq] using h

/-! ### Numbers -/

theorem digit_of_mem_toString {n : ℕ} {c : Char} (hc : c ∈ (toString n).toList) :
    0x30 ≤ c.toNat ∧ c.toNat ≤ 0x39 := by
  rw [Nat.toString_eq_ofList_toDigits, String.toList_ofList] at hc
  exact Char.isDigit_iff_toNat.mp (Nat.isDigit_of_mem_toDigits (by decide) (by decide) hc)

theorem visible_of_mem_toString {n : ℤ} {c : Char} (hc : c ∈ (toString n).toList) :
    0x20 ≤ c.toNat ∧ c.toNat < 0x7F := by
  have hdigits : ∀ m : ℕ, c ∈ (toString m).toList → 0x20 ≤ c.toNat ∧ c.toNat < 0x7F := by
    intro m hm
    have := digit_of_mem_toString hm
    omega
  cases n with
  | ofNat m => exact hdigits m hc
  | negSucc m =>
    have hsign : toString (Int.negSucc m) = "-" ++ toString (m + 1) := rfl
    rw [hsign, String.toList_append, List.mem_append] at hc
    rcases hc with hc | hc
    · obtain rfl : c = '-' := by simpa using hc
      decide
    · exact hdigits _ hc

end WeaveAuth
