import WeaveAuth.Bff.LoginCookie

/-!
# The cookies of a request

A request may have several `Cookie` lines, with any bytes. `extract_cookie` reads the first of them,
and that only if it is visible ASCII.

## Main results

* `extractCookie_eq_sole`: what it finds on the first line
* `extractCookie_iff`: when that is what the whole request says

## Lines and texts

A `HeaderMap` keeps every line of a name with its bytes, and `get` gives the first. What a line says
is defined on its bytes, so that it is there for a line that `to_str` refuses too: on visible ASCII
the characters with the bytes' numbers are the characters of the text, blanks are its white space,
and the bytes of a value are those of its encoding. The value itself is percent-decoded, with
replacement characters for what is no UTF-8, on both sides.
-/

namespace WeaveAuth

namespace Bff

open Utf8 Percent

/-! ### The pairs of a line -/

/-- Blanks between the pairs. -/
def isBlank (c : Char) : Bool := c = ' ' || c = '\t'

/-- A line, each byte as the character with its number. -/
def lineText (line : HeaderValue) : List Char := line.bytes.map Char.ofNat

/-- The bytes of the value that a text gives for the cookie. -/
def bytesOf (name text : List Char) : Option (List ℕ) := do
  let (name', value) ← splitOnce '=' ((text.dropWhile isBlank).rdropWhile isBlank)
  if name'.map Char.toNat = encode name then some (value.map Char.toNat) else none

/-- The values that a line gives for the cookie, one for each pair of its name. -/
def valuesOn (name : List Char) (line : HeaderValue) : List (List ℕ) :=
  ((lineText line).splitOn ';').filterMap (bytesOf name)

/-- The value, if there is one only. -/
def sole : List (List ℕ) → Option (List Char)
  | [value] => some (lossy (percentDecode value))
  | _ => none

theorem sole_eq_none {values : List (List ℕ)} : sole values = none ↔ values.length ≠ 1 := by
  cases values with
  | nil => simp [sole]
  | cons value values => cases values <;> simp [sole]

/-- More values leave the sole one, or there is none. -/
theorem sole_append {values more : List (List ℕ)} : sole values = sole (values ++ more) ↔
    ((values ++ more).length = 1 ↔ values.length = 1) := by
  by_cases hone : values.length = 1
  · obtain ⟨value, rfl⟩ := List.length_eq_one_iff.mp hone
    cases more with
    | nil => simp
    | cons value' more =>
      rw [iff_true_right hone]
      exact iff_of_false (Option.some_ne_none _) (by simp)
  · rw [sole_eq_none.mpr hone, eq_comm, sole_eq_none]
    simp [hone]

/-! ### Lines that can be read -/

theorem toStr_eq_some {line : HeaderValue} {text : List Char} (h : line.toStr = some text) :
    text = lineText line ∧ ∀ c ∈ text, c = '\t' ∨ 0x20 ≤ c.toNat ∧ c.toNat < 0x7F := by
  obtain ⟨hall, htext⟩ := Option.ite_none_right_eq_some.mp h
  refine ⟨(Option.some.inj htext).symm, fun c hc => ?_⟩
  rw [← Option.some.inj htext] at hc
  obtain ⟨b, hb, rfl⟩ := List.mem_map.mp hc
  have hb := List.all_eq_true.mp hall b hb
  simp only [Bool.or_eq_true, Bool.and_eq_true, decide_eq_true_eq] at hb
  rcases hb with rfl | hb
  · exact .inl rfl
  · rw [toNat_ofNat (by omega)]
    exact .inr hb

/-- In visible ASCII, blanks are the white space. -/
theorem isBlank_eq {c : Char} (hc : c = '\t' ∨ 0x20 ≤ c.toNat ∧ c.toNat < 0x7F) :
    isBlank c = isWhitespace c := by
  rcases hc with rfl | hc
  · decide
  · have heq : ∀ d : Char, c = d ↔ c.toNat = d.toNat := fun d =>
      ⟨congrArg Char.toNat, fun h => Char.ext (UInt32.toNat_inj.mp h)⟩
    rw [Bool.eq_iff_iff]
    simp only [isBlank, isWhitespace, Bool.or_eq_true, Bool.and_eq_true, decide_eq_true_eq, heq,
      show ' '.toNat = 0x20 from rfl, show '\t'.toNat = 0x09 from rfl]
    omega

/-- In visible ASCII, trimming is trimming blanks. -/
theorem trimBlanks_eq {text : List Char}
    (h : ∀ c ∈ text, c = '\t' ∨ 0x20 ≤ c.toNat ∧ c.toNat < 0x7F) :
    (text.dropWhile isBlank).rdropWhile isBlank = trim text := by
  have hdrop : ∀ l : List Char, (∀ c ∈ l, c ∈ text) →
      l.dropWhile isBlank = l.dropWhile isWhitespace := by
    intro l hl
    induction l with
    | nil => rfl
    | cons c l ih =>
      obtain ⟨hc, hl⟩ := List.forall_mem_cons.mp hl
      rw [List.dropWhile_cons, List.dropWhile_cons, isBlank_eq (h c hc), ih hl]
  rw [trim, hdrop text fun c => id, List.rdropWhile, List.rdropWhile, hdrop]
  intro c hc
  exact (List.dropWhile_sublist _).mem (List.mem_reverse.mp hc)

theorem encode_injective {s s' : List Char} (h : encode s = encode s') : s = s' := by
  rw [← lossy_encode s, h, lossy_encode]

/-- On a line that can be read, the bytes of a value are those of its text. -/
theorem valueOf_eq {name text : List Char}
    (h : ∀ c ∈ text, c = '\t' ∨ 0x20 ≤ c.toNat ∧ c.toNat < 0x7F) :
    valueOf name text = (bytesOf name text).map fun value => lossy (percentDecode value) := by
  rw [valueOf, bytesOf, trimBlanks_eq h]
  cases hsplit : splitOnce '=' (trim text) with
  | none => rfl
  | some pair =>
    obtain ⟨name', value⟩ := pair
    have hmem : ∀ c ∈ name' ++ '=' :: value, c.toNat < 0x80 := by
      intro c hc
      rw [← eq_of_splitOnce hsplit] at hc
      obtain ⟨before, after, -, htext⟩ := exists_trim text
      have hc : c ∈ text := by
        rw [htext]
        exact List.mem_append_left _ (List.mem_append_right _ hc)
      rcases h c hc with rfl | hc
      · decide
      · omega
    have hname : name'.map Char.toNat = encode name' :=
      (encode_ascii fun c hc => hmem c (List.mem_append_left _ hc)).symm
    have hvalue : value.map Char.toNat = encode value :=
      (encode_ascii fun c hc => hmem c (List.mem_append_right _ (List.mem_cons_of_mem _ hc))).symm
    have hiff : encode name' = encode name ↔ name' = name :=
      ⟨encode_injective, congrArg encode⟩
    simp only [Option.bind_eq_bind, Option.bind_some, hname, hvalue, hiff]
    split_ifs
    · rfl
    · rfl

/-- Of a first line that can be read, `extract_cookie` gives the sole value. -/
theorem extractCookie_eq_sole {headers : HeaderMap} {name text : List Char} {line : HeaderValue}
    (hget : headers.get .cookie = some line) (htext : line.toStr = some text) :
    extractCookie headers name = sole (valuesOn name line) := by
  obtain ⟨rfl, hvisible⟩ := toStr_eq_some htext
  have hvalues : ((lineText line).splitOn ';').filterMap (valueOf name) =
      (valuesOn name line).map fun value => lossy (percentDecode value) := by
    rw [valuesOn, List.map_filterMap]
    refine List.filterMap_congr fun pair hpair => valueOf_eq fun c hc => ?_
    exact hvisible c (Path.mem_of_mem_splitOn hpair hc)
  rw [extractCookie_eq hget htext, hvalues]
  rcases valuesOn name line with _ | ⟨value, _ | ⟨value', values⟩⟩ <;> rfl

/-! ### The whole request -/

/-- The values that the request gives for the cookie, over all its lines. -/
def valuesOf (name : List Char) (headers : HeaderMap) : List (List ℕ) :=
  (headers.getAll .cookie).flatMap (valuesOn name)

/-- The first line can be read, and has one pair of the name. -/
def OnFirstLine (name : List Char) (headers : HeaderMap) : Prop :=
  ∃ line, headers.get .cookie = some line ∧ line.toStr ≠ none ∧ (valuesOn name line).length = 1

/-- Nothing is missed beyond a first line that can be read; or there is not exactly one pair of the
name, neither there nor over all lines. -/
def NothingBeyond (name : List Char) (headers : HeaderMap) : Prop :=
  (∃ line lines, headers.getAll .cookie = line :: lines ∧ line.toStr ≠ none ∧
    ∀ later ∈ lines, valuesOn name later = []) ∨
  ¬OnFirstLine name headers ∧ (valuesOf name headers).length ≠ 1

theorem eq_sole_iff (headers : HeaderMap) (name : List Char) :
    extractCookie headers name = sole (valuesOf name headers) ↔
      ((valuesOf name headers).length = 1 ↔ OnFirstLine name headers) := by
  rw [valuesOf, OnFirstLine, HeaderMap.get]
  cases hlines : headers.getAll .cookie with
  | nil =>
    have hnone : extractCookie headers name = none := by
      rw [extractCookie, HeaderMap.get, hlines]
      rfl
    rw [hnone]
    exact iff_of_true rfl (by simp)
  | cons line lines =>
    have hget : headers.get .cookie = some line := by rw [HeaderMap.get, hlines, List.head?_cons]
    rw [List.flatMap_cons, List.head?_cons]
    cases htext : line.toStr with
    | none =>
      have hnone : extractCookie headers name = none := by
        rw [extractCookie, hget]
        simp [htext]
      rw [hnone, eq_comm, sole_eq_none]
      simp [htext]
    | some text =>
      rw [extractCookie_eq_sole hget htext, sole_append]
      simp [htext]

theorem nothingBeyond_iff (headers : HeaderMap) (name : List Char) :
    NothingBeyond name headers ↔
      ((valuesOf name headers).length = 1 ↔ OnFirstLine name headers) := by
  constructor
  · rintro (⟨line, lines, hlines, htext, hrest⟩ | ⟨hfirst, hall⟩)
    · have hget : headers.get .cookie = some line := by
        rw [HeaderMap.get, hlines, List.head?_cons]
      have hvalues : valuesOf name headers = valuesOn name line := by
        rw [valuesOf, hlines, List.flatMap_cons, List.flatMap_eq_nil_iff.mpr hrest, List.append_nil]
      rw [hvalues]
      constructor
      · intro hone
        exact ⟨line, hget, htext, hone⟩
      · rintro ⟨line', hget', -, hone⟩
        rwa [Option.some.inj (hget.symm.trans hget')]
    · exact iff_of_false hall hfirst
  · intro h
    by_cases hfirst : OnFirstLine name headers
    · have hone := h.mpr hfirst
      obtain ⟨line, hget, htext, hline⟩ := hfirst
      obtain ⟨lines, hlines⟩ := List.head?_eq_some_iff.mp hget
      refine .inl ⟨line, lines, hlines, htext, fun later hlater => ?_⟩
      rw [valuesOf, hlines, List.flatMap_cons, List.length_append, hline] at hone
      have hnone : lines.flatMap (valuesOn name) = [] := List.eq_nil_of_length_eq_zero (by omega)
      exact List.flatMap_eq_nil_iff.mp hnone later hlater
    · exact .inr ⟨hfirst, fun hone => hfirst (h.mp hone)⟩

/-- **What the whole request says is found exactly if** no pair of the name stands beyond a first
line that can be read, or there is not exactly one either way. -/
theorem extractCookie_iff (headers : HeaderMap) (name : List Char) :
    extractCookie headers name = sole (valuesOf name headers) ↔ NothingBeyond name headers := by
  rw [eq_sole_iff, nothingBeyond_iff]

/-- A session on the second line is not found, and a second one there is not refused. -/
theorem second_line_is_not_read :
    let theme : HeaderValue := ⟨encode "theme=dark".toList, by decide⟩
    let planted : HeaderValue := ⟨encode "wa_session=planted".toList, by decide⟩
    let real : HeaderValue := ⟨encode "wa_session=real".toList, by decide⟩
    let headers := ((∅ : HeaderMap).append .cookie theme).append .cookie real
    let headers' := ((∅ : HeaderMap).append .cookie planted).append .cookie real
    extractCookie headers "wa_session".toList = none ∧
      sole (valuesOf "wa_session".toList headers) = some "real".toList ∧
      extractCookie headers' "wa_session".toList = some "planted".toList ∧
      (valuesOf "wa_session".toList headers').length = 2 := by
  decide +kernel

end Bff

end WeaveAuth
