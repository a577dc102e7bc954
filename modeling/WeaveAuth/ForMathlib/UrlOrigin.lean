import WeaveAuth.ForMathlib.UrlReparse

/-!
# Origins

An origin is of a scheme, a host and a port, or opaque. A `blob` URL has the origin of the URL that
it has for a path. `asciiOrigin` says `null` of an opaque one, and a browser says so too.

## Main results

* `asciiOrigin_eq_iff`: what is written of an origin that is not opaque
* `isOriginText_of_asciiOrigin`: a text that is the origin of the URL it is
-/

namespace WeaveAuth

namespace Url

variable {rules : UrlRules} {url : Url}

/-- The origin of a scheme, a host and a port as it is written: without the default port. -/
def originText (scheme host : List Char) (port : Option ℕ) : List Char :=
  scheme ++ "://".toList ++ host ++ port.elim [] fun port => ':' :: (toString port).toList

/-- The URL's origin is not opaque, and written so. -/
inductive HasOrigin (rules : UrlRules) : Url → List Char → Prop
  | tuple {url : Url} {host : List Char} (hport : defaultPort url.scheme ≠ none)
      (hhost : url.host = some host) : HasOrigin rules url (originText url.scheme host url.port)
  | blob {url inner : Url} {origin : List Char} (hscheme : url.scheme = "blob".toList)
      (hinner : parse rules none url.pathText = some inner) (h : HasOrigin rules inner origin) :
      HasOrigin rules url origin

/-- The text is that of an origin. -/
def IsOriginText (text : List Char) : Prop :=
  ∃ scheme host port, defaultPort scheme ≠ none ∧ text = originText scheme host port

theorem HasOrigin.isOriginText {origin : List Char} (h : HasOrigin rules url origin) :
    IsOriginText origin := by
  induction h with
  | tuple hport hhost => exact ⟨_, _, _, hport, rfl⟩
  | blob _ _ _ ih => exact ih

theorem IsOriginText.ne_null {text : List Char} (h : IsOriginText text) :
    text ≠ "null".toList := by
  obtain ⟨scheme, host, port, -, rfl⟩ := h
  intro heq
  have hcolon : ':' ∈ "null".toList := by
    rw [← heq, originText]
    simp
  exact absurd hcolon (by decide)

theorem ne_blob_of_defaultPort {scheme : List Char} (h : defaultPort scheme ≠ none) :
    scheme ≠ "blob".toList := by
  rintro rfl
  exact h (by decide)

/-! ### Blob URLs -/

/-- How much there is to read before the origin is known. -/
def originDepth (url : Url) : ℕ := if url.scheme = "blob".toList then url.pathText.length else 0

theorem parse_none_nil : parse rules none [] = none := rfl

/-- The path of a `blob` URL, if it is a URL. -/
theorem isOpaqueUrl_of_blob {text : List Char} {inner : Url}
    (hurl : parse rules none text = some url) (hblob : url.scheme = "blob".toList)
    (hinner : parse rules none url.pathText = some inner) :
    ∃ scheme rest, splitScheme (clean text) = some (scheme, rest) ∧ IsOpaqueUrl url rest := by
  have hspecial : isSpecial url.scheme = false := by
    rw [hblob]
    decide
  rcases path_of_parse hurl hspecial (by simp) with ⟨parts, hpath⟩ | hpath'
  · rw [pathText, hpath] at hinner
    cases parts with
    | nil => cases hinner
    | cons part parts =>
      dsimp only at hinner
      rw [List.flatMap_cons, List.cons_append, parse_none_slash] at hinner
      cases hinner
  · exact hpath'

/-- **There is less to read of the URL in a `blob` URL.** -/
theorem originDepth_lt {text : List Char} {inner : Url} {origin : List Char}
    (hurl : parse rules none text = some url) (hblob : url.scheme = "blob".toList)
    (hinner : parse rules none url.pathText = some inner) (h : HasOrigin rules inner origin) :
    originDepth inner < originDepth url := by
  obtain ⟨_, rest, -, hpath'⟩ := isOpaqueUrl_of_blob hurl hblob hinner
  have hpos : 0 < url.pathText.length := by
    refine List.length_pos_iff.mpr fun hnil => ?_
    rw [hnil, parse_none_nil] at hinner
    cases hinner
  rw [originDepth, originDepth, if_pos hblob]
  split_ifs with hinnerBlob
  · cases h with
    | tuple hport _ => exact absurd hinnerBlob (ne_blob_of_defaultPort hport)
    | blob _ hinner' _ =>
      obtain ⟨_, rest', hscheme', hinnerPath⟩ := isOpaqueUrl_of_blob hinner hinnerBlob hinner'
      have hlt := hinnerPath.length_pathText_lt hscheme' fun c hc =>
        (hpath'.of_mem_pathText (mem_of_mem_cut hscheme' hc)).1
      exact hlt.trans_le (List.takeWhile_prefix _).length_le
  · exact hpos

/-! ### What is written -/

theorem asciiOriginWithin_of_hasOrigin {text origin : List Char} {n : ℕ}
    (hurl : parse rules none text = some url) (h : HasOrigin rules url origin)
    (hn : originDepth url < n) : asciiOriginWithin rules n url = origin := by
  induction h generalizing text n with
  | @tuple url host hport hhost =>
    obtain ⟨m, rfl⟩ := Nat.exists_eq_succ_of_ne_zero (Nat.ne_zero_of_lt hn)
    obtain ⟨port, hport'⟩ := Option.ne_none_iff_exists'.mp hport
    rw [asciiOriginWithin, if_neg (ne_blob_of_defaultPort hport), hport', hhost]
    rfl
  | @blob url inner origin hscheme hinner horigin ih =>
    obtain ⟨m, rfl⟩ := Nat.exists_eq_succ_of_ne_zero (Nat.ne_zero_of_lt hn)
    rw [asciiOriginWithin, if_pos hscheme, hinner]
    have hlt := originDepth_lt hurl hscheme hinner horigin
    exact ih hinner (by omega)

theorem hasOrigin_of_asciiOriginWithin {n : ℕ}
    (h : asciiOriginWithin rules n url ≠ "null".toList) :
    HasOrigin rules url (asciiOriginWithin rules n url) := by
  induction n generalizing url with
  | zero => exact absurd rfl h
  | succ n ih =>
    rw [asciiOriginWithin] at h ⊢
    split_ifs at h ⊢ with hblob
    · cases hinner : parse rules none url.pathText with
      | none =>
        rw [hinner] at h
        exact absurd rfl h
      | some inner =>
        rw [hinner] at h
        exact .blob hblob hinner (ih h)
    · split at h
      · next port host hport hhost =>
        exact .tuple (by rw [hport]; exact Option.some_ne_none _) hhost
      · exact absurd rfl h

/-- **An origin that is not opaque is written**, and an opaque one is `null`. -/
theorem asciiOrigin_eq_iff {text : List Char} (hurl : parse rules none text = some url) :
    (∀ origin, HasOrigin rules url origin ↔
      asciiOrigin rules url = origin ∧ origin ≠ "null".toList) := by
  intro origin
  constructor
  · intro h
    refine ⟨asciiOriginWithin_of_hasOrigin hurl h ?_, h.isOriginText.ne_null⟩
    rw [originDepth]
    split_ifs <;> omega
  · rintro ⟨rfl, hne⟩
    exact hasOrigin_of_asciiOriginWithin hne

/-- What is not the origin's text of any URL. -/
theorem parse_none_null : parse rules none "null".toList = none := by
  have hscheme : splitScheme (clean "null".toList) = none := by decide +kernel
  simp only [parse, hscheme]

/-- **A text that is the origin of the URL it is** is not `null`. -/
theorem isOriginText_of_asciiOrigin {text : List Char} (hurl : parse rules none text = some url)
    (h : asciiOrigin rules url = text) : IsOriginText text := by
  have hne : text ≠ "null".toList := by
    rintro rfl
    rw [parse_none_null] at hurl
    cases hurl
  exact ((asciiOrigin_eq_iff hurl text).mpr ⟨h, hne⟩).isOriginText

end Url

end WeaveAuth
