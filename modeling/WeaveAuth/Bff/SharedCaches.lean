import WeaveAuth.Bff.CookieLines
import WeaveAuth.Bff.ProxyHeaders
import WeaveAuth.ForMathlib.CacheControl

/-!
# What a cache in front of bff may keep

`keep_out_of_shared_caches` cuts each value of `Cache-Control` at all of its commas, and reads only
values that are visible ASCII. A cache reads the directives of each line, whose quoted strings may
have commas and other bytes.

## Main results

* `directive_eq`: the two read a directive alike
* `exists_counts_iff`: what a line has for the one is what it has for the other, or misleads
* `kept_out_of_shared_caches`: what a cache reads afterwards

## What is compared

The directives of a cache are those of the grammar in `ForMathlib.CacheControl`, which knows nothing
of this code. A line that the code takes for settled and a cache does not has to be one of a few
kinds: one with bytes that are not visible ASCII, or one whose quoted string has a comma
(`Misleads`).

## What is left out

`Pragma`, `Expires` and the heuristics of caches without any directive: what matters is whether a
shared cache is told that it may not keep the response.
-/

namespace WeaveAuth

namespace Bff

open Utf8 (encode)
open CacheControl (Directive directives members readDirective)

/-! ### The directives that settle it -/

/-- The directive says whether a shared cache may store the response. -/
def Settles (d : Directive) : Prop :=
  toAsciiLowercase d.name ∈ ["public".toList, "s-maxage".toList, "no-store".toList] ∨
    toAsciiLowercase d.name = "private".toList ∧ d.argument = none

instance (d : Directive) : Decidable (Settles d) :=
  inferInstanceAs (Decidable (_ ∨ _ ∧ _))

/-- A cache finds one on the line. -/
def SettledOn (line : HeaderValue) : Prop := ∃ d ∈ directives (lineText line), Settles d

instance (line : HeaderValue) : Decidable (SettledOn line) :=
  inferInstanceAs (Decidable (∃ d ∈ directives (lineText line), Settles d))

/-- What `settled` looks for between two commas. -/
def counts (text : List Char) : Bool :=
  !((directive text).2 && eqIgnoreAsciiCase (directive text).1 "private".toList) &&
    sharedCacheDirectives.any fun known => eqIgnoreAsciiCase (directive text).1 known

theorem settled_eq_true {values : List HeaderValue} : settled values = true ↔
    ∃ line ∈ values, ∃ text, line.toStr = some text ∧ ∃ piece ∈ text.splitOn ',',
      counts piece = true := by
  simp only [settled, List.any_eq_true, List.mem_filter, List.mem_map, List.mem_flatMap,
    List.mem_filterMap, counts, Bool.and_eq_true]
  constructor
  · rintro ⟨_, ⟨⟨piece, ⟨text, ⟨line, hline, htext⟩, hpiece⟩, rfl⟩, hargument⟩, hknown⟩
    exact ⟨line, hline, text, htext, piece, hpiece, hargument, hknown⟩
  · rintro ⟨line, hline, text, htext, piece, hpiece, hargument, hknown⟩
    exact ⟨_, ⟨⟨piece, ⟨text, ⟨line, hline, htext⟩, hpiece⟩, rfl⟩, hargument⟩, hknown⟩

/-! ### The two readings -/

theorem isWhitespace_of_isBlank {c : Char} (h : CacheControl.isBlank c = true) :
    isWhitespace c = true ∧ c ≠ ',' ∧ c ≠ '=' := by
  simp only [CacheControl.isBlank, Bool.or_eq_true, decide_eq_true_eq] at h
  rcases h with rfl | rfl <;> decide

theorem isTchar_spec {c : Char} (h : CacheControl.isTchar c = true) :
    isWhitespace c = false ∧ c ≠ ',' ∧ c ≠ '=' := by
  obtain ⟨-, hequals, hspace, -⟩ := isTokenChar_spec h
  refine ⟨hspace, ?_, hequals⟩
  rintro rfl
  exact absurd h (by decide)

/-- **A directive is read alike**, as far as its first comma. -/
theorem directive_eq {member : List Char} {d : Directive} (h : readDirective member = some d) :
    directive (member.takeWhile (· ≠ ',')) = (d.name, d.argument.isSome) := by
  obtain ⟨before, after, hbefore, hname, hmember⟩ := CacheControl.eq_of_readDirective h
  have hspace : ∀ c ∈ before, isWhitespace c = true := fun c hc =>
    (isWhitespace_of_isBlank (hbefore c hc)).1
  have htext : ∀ c ∈ d.name, isWhitespace c = false := fun c hc => (isTchar_spec (hname c hc)).1
  have hstart : ∀ c ∈ before ++ d.name, c ≠ ',' ∧ c ≠ '=' := by
    intro c hc
    rcases List.mem_append.mp hc with hc | hc
    · exact (isWhitespace_of_isBlank (hbefore c hc)).2
    · exact (isTchar_spec (hname c hc)).2
  rcases hmember with ⟨hnone, hafter, rfl⟩ | ⟨argument, hsome, rfl⟩
  · have hall : ∀ c ∈ before ++ d.name ++ after, c ≠ ',' ∧ c ≠ '=' := by
      intro c hc
      rcases List.mem_append.mp hc with hc | hc
      · exact hstart c hc
      · exact (isWhitespace_of_isBlank (hafter c hc)).2
    have htake : (before ++ d.name ++ after).takeWhile (· ≠ ',') = before ++ d.name ++ after :=
      List.takeWhile_eq_self_iff.mpr fun c hc => decide_eq_true (hall c hc).1
    have hsplit : splitOnce '=' (before ++ d.name ++ after) = none :=
      if_neg fun hmem => (hall _ hmem).2 rfl
    rw [htake, directive, hsplit, hnone, trim_append hspace htext fun c hc =>
      (isWhitespace_of_isBlank (hafter c hc)).1]
    rfl
  · have htake : (before ++ d.name ++ '=' :: after).takeWhile (· ≠ ',') =
        before ++ d.name ++ '=' :: after.takeWhile (· ≠ ',') := by
      rw [List.takeWhile_append_of_pos fun c hc => decide_eq_true (hstart c hc).1,
        List.takeWhile_cons_of_pos (by decide)]
    have hname' : trim (before ++ d.name) = d.name := by
      rw [← List.append_nil (before ++ d.name)]
      exact trim_append hspace htext (by simp)
    rw [htake, directive, splitOnce_append fun hmem => (hstart _ hmem).2 rfl, hsome]
    dsimp only
    rw [hname']
    rfl

/-- What settles it for a cache counts, and the other way round. -/
theorem counts_eq_true {member : List Char} {d : Directive} (h : readDirective member = some d) :
    counts (member.takeWhile (· ≠ ',')) = true ↔ Settles d := by
  have hlower : ∀ known ∈ sharedCacheDirectives, toAsciiLowercase known = known := by
    decide
  have hother : "private".toList ∉
      ["public".toList, "s-maxage".toList, "no-store".toList] := by
    decide
  have hany : (sharedCacheDirectives.any fun known => eqIgnoreAsciiCase d.name known) = true ↔
      toAsciiLowercase d.name ∈ sharedCacheDirectives := by
    simp only [List.any_eq_true, eqIgnoreAsciiCase, beq_iff_eq]
    constructor
    · rintro ⟨known, hknown, heq⟩
      rwa [heq, hlower known hknown]
    · exact fun hmem => ⟨_, hmem, (hlower _ hmem).symm⟩
  have hmem : toAsciiLowercase d.name ∈ sharedCacheDirectives ↔
      toAsciiLowercase d.name = "private".toList ∨
        toAsciiLowercase d.name ∈ ["public".toList, "s-maxage".toList, "no-store".toList] := by
    simp only [sharedCacheDirectives, List.mem_cons, List.not_mem_nil, or_false]
    exact ⟨fun h => by rcases h with h | h | h | h <;> simp only [h, true_or, or_true],
      fun h => by rcases h with h | h | h | h <;> simp only [h, true_or, or_true]⟩
  have hprivate : eqIgnoreAsciiCase d.name "private".toList = true ↔
      toAsciiLowercase d.name = "private".toList := by
    rw [eqIgnoreAsciiCase, beq_iff_eq]
    exact hlower "private".toList (by decide) ▸ Iff.rfl
  have hargument : d.argument.isSome = true ↔ ¬ d.argument = none := by
    cases d.argument <;> simp
  rw [counts, directive_eq h, Settles, Bool.and_eq_true, Bool.not_eq_true', ← Bool.not_eq_true,
    Bool.and_eq_true, hprivate, hany, hmem, hargument]
  by_cases hname : toAsciiLowercase d.name = "private".toList
  · have hnone : toAsciiLowercase d.name ∉
        ["public".toList, "s-maxage".toList, "no-store".toList] := hname ▸ hother
    rw [iff_true_intro hname, iff_false_intro hnone]
    simp only [and_true, true_and, or_false, false_or, not_not]
  · rw [iff_false_intro hname]
    simp only [and_false, not_false_eq_true, true_and, false_or, false_and, or_false]

/-! ### What is kept out -/

/-- The text of a line has a part between two commas that counts, but is no directive of it: it is
in a quoted string, or of another shape. -/
def Misleads (text : List Char) : Prop :=
  ∃ piece ∈ text.splitOn ',', counts piece = true ∧
    (piece ∉ members text ∨ readDirective piece = none)

/-- **What counts on a line that can be read**: a directive that settles it, or what misleads. -/
theorem exists_counts_iff {line : HeaderValue} {text : List Char}
    (htext : line.toStr = some text) :
    (∃ piece ∈ text.splitOn ',', counts piece = true) ↔ SettledOn line ∨ Misleads text := by
  obtain ⟨rfl, -⟩ := toStr_eq_some htext
  constructor
  · rintro ⟨piece, hpiece, hcounts⟩
    by_cases hmember : piece ∈ members (lineText line)
    · cases hdirective : readDirective piece with
      | none => exact .inr ⟨piece, hpiece, hcounts, .inr hdirective⟩
      | some d =>
        have hcomma : piece.takeWhile (· ≠ ',') = piece :=
          List.takeWhile_eq_self_iff.mpr fun c hc => decide_eq_true fun heq =>
            Path.notMem_of_mem_splitOn hpiece (heq ▸ hc)
        refine .inl ⟨d, List.mem_filterMap.mpr ⟨piece, hmember, hdirective⟩, ?_⟩
        rw [← counts_eq_true hdirective, hcomma]
        exact hcounts
    · exact .inr ⟨piece, hpiece, hcounts, .inl hmember⟩
  · rintro (⟨d, hd, hsettles⟩ | ⟨piece, hpiece, hcounts, -⟩)
    · obtain ⟨member, hmember, hdirective⟩ := List.mem_filterMap.mp hd
      exact ⟨_, CacheControl.takeWhile_mem_splitOn hmember,
        (counts_eq_true hdirective).mpr hsettles⟩
    · exact ⟨piece, hpiece, hcounts⟩

theorem settled_iff {values : List HeaderValue} : settled values = true ↔
    ∃ line ∈ values, ∃ text, line.toStr = some text ∧ (SettledOn line ∨ Misleads text) := by
  rw [settled_eq_true]
  refine exists_congr fun line => and_congr_right fun _ => exists_congr fun text => ?_
  exact and_congr_right fun htext => exists_counts_iff htext

theorem settledOn_noStore : SettledOn noStore := by decide

theorem settledOn_privateOnly : SettledOn privateOnly := by decide

/-- Both values that are added can be read. -/
theorem settled_of_mem {values : List HeaderValue} {line : HeaderValue}
    (hline : line = noStore ∨ line = privateOnly) (hmem : line ∈ values) :
    settled values = true := by
  rcases hline with rfl | rfl
  · exact settled_iff.mpr ⟨_, hmem, "no-store".toList, by decide, .inl settledOn_noStore⟩
  · exact settled_iff.mpr ⟨_, hmem, "private".toList, by decide, .inl settledOn_privateOnly⟩

/-- What is done to the values. -/
theorem cacheControl_cases (headers : HeaderMap) :
    (settled (headers.getAll .cacheControl) = true ∧ keepOutOfSharedCaches headers = headers) ∨
      settled (headers.getAll .cacheControl) = false ∧
        ∃ line, (line = noStore ∨ line = privateOnly) ∧
          (keepOutOfSharedCaches headers).getAll .cacheControl =
            headers.getAll .cacheControl ++ [line] := by
  rw [keepOutOfSharedCaches]
  split_ifs with hnone hsettled
  · rw [Bool.not_eq_true', HeaderMap.containsKey_eq_false] at hnone
    rw [HeaderMap.getAll_insert, if_pos rfl, hnone]
    exact .inr ⟨rfl, noStore, .inl rfl, rfl⟩
  · rw [HeaderMap.getAll_append, if_pos rfl]
    exact .inr ⟨by simpa using hsettled, privateOnly, .inr rfl, rfl⟩
  · exact .inl ⟨by simpa using hsettled, rfl⟩

theorem settled_keepOutOfSharedCaches (headers : HeaderMap) :
    settled ((keepOutOfSharedCaches headers).getAll .cacheControl) = true := by
  obtain ⟨hsettled, heq⟩ | ⟨-, line, hline, heq⟩ := cacheControl_cases headers
  · rwa [heq]
  · rw [heq]
    exact settled_of_mem hline (by simp)

theorem keepOutOfSharedCaches_eq_self {headers : HeaderMap} :
    keepOutOfSharedCaches headers = headers ↔ settled (headers.getAll .cacheControl) = true := by
  constructor
  · intro heq
    rw [← heq]
    exact settled_keepOutOfSharedCaches headers
  · intro hsettled
    obtain ⟨-, heq⟩ | ⟨hnot, -⟩ := cacheControl_cases headers
    · exact heq
    · exact absurd hsettled (by simp [hnot])

/-- **What a cache reads afterwards.** Twice is once. Values with one of the directives on a line
that can be read stay as they are, and otherwise those alone that have a line that misleads. So a
cache finds one afterwards, unless there was none and a line misleads. -/
theorem kept_out_of_shared_caches (headers : HeaderMap) :
    keepOutOfSharedCaches (keepOutOfSharedCaches headers) = keepOutOfSharedCaches headers ∧
    (keepOutOfSharedCaches headers = headers ↔ ∃ line ∈ headers.getAll .cacheControl, ∃ text,
      line.toStr = some text ∧ (SettledOn line ∨ Misleads text)) ∧
    ((∃ line ∈ (keepOutOfSharedCaches headers).getAll .cacheControl, SettledOn line) ↔
      (∃ line ∈ headers.getAll .cacheControl, SettledOn line) ∨
        ∀ line ∈ headers.getAll .cacheControl, ∀ text, line.toStr = some text →
          ¬ Misleads text) := by
  refine ⟨keepOutOfSharedCaches_eq_self.mpr (settled_keepOutOfSharedCaches headers), ?_, ?_⟩
  · rw [keepOutOfSharedCaches_eq_self, settled_iff]
  · obtain ⟨hsettled, heq⟩ | ⟨hsettled, line, hline, heq⟩ := cacheControl_cases headers
    · rw [heq]
      refine ⟨.inl, ?_⟩
      rintro (hbefore | hnone)
      · exact hbefore
      · obtain ⟨line, hmem, text, htext, hon | hmisleads⟩ := settled_iff.mp hsettled
        · exact ⟨line, hmem, hon⟩
        · exact absurd hmisleads (hnone line hmem text htext)
    · refine iff_of_true ⟨line, by simp [heq], ?_⟩ (.inr fun line hmem text htext hmisleads => ?_)
      · rcases hline with rfl | rfl
        · exact settledOn_noStore
        · exact settledOn_privateOnly
      · rw [settled_iff.mpr ⟨line, hmem, text, htext, .inr hmisleads⟩] at hsettled
        exact Bool.noConfusion hsettled

/-- A `private` in a quoted string is no directive, and yet it is left alone; a line with a byte
that is not ASCII has its `public`, and gets a `private`. -/
theorem quoted_private_is_left :
    let quoted : HeaderValue := ⟨encode "no-cache=\"a, private, b\"".toList, by decide⟩
    let latin : HeaderValue := ⟨encode "public, x=".toList ++ [0x22, 0xE9, 0x22], by decide⟩
    let headers := (∅ : HeaderMap).append .cacheControl quoted
    let headers' := (∅ : HeaderMap).append .cacheControl latin
    (keepOutOfSharedCaches headers).getAll .cacheControl = [quoted] ∧ ¬ SettledOn quoted ∧
      (keepOutOfSharedCaches headers').getAll .cacheControl = [latin, privateOnly] ∧
      SettledOn latin := by
  decide

end Bff

end WeaveAuth
