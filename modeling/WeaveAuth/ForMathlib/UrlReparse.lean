import WeaveAuth.ForMathlib.Url

/-!
# Reading a URL's path again

The path and the query that the parser made, as they are written, parsed again as a relative URL.

## Main results

* `isSpecialUrl_of_parse`: what the parser makes of a special URL, each character in its place
* `parse_pathAndQuery`: a path that does not begin with two slashes is read back as it is
* `length_of_parse_slashes`: one that does is read back shorter
* `pathText_ne_of_parse`: one that no relative URL can be appended to is not read back

## Why it is not the same

A relative reference that begins with two slashes has a host, so a path whose first segment is empty
is not read back as a path. A base without segments takes no relative path. Those are the two
exceptions, and both are shown to be some. What is left out is `file` URLs and their drive letters.

## How the proofs go

Encoding keeps the escapes that are there (`KeepsEscapes`), so a text that has been encoded is
encoded to itself. A part of a path has no slash in it and is no dot segment (`IsPathPart`), so the
parts that are joined are the parts that are found again. `IsSpecialUrl` says both of a whole URL.
Each way through the parser has a lemma that it makes such a URL, and after that the parser's states
are not looked at again: what is parsed is a join of parts and a query.
-/

namespace WeaveAuth

namespace Url

open Percent Utf8

/-! ### Encoded texts -/

/-- A character of an escape. -/
def IsEscape (c : Char) : Prop := c = '%' ∨ ∃ n < 16, c = Char.ofNat (digit n)

theorem not_isEscape {c : Char} (hpercent : c ≠ '%')
    (hdigit : ∀ n < 16, c ≠ Char.ofNat (digit n)) : ¬ IsEscape c := by
  rintro (heq | ⟨n, hn, heq⟩)
  · exact hpercent heq
  · exact hdigit n hn heq

/-- The set has no characters of escapes. -/
structure KeepsEscapes (set : Char → Bool) : Prop where
  percent : set '%' = false
  digit : ∀ n < 16, set (Char.ofNat (digit n)) = false

theorem KeepsEscapes.eq_false {set : Char → Bool} (h : KeepsEscapes set) {c : Char}
    (hc : IsEscape c) : set c = false := by
  rcases hc with rfl | ⟨n, hn, rfl⟩
  · exact h.percent
  · exact h.digit n hn

theorem keepsEscapes_pathSet : KeepsEscapes pathSet := ⟨by decide, by decide⟩

theorem keepsEscapes_specialQuerySet : KeepsEscapes specialQuerySet := ⟨by decide, by decide⟩

theorem keepsEscapes_querySet : KeepsEscapes querySet := ⟨by decide, by decide⟩

theorem keepsEscapes_c0ControlSet : KeepsEscapes c0ControlSet := ⟨by decide, by decide⟩

/-- An encoded text has characters of the text and of escapes. -/
theorem of_mem_utf8PercentEncode {set : Char → Bool} {s : List Char} {c : Char}
    (h : c ∈ utf8PercentEncode set s) : c ∈ s ∧ set c = false ∨ IsEscape c := by
  obtain ⟨d, hd, hc⟩ := List.mem_flatMap.mp h
  rw [percentEncodeChar] at hc
  split_ifs at hc with hset
  · right
    obtain ⟨b, hb, rfl⟩ := List.mem_map.mp hc
    obtain ⟨e, he, hb⟩ := List.mem_flatMap.mp hb
    have hlt := lt_of_mem_encodeChar he
    simp only [if_true, List.mem_cons, List.not_mem_nil, or_false] at hb
    rcases hb with rfl | rfl | rfl
    · exact .inl rfl
    · exact .inr ⟨e / 16, by omega, rfl⟩
    · exact .inr ⟨e % 16, by omega, rfl⟩
  · obtain rfl := List.mem_singleton.mp hc
    exact .inl ⟨hd, by simpa using hset⟩

theorem KeepsEscapes.eq_false_of_mem {set : Char → Bool} (h : KeepsEscapes set) {s : List Char}
    {c : Char} (hc : c ∈ utf8PercentEncode set s) : set c = false := by
  rcases of_mem_utf8PercentEncode hc with ⟨-, hset⟩ | hescape
  · exact hset
  · exact h.eq_false hescape

/-- Where there is nothing to encode, nothing changes. -/
theorem utf8PercentEncode_eq_self {set : Char → Bool} {s : List Char}
    (h : ∀ c ∈ s, set c = false) : utf8PercentEncode set s = s := by
  induction s with
  | nil => rfl
  | cons c s ih =>
    obtain ⟨hc, hs⟩ := List.forall_mem_cons.mp h
    have hrest := ih hs
    rw [utf8PercentEncode] at hrest ⊢
    rw [List.flatMap_cons, hrest, percentEncodeChar, if_neg (by simp [hc]), List.singleton_append]

/-! ### The parts of a path -/

/-- A part as the parser writes it. -/
structure IsPathPart (part : List Char) : Prop where
  chars : ∀ c ∈ part, pathSet c = false ∧ c ≠ '/' ∧ c ≠ '\\'
  notHere : isSingleDot part = false
  notUp : isDoubleDot part = false

theorem isPathPart_nil : IsPathPart [] := ⟨by simp, by decide, by decide⟩

/-- The parts of a text, encoded. -/
theorem of_mem_segments {text part : List Char}
    (h : part ∈ (Path.segments (text.map fun c => if isSeparator true c then '/' else c)).map
      (utf8PercentEncode pathSet)) : ∀ c ∈ part, pathSet c = false ∧ c ≠ '/' ∧ c ≠ '\\' := by
  obtain ⟨s, hs, rfl⟩ := List.mem_map.mp h
  have hback : '\\' ∉ text.map fun c => if isSeparator true c then '/' else c := by
    intro hmem
    obtain ⟨d, -, hd⟩ := List.mem_map.mp hmem
    split_ifs at hd with hsep
    · exact absurd hd (by decide)
    · rw [hd] at hsep
      exact hsep rfl
  have hslash : ¬ IsEscape '/' := not_isEscape (by decide) (by decide)
  have hescape : ¬ IsEscape '\\' := not_isEscape (by decide) (by decide)
  intro c hc
  refine ⟨keepsEscapes_pathSet.eq_false_of_mem hc, ?_, ?_⟩
  · rintro rfl
    exact Path.slash_notMem_of_mem_segments hs
      ((of_mem_utf8PercentEncode hc).resolve_right hslash).1
  · rintro rfl
    exact hback (Path.mem_of_mem_segments hs
      ((of_mem_utf8PercentEncode hc).resolve_right hescape).1)

/-- What the parser makes of the parts of a text. -/
theorem isPathPart_parsePath {before : List (List Char)} {text : List Char}
    (hbefore : ∀ part ∈ before, IsPathPart part) :
    ∀ part ∈ parsePath true before text, IsPathPart part := by
  intro part hpart
  rcases List.mem_append.mp hpart with hmem | hmem
  · rcases Path.of_mem_resolveOnto hmem with hmem | ⟨hmem, hhere, hup⟩
    · exact hbefore part (List.mem_reverse.mp hmem)
    · exact ⟨of_mem_segments hmem, hhere, hup⟩
  · split_ifs at hmem
    · obtain rfl := List.mem_singleton.mp hmem
      exact isPathPart_nil
    · cases hmem

/-- A path has a last part, which may be empty. -/
theorem parsePath_ne_nil (special : Bool) (before : List (List Char)) (text : List Char) :
    parsePath special before text ≠ [] := by
  simp only [parsePath]
  generalize hparts : (Path.segments (text.map fun c =>
    if isSeparator special c then '/' else c)).map (utf8PercentEncode pathSet) = parts
  have hne : parts ≠ [] := by
    rw [← hparts]
    simpa using Path.segments_ne_nil _
  obtain ⟨first, last, rfl⟩ : ∃ first last, parts = first ++ [last] :=
    ⟨_, _, (List.dropLast_append_getLast hne).symm⟩
  rw [List.getLast?_concat, Option.any_some]
  split_ifs with hdots
  · simp
  · rw [Bool.not_eq_true, Bool.or_eq_false_iff] at hdots
    rw [Path.resolveOnto_concat hdots.1 hdots.2]
    simp

/-- **Parts are read back as they are.** -/
theorem parsePath_join {special : Bool} {parts : List (List Char)} (hne : parts ≠ [])
    (hparts : ∀ part ∈ parts, IsPathPart part) :
    parsePath special [] (Path.join parts) = parts := by
  have hslashes : ((Path.join parts).map fun c => if isSeparator special c then '/' else c) =
      Path.join parts := by
    refine (List.map_congr_left fun c hc => ?_).trans (List.map_id _)
    split_ifs with hsep
    · simp only [isSeparator, Bool.or_eq_true, Bool.and_eq_true, decide_eq_true_eq] at hsep
      rcases hsep with rfl | ⟨-, rfl⟩
      · rfl
      · rcases Path.mem_join hc with heq | ⟨part, hpart, hc⟩
        · exact absurd heq (by decide)
        · exact absurd rfl ((hparts part hpart).chars _ hc).2.2
    · rfl
  have hsegments : Path.segments (Path.join parts) = parts :=
    Path.segments_join (fun part hpart hc => ((hparts part hpart).chars _ hc).2.1 rfl) hne
  have hencoded : parts.map (utf8PercentEncode pathSet) = parts := by
    refine (List.map_congr_left fun part hpart => ?_).trans (List.map_id _)
    exact utf8PercentEncode_eq_self fun c hc => ((hparts part hpart).chars c hc).1
  have hlast : (parts.getLast?.any fun part => isSingleDot part || isDoubleDot part) = false := by
    cases hlast : parts.getLast? with
    | none => rfl
    | some part =>
      have hpart := hparts part (List.mem_of_getLast? hlast)
      rw [Option.any_some, hpart.notHere, hpart.notUp]
      rfl
  simp only [parsePath, hslashes, hsegments, hencoded]
  rw [Path.resolveOnto_eq fun part hpart =>
      ⟨(hparts part hpart).notHere, (hparts part hpart).notUp⟩,
    hlast]
  simp

/-! ### Special URLs -/

/-- A special URL as the parser writes it; `file` URLs are left open. -/
structure IsSpecialUrl (url : Url) : Prop where
  special : isSpecial url.scheme = true
  notFile : url.scheme ≠ "file".toList
  host : url.host ≠ none
  path : ∃ parts, url.path = .segments parts ∧ parts ≠ [] ∧ ∀ part ∈ parts, IsPathPart part
  query : ∀ query ∈ url.query, ∀ c ∈ query, specialQuerySet c = false

variable {rules : UrlRules} {base url : Url}

theorem of_encodedQuery {scheme : List Char} (hspecial : isSpecial scheme = true)
    {query : Option (List Char)} {text : List Char}
    (h : query.map (utf8PercentEncode
      (if isSpecial scheme then specialQuerySet else querySet)) = some text) :
    ∀ c ∈ text, specialQuerySet c = false := by
  rw [hspecial, if_pos rfl] at h
  obtain ⟨query', -, rfl⟩ := Option.map_eq_some_iff.mp h
  exact fun c hc => keepsEscapes_specialQuerySet.eq_false_of_mem hc

theorem isSpecialUrl_pathState {before : List (List Char)} (hspecial : isSpecial url.scheme = true)
    (hfile : url.scheme ≠ "file".toList) (hhost : url.host ≠ none)
    (hbefore : ∀ part ∈ before, IsPathPart part) (text : List Char) :
    IsSpecialUrl (pathState url before text) where
  special := hspecial
  notFile := hfile
  host := hhost
  path := by
    refine ⟨_, rfl, parsePath_ne_nil _ _ _, ?_⟩
    rw [hspecial]
    exact isPathPart_parsePath hbefore
  query query hquery := of_encodedQuery hspecial hquery

theorem isSpecialUrl_authority {scheme text : List Char} (hspecial : isSpecial scheme = true)
    (hfile : scheme ≠ "file".toList) (h : authority rules scheme text = some url) :
    IsSpecialUrl url := by
  simp only [authority] at h
  split_ifs at h
  split at h
  · obtain rfl := Option.some.inj h
    have hstate : ∀ (host : List Char) (port : Option ℕ) (username password text : List Char),
        IsSpecialUrl (pathState ⟨scheme, username, password, some host, port, .segments [], none,
          none⟩ [] text) := by
      intro host port username password text
      exact isSpecialUrl_pathState hspecial hfile (Option.some_ne_none host) (by simp) text
    rw [pathStart.eq_def]
    split
    · rw [if_pos hspecial]
      exact hstate ..
    · split_ifs
      · exact hstate ..
      · exact hstate ..
  · cases h

theorem isSpecialUrl_relative {text : List Char} (hbase : IsSpecialUrl base)
    (h : relative rules base text = some url) : IsSpecialUrl url := by
  obtain ⟨hspecial, hfile, hhost, ⟨parts, hpath, hne, hparts⟩, hquery⟩ := id hbase
  have hstate := fun {before : List (List Char)} (hbefore : ∀ part ∈ before, IsPathPart part)
    (text : List Char) => isSpecialUrl_pathState hspecial hfile hhost hbefore text
  rw [relative.eq_def] at h
  dsimp only at h
  split at h
  · obtain rfl := Option.some.inj h
    exact ⟨hspecial, hfile, hhost, ⟨parts, hpath, hne, hparts⟩, hquery⟩
  · next tail =>
    obtain rfl := Option.some.inj h
    have hstate' : IsSpecialUrl (pathState base [] ('?' :: tail)) := hstate (by simp) _
    exact ⟨hspecial, hfile, hhost, ⟨parts, hpath, hne, hparts⟩, hstate'.query⟩
  · obtain rfl := Option.some.inj h
    exact ⟨hspecial, hfile, hhost, ⟨parts, hpath, hne, hparts⟩, hquery⟩
  · split_ifs at h
    · obtain rfl := Option.some.inj h
      rw [hpath]
      exact hstate (fun part hpart => hparts part ((List.dropLast_sublist _).mem hpart)) _
    · split at h
      · obtain rfl := Option.some.inj h
        exact hstate (by simp) _
      · split_ifs at h
        · obtain rfl := Option.some.inj h
          exact hstate (by simp) _
        · exact isSpecialUrl_authority hspecial hfile h

theorem scheme_relative {text : List Char} (h : relative rules base text = some url) :
    url.scheme = base.scheme := by
  rw [relative.eq_def] at h
  dsimp only at h
  split at h
  · exact Option.some.inj h ▸ rfl
  · exact Option.some.inj h ▸ rfl
  · exact Option.some.inj h ▸ rfl
  · split at h
    · exact Option.some.inj h ▸ rfl
    · split at h
      · exact Option.some.inj h ▸ rfl
      · split at h
        · exact Option.some.inj h ▸ rfl
        · split at h
          · exact (authority_some h).1
          · exact (authority_some h).1

/-- **What the parser makes of a special URL**, each character in its place. -/
theorem isSpecialUrl_of_parse {base : Option Url} {input : List Char}
    (h : parse rules base input = some url) (hspecial : isSpecial url.scheme = true)
    (hfile : url.scheme ≠ "file".toList)
    (hbase : ∀ base' ∈ base, isSpecial base'.scheme = true → base'.scheme ≠ "file".toList →
      IsSpecialUrl base') : IsSpecialUrl url := by
  simp only [parse] at h
  split at h
  · next scheme rest _ =>
    split_ifs at h with hisFile hisSpecial
    · obtain ⟨url', -, rfl⟩ := Option.map_eq_some_iff.mp h
      exact absurd hisFile hfile
    · split at h
      · next base' hfilter =>
        obtain ⟨hbase', hsame⟩ := Option.filter_eq_some_iff.mp hfilter
        simp only [Bool.and_eq_true, decide_eq_true_eq] at hsame
        rw [← hsame.1] at hisSpecial hisFile
        exact isSpecialUrl_relative (hbase base' hbase' hisSpecial hisFile) h
      · exact isSpecialUrl_authority hisSpecial hisFile h
    · rw [scheme_notSpecial h] at hspecial
      exact absurd hspecial hisSpecial
  · cases h
  · next base' _ =>
    split at h
    · next text hpath =>
      split at h
      · obtain rfl := Option.some.inj h
        obtain ⟨parts, hsegments, -⟩ := (hbase base' rfl hspecial hfile).path
        rw [hpath] at hsegments
        cases hsegments
      · cases h
    · split_ifs at h with hisFile
      · obtain ⟨url', -, rfl⟩ := Option.map_eq_some_iff.mp h
        exact absurd hisFile hfile
      · have hscheme := scheme_relative h
        rw [hscheme] at hspecial
        exact isSpecialUrl_relative (hbase base' rfl hspecial hisFile) h

/-! ### The path and the query -/

def queryText (query : Option (List Char)) : List Char := query.elim [] ('?' :: ·)

/-- The path and the query as they are written. -/
def pathAndQuery (url : Url) : List Char := url.pathText ++ queryText url.query

def partsText (parts : List (List Char)) : List Char := parts.flatMap ('/' :: ·)

theorem partsText_cons (part : List Char) (parts : List (List Char)) :
    partsText (part :: parts) = '/' :: Path.join (part :: parts) := by
  induction parts generalizing part with
  | nil => simp [partsText, Path.join]
  | cons next parts ih =>
    have hrest := ih next
    rw [partsText] at hrest ⊢
    rw [List.flatMap_cons, hrest]
    simp [Path.join, List.intercalate_cons_cons]

theorem of_querySet {c : Char} (h : querySet c = false) : 0x20 < c.toNat ∧ c ≠ '#' := by
  constructor
  · by_contra hle
    have hset : querySet c = true := by
      simp only [querySet, c0ControlSet, List.mem_cons, Bool.or_eq_true, decide_eq_true_eq]
      omega
    rw [h] at hset
    cases hset
  · rintro rfl
    exact absurd h (by decide)

theorem IsPathPart.of_mem {part : List Char} (h : IsPathPart part) {c : Char} (hc : c ∈ part) :
    0x20 < c.toNat ∧ c ≠ '#' ∧ c ≠ '?' := by
  have hset := (h.chars c hc).1
  have hquery := of_querySet (Bool.or_eq_false_iff.mp hset).1
  refine ⟨hquery.1, hquery.2, ?_⟩
  rintro rfl
  exact absurd hset (by decide)

theorem of_mem_join {parts : List (List Char)} (hparts : ∀ part ∈ parts, IsPathPart part) {c : Char}
    (hc : c ∈ Path.join parts) : 0x20 < c.toNat ∧ c ≠ '#' ∧ c ≠ '?' := by
  rcases Path.mem_join hc with rfl | ⟨part, hpart, hc⟩
  · decide
  · exact (hparts part hpart).of_mem hc

theorem of_mem_queryText {query : Option (List Char)}
    (hquery : ∀ text ∈ query, ∀ c ∈ text, specialQuerySet c = false) {c : Char}
    (hc : c ∈ queryText query) : 0x20 < c.toNat ∧ c ≠ '#' := by
  cases query with
  | none => cases hc
  | some text =>
    rcases List.mem_cons.mp hc with rfl | hc
    · decide
    · exact of_querySet (Bool.or_eq_false_iff.mp (hquery text rfl c hc)).1

theorem cut_append {c : Char} {before after : List Char} (h : c ∉ before) :
    cut c (before ++ c :: after) = (before, some after) := by
  have hall : ∀ d ∈ before, decide (d ≠ c) = true := fun d hd =>
    decide_eq_true fun heq => h (heq ▸ hd)
  rw [cut, if_pos (by simp), List.takeWhile_append_of_pos hall, List.dropWhile_append_of_pos hall,
    List.takeWhile_cons_of_neg (by simp), List.dropWhile_cons_of_neg (by simp)]
  simp

/-- **The parts and the query are read back as they are.** -/
theorem pathState_join {parts : List (List Char)} {query : Option (List Char)}
    (hspecial : isSpecial url.scheme = true) (hne : parts ≠ [])
    (hparts : ∀ part ∈ parts, IsPathPart part)
    (hquery : ∀ text ∈ query, ∀ c ∈ text, specialQuerySet c = false) :
    pathState url [] (Path.join parts ++ queryText query) =
      { url with path := .segments parts, query := query, fragment := none } := by
  have hhash : '#' ∉ Path.join parts ++ queryText query := fun hmem => by
    rcases List.mem_append.mp hmem with hmem | hmem
    · exact (of_mem_join hparts hmem).2.1 rfl
    · exact (of_mem_queryText hquery hmem).2 rfl
  have hmark : '?' ∉ Path.join parts := fun hmem => (of_mem_join hparts hmem).2.2 rfl
  have hcut : cut '?' (Path.join parts ++ queryText query) = (Path.join parts, query) := by
    cases query with
    | none => rw [queryText, Option.elim_none, List.append_nil, cut_eq hmark]
    | some text => exact cut_append hmark
  have hencoded : query.map (utf8PercentEncode specialQuerySet) = query := by
    cases query with
    | none => rfl
    | some text => rw [Option.map_some, utf8PercentEncode_eq_self (hquery text rfl)]
  rw [pathState, cut_eq hhash]
  dsimp only
  rw [hcut]
  simp only [withEnd, hspecial, if_true, parsePath_join hne hparts, hencoded, Option.map_none]

/-- A URL without a scheme that begins with a slash. -/
theorem parse_slash_cons (hbase : IsSpecialUrl base) {rest : List Char}
    (hrest : ∀ c ∈ rest, 0x20 < c.toNat) :
    parse rules (some base) ('/' :: rest) = relative rules base ('/' :: rest) := by
  obtain ⟨parts, hpath, -⟩ := hbase.path
  have hvisible : ∀ c ∈ '/' :: rest, 0x20 < c.toNat :=
    List.forall_mem_cons.mpr ⟨by decide, hrest⟩
  have hscheme : splitScheme ('/' :: rest) = none := @splitScheme_eq_none [] rest (by simp)
  simp only [parse, clean_eq hvisible, hscheme, hpath]
  rw [if_neg hbase.notFile]

theorem relative_slash {rest : List Char}
    (h : ∀ c ∈ rest.head?, isSeparator (isSpecial base.scheme) c = false) :
    relative rules base ('/' :: rest) = some (pathState base [] rest) := by
  rw [relative.eq_def]
  dsimp only
  split
  · next heq => cases heq
  · next heq => exact absurd (List.cons.inj heq).1 (by decide)
  · next heq => exact absurd (List.cons.inj heq).1 (by decide)
  · next heq =>
    obtain ⟨rfl, rfl⟩ := List.cons.inj heq
    have hsep : isSeparator (isSpecial base.scheme) '/' = true := rfl
    rw [hsep]
    cases rest with
    | nil => rfl
    | cons c rest =>
      dsimp only
      rw [h c rfl]
      rfl

/-- Two slashes begin a host. -/
theorem relative_slashes (hspecial : isSpecial base.scheme = true) (rest : List Char) :
    relative rules base ('/' :: '/' :: rest) =
      authority rules base.scheme (rest.dropWhile (isSeparator true)) := by
  rw [relative.eq_def]
  dsimp only
  split
  · next heq => cases heq
  · next heq => exact absurd (List.cons.inj heq).1 (by decide)
  · next heq => exact absurd (List.cons.inj heq).1 (by decide)
  · next heq =>
    obtain ⟨rfl, rfl⟩ := List.cons.inj heq
    have hsep : isSeparator (isSpecial base.scheme) '/' = true := rfl
    dsimp only
    rw [hsep, hspecial]
    rfl

theorem IsSpecialUrl.pathText_eq (h : IsSpecialUrl url) : ∃ parts,
    url.path = .segments parts ∧ parts ≠ [] ∧ (∀ part ∈ parts, IsPathPart part) ∧
      url.pathText = '/' :: Path.join parts := by
  obtain ⟨parts, hpath, hne, hparts⟩ := h.path
  refine ⟨parts, hpath, hne, hparts, ?_⟩
  obtain ⟨first, rest, rfl⟩ := List.exists_cons_of_ne_nil hne
  rw [pathText, hpath]
  exact partsText_cons first rest

theorem of_mem_pathAndQuery {parts : List (List Char)} (hparts : ∀ part ∈ parts, IsPathPart part)
    (hurl : IsSpecialUrl url) : ∀ c ∈ Path.join parts ++ queryText url.query, 0x20 < c.toNat := by
  intro c hc
  rcases List.mem_append.mp hc with hc | hc
  · exact (of_mem_join hparts hc).1
  · exact (of_mem_queryText hurl.query hc).1

/-- **A path that does not begin with two slashes** is read back as it is, and so is the query. -/
theorem parse_pathAndQuery (hbase : IsSpecialUrl base) (hurl : IsSpecialUrl url)
    (h : ¬ "//".toList <+: url.pathText) :
    parse rules (some base) (pathAndQuery url) =
      some { base with path := url.path, query := url.query, fragment := none } := by
  obtain ⟨parts, hpath, hne, hparts, htext⟩ := hurl.pathText_eq
  have hhead : ∀ c ∈ (Path.join parts ++ queryText url.query).head?,
      isSeparator (isSpecial base.scheme) c = false := by
    intro c hc
    cases hjoin : Path.join parts with
    | nil =>
      rw [hjoin, List.nil_append] at hc
      cases hquery : url.query with
      | none => rw [hquery] at hc; cases hc
      | some text =>
        rw [hquery] at hc
        obtain rfl := Option.some.inj hc
        rw [hbase.special]
        decide
    | cons d rest =>
      rw [hjoin] at hc htext
      obtain rfl := Option.some.inj hc
      have hslash : d ≠ '/' := by
        rintro rfl
        exact h (htext ▸ ⟨rest, rfl⟩)
      have hback : d ≠ '\\' := by
        rintro rfl
        rcases Path.mem_join (hjoin ▸ List.mem_cons_self) with heq | ⟨part, hpart, hc⟩
        · exact absurd heq (by decide)
        · exact ((hparts part hpart).chars _ hc).2.2 rfl
      simp [isSeparator, hslash, hback]
  rw [pathAndQuery, htext, List.cons_append,
    parse_slash_cons hbase (of_mem_pathAndQuery hparts hurl),
    relative_slash hhead, pathState_join hbase.special hne hparts hurl.query, hpath]

/-! ### A path that begins with two slashes -/

theorem join_cons (part : List Char) (parts : List (List Char)) :
    Path.join (part :: parts) = part ++ partsText parts := by
  have hcons := partsText_cons part parts
  rw [partsText, List.flatMap_cons, List.cons_append] at hcons
  exact (List.cons.inj hcons).2.symm

/-- A separator or a question mark, if anything. -/
theorem head_partsText {parts : List (List Char)} {query : Option (List Char)} {c : Char}
    (h : c ∈ (partsText parts ++ queryText query).head?) : c = '/' ∨ c = '?' := by
  cases parts with
  | nil =>
    cases query with
    | none => cases h
    | some text => exact .inr (Option.some.inj h).symm
  | cons part parts => exact .inl (Option.some.inj h).symm

/-- What is left without the slashes at its beginning: only the query, or a part and what comes
after it. -/
theorem dropWhile_join {parts : List (List Char)} (hparts : ∀ part ∈ parts, IsPathPart part)
    (query : Option (List Char)) :
    (Path.join parts ++ queryText query).dropWhile (isSeparator true) = queryText query ∨
      ∃ part rest, (Path.join parts ++ queryText query).dropWhile (isSeparator true) =
          part ++ (partsText rest ++ queryText query) ∧
        IsPathPart part ∧ (∀ part ∈ rest, IsPathPart part) ∧
        (partsText rest).length ≤ (Path.join parts).length := by
  have hnone : (queryText query).dropWhile (isSeparator true) = queryText query := by
    cases query with
    | none => rfl
    | some text => exact List.dropWhile_cons_of_neg (by decide)
  induction parts with
  | nil => exact .inl hnone
  | cons part parts ih =>
    obtain ⟨hpart, hrest⟩ := List.forall_mem_cons.mp hparts
    rw [join_cons, List.append_assoc]
    cases part with
    | cons c part =>
      refine .inr ⟨c :: part, parts, ?_, hpart, hrest, ?_⟩
      · obtain ⟨-, hslash, hback⟩ := hpart.chars c List.mem_cons_self
        rw [List.cons_append, List.dropWhile_cons_of_neg (by simp [isSeparator, hslash, hback])]
      · rw [List.length_append]
        omega
    | nil =>
      rw [List.nil_append, List.nil_append]
      cases parts with
      | nil => exact .inl hnone
      | cons next parts =>
        rw [partsText_cons, List.cons_append, List.dropWhile_cons_of_pos rfl]
        rcases ih hrest with hquery | ⟨part, rest, htext, hpart, hrest, hlen⟩
        · exact .inl hquery
        · exact .inr ⟨part, rest, htext, hpart, hrest, hlen.trans (Nat.le_succ _)⟩

theorem authority_queryText {scheme : List Char} (hspecial : isSpecial scheme = true)
    (query : Option (List Char)) : authority rules scheme (queryText query) = none := by
  have hnone : (queryText query).takeWhile
      (fun c => !(isSeparator (isSpecial scheme) c || c = '?' || c = '#')) = [] := by
    cases query with
    | none => rfl
    | some text => exact List.takeWhile_cons_of_neg (by simp)
  simp only [authority, hnone]
  rw [if_pos ⟨rfl, .inl hspecial⟩]

/-- The path that comes after a host. -/
theorem authority_part {scheme part : List Char} {rest : List (List Char)}
    {query : Option (List Char)} (hpart : IsPathPart part)
    (h : authority rules scheme (part ++ (partsText rest ++ queryText query)) = some url) :
    ∃ url', url'.scheme = scheme ∧ url = pathStart url' (partsText rest ++ queryText query) := by
  have hdrop : (part ++ (partsText rest ++ queryText query)).dropWhile
      (fun c => !(isSeparator (isSpecial scheme) c || c = '?' || c = '#')) =
        partsText rest ++ queryText query := by
    rw [List.dropWhile_append_of_pos fun c hc => ?_]
    · cases hrest : partsText rest ++ queryText query with
      | nil => rfl
      | cons c text =>
        refine List.dropWhile_cons_of_neg ?_
        rcases head_partsText (hrest ▸ rfl : c ∈ (partsText rest ++ queryText query).head?)
          with rfl | rfl
        · simp [isSeparator]
        · simp
    · obtain ⟨-, hslash, hback⟩ := hpart.chars c hc
      obtain ⟨-, hhash, hmark⟩ := hpart.of_mem hc
      simp [isSeparator, hslash, hback, hhash, hmark]
  simp only [authority, hdrop] at h
  split_ifs at h
  split at h
  · exact ⟨_, rfl, (Option.some.inj h).symm⟩
  · cases h

theorem length_pathStart {rest : List (List Char)} {query : Option (List Char)}
    (hspecial : isSpecial url.scheme = true) (hrest : ∀ part ∈ rest, IsPathPart part)
    (hquery : ∀ text ∈ query, ∀ c ∈ text, specialQuerySet c = false) :
    (pathStart url (partsText rest ++ queryText query)).pathText.length ≤
      (partsText rest).length + 1 := by
  cases rest with
  | cons part rest =>
    have hstart : pathStart url (partsText (part :: rest) ++ queryText query) =
        pathState url [] (Path.join (part :: rest) ++ queryText query) := by
      rw [partsText_cons, List.cons_append, pathStart]
      rfl
    rw [hstart, pathState_join hspecial (List.cons_ne_nil _ _) hrest hquery]
    exact Nat.le_succ _
  | nil =>
    -- an empty path is written as a slash
    have hstart : pathStart url (partsText [] ++ queryText query) =
        pathState url [] (Path.join [[]] ++ queryText query) := by
      cases query with
      | none => rw [pathStart.eq_def]; exact if_pos hspecial
      | some text =>
        have hmark : isSeparator (isSpecial url.scheme) '?' = false := by
          rw [hspecial]
          decide
        rw [pathStart.eq_def]
        exact (if_neg (by rw [hmark]; decide)).trans (if_pos hspecial)
    rw [hstart, pathState_join hspecial (List.cons_ne_nil _ _)
      (by simpa using isPathPart_nil) hquery]
    exact Nat.le_refl _

/-- **A path that begins with two slashes** is not read back: what comes after them is taken for a
host, and the path, if there is a URL at all, is shorter. -/
theorem length_of_parse_slashes {url' : Url} (hbase : IsSpecialUrl base) (hurl : IsSpecialUrl url)
    (h : "//".toList <+: url.pathText)
    (hparse : parse rules (some base) (pathAndQuery url) = some url') :
    url'.pathText.length < url.pathText.length := by
  obtain ⟨parts, -, hne, hparts, htext⟩ := hurl.pathText_eq
  obtain ⟨first, rest, rfl⟩ := List.exists_cons_of_ne_nil hne
  have hvisible := of_mem_pathAndQuery hparts hurl
  obtain ⟨hfirst, hrest⟩ := List.forall_mem_cons.mp hparts
  -- the first part is empty, and there is another one
  obtain ⟨tail, htail⟩ := h
  rw [htext] at htail
  have hslash : '/' :: tail = first ++ partsText rest := by
    rw [← join_cons]
    exact (List.cons.inj htail).2
  cases first with
  | cons c first =>
    exact absurd (List.cons.inj hslash).1.symm (hfirst.chars c List.mem_cons_self).2.1
  | nil =>
    cases rest with
    | nil => cases hslash
    | cons next rest =>
      rw [pathAndQuery, htext, List.cons_append, parse_slash_cons hbase hvisible, join_cons,
        List.nil_append, partsText_cons, List.cons_append, relative_slashes hbase.special] at hparse
      have hlen : url.pathText.length = (Path.join (next :: rest)).length + 2 := by
        rw [htext, join_cons, List.nil_append, partsText_cons]
        rfl
      rcases dropWhile_join hrest url.query with
        hdrop | ⟨part, rest', hdrop, hpart, hrest', hle⟩
      · rw [hdrop, authority_queryText hbase.special] at hparse
        cases hparse
      · rw [hdrop] at hparse
        obtain ⟨url'', hscheme, rfl⟩ := authority_part hpart hparse
        have hpath := length_pathStart (hscheme ▸ hbase.special : isSpecial url''.scheme = true)
          hrest' hurl.query
        omega

/-! ### A path that no relative URL can be appended to -/

theorem path_authority {scheme text : List Char} (h : authority rules scheme text = some url) :
    ∃ parts, url.path = .segments parts := by
  simp only [authority] at h
  split_ifs at h
  split at h
  · obtain rfl := Option.some.inj h
    rw [pathStart.eq_def]
    split
    · split_ifs <;> exact ⟨_, rfl⟩
    · split_ifs <;> exact ⟨_, rfl⟩
  · cases h

/-- What comes after the scheme is the URL's path, and it has no segments. -/
def IsOpaqueUrl (url : Url) (rest : List Char) : Prop :=
  url.path = .cannotBeABase (utf8PercentEncode c0ControlSet (cut '?' (cut '#' rest).1).1) ∧
    ∀ query ∈ url.query, ∀ c ∈ query, c0ControlSet c = false

theorem path_notSpecial {scheme text : List Char} (hspecial : isSpecial scheme = false)
    (h : notSpecial rules scheme text = some url) :
    (∃ parts, url.path = .segments parts) ∨ IsOpaqueUrl url text := by
  rw [notSpecial.eq_def] at h
  dsimp only at h
  split at h
  · exact .inl (path_authority h)
  · obtain rfl := Option.some.inj h
    exact .inl ⟨_, rfl⟩
  · obtain rfl := Option.some.inj h
    refine .inr ⟨rfl, fun query hquery c hc => ?_⟩
    obtain ⟨query', -, rfl⟩ := Option.map_eq_some_iff.mp hquery
    rw [hspecial, if_neg Bool.false_ne_true] at hc
    exact (Bool.or_eq_false_iff.mp (keepsEscapes_querySet.eq_false_of_mem hc)).1

/-- The path of a URL that is not special. -/
theorem path_of_parse {base : Option Url} {input : List Char}
    (h : parse rules base input = some url) (hspecial : isSpecial url.scheme = false)
    (hbase : ∀ base' ∈ base, IsSpecialUrl base') :
    (∃ parts, url.path = .segments parts) ∨ ∃ scheme rest,
      splitScheme (clean input) = some (scheme, rest) ∧ IsOpaqueUrl url rest := by
  have hrelative : ∀ base' ∈ base, ∀ text, relative rules base' text ≠ some url := by
    intro base' hmem text hrelative
    rw [scheme_relative hrelative, (hbase base' hmem).special] at hspecial
    cases hspecial
  simp only [parse] at h
  split at h
  · next scheme rest hscheme =>
    split_ifs at h with hisFile hisSpecial
    · obtain ⟨url', -, rfl⟩ := Option.map_eq_some_iff.mp h
      have hfile : isSpecial "file".toList = true := by decide
      rw [← hisFile] at hfile
      exact Bool.noConfusion (hspecial.symm.trans hfile)
    · split at h
      · next base' hfilter =>
        exact absurd h (hrelative base' (Option.filter_eq_some_iff.mp hfilter).1 _)
      · rw [(authority_some h).1, hisSpecial] at hspecial
        cases hspecial
    · exact (path_notSpecial (eq_false_of_ne_true hisSpecial) h).imp_right fun hpath =>
        ⟨scheme, rest, hscheme, hpath⟩
  · cases h
  · next base' _ =>
    obtain ⟨parts, hpath, -⟩ := (hbase base' rfl).path
    rw [hpath] at h
    dsimp only at h
    rw [if_neg (hbase base' rfl).notFile] at h
    exact absurd h (hrelative base' rfl _)

/-- The part of a text before its query. -/
def beforeQuery (text : List Char) : List Char := text.takeWhile (· ≠ '?')

theorem beforeQuery_append {before : List Char} (h : '?' ∉ before) (after : List Char) :
    beforeQuery (before ++ after) = before ++ beforeQuery after :=
  List.takeWhile_append_of_pos fun _ hc => decide_eq_true fun heq => h (heq ▸ hc)

theorem notMem_takeWhile {p : Char → Bool} {c : Char} (h : p c = false) (text : List Char) :
    c ∉ text.takeWhile p := by
  intro hmem
  rw [List.mem_takeWhile_imp hmem] at h
  cases h

theorem length_beforeQuery_le {text text' : List Char} (h : text' <+: text) :
    (beforeQuery text').length ≤ (beforeQuery text).length := by
  obtain ⟨after, rfl⟩ := h
  rw [beforeQuery, beforeQuery, List.takeWhile_append]
  split_ifs
  · rw [List.length_append]
    omega
  · exact Nat.le_refl _

theorem length_beforeQuery_dropWhile (text : List Char) :
    (beforeQuery (text.dropWhile isC0OrSpace)).length ≤ (beforeQuery text).length := by
  calc (beforeQuery (text.dropWhile isC0OrSpace)).length
      ≤ (text.takeWhile isC0OrSpace ++ beforeQuery (text.dropWhile isC0OrSpace)).length := by
        rw [List.length_append]
        exact Nat.le_add_left _ _
    _ = (beforeQuery text).length := by
        rw [← beforeQuery_append (notMem_takeWhile (by decide) text),
          List.takeWhile_append_dropWhile]

theorem length_beforeQuery_filter (text : List Char) :
    (beforeQuery (text.filter fun c => !isTabOrNewline c)).length ≤ (beforeQuery text).length := by
  have hsame : (fun c => !!isTabOrNewline c || decide (c ≠ '?')) = fun c => decide (c ≠ '?') := by
    funext c
    by_cases hmark : c = '?'
    · subst hmark
      decide
    · simp [hmark]
  rw [beforeQuery, List.takeWhile_filter, hsame]
  exact List.length_filter_le _ _

theorem length_beforeQuery_clean (input : List Char) :
    (beforeQuery (clean input)).length ≤ (beforeQuery input).length :=
  (length_beforeQuery_filter _).trans ((length_beforeQuery_le
    (List.rdropWhile_prefix _ _)).trans (length_beforeQuery_dropWhile input))

theorem mem_of_mem_clean {input : List Char} {c : Char} (h : c ∈ clean input) : c ∈ input :=
  (List.dropWhile_suffix _).mem ((List.rdropWhile_prefix _ _).mem (List.mem_of_mem_filter h))

/-- What comes before a scheme's colon is no part of a query. -/
theorem beforeQuery_of_splitScheme {text scheme rest : List Char}
    (h : splitScheme text = some (scheme, rest)) :
    (beforeQuery rest).length < (beforeQuery text).length := by
  rw [splitScheme] at h
  split_ifs at h
  split at h
  · next rest' heq =>
    obtain ⟨-, rfl⟩ := Prod.mk.inj (Option.some.inj h)
    have htext : beforeQuery text =
        text.takeWhile isSchemeChar ++ ':' :: beforeQuery rest' := by
      conv_lhs => rw [← List.takeWhile_append_dropWhile (p := isSchemeChar) (l := text), heq]
      rw [beforeQuery_append (notMem_takeWhile (by decide) text), beforeQuery,
        List.takeWhile_cons_of_pos (by decide)]
      rfl
    rw [htext, List.length_append, List.length_cons]
    omega
  · cases h

theorem IsOpaqueUrl.of_mem_pathText {rest : List Char} (h : IsOpaqueUrl url rest) {c : Char}
    (hc : c ∈ url.pathText) : c0ControlSet c = false ∧ c ≠ '?' := by
  rw [pathText, h.1] at hc
  refine ⟨keepsEscapes_c0ControlSet.eq_false_of_mem hc, ?_⟩
  rintro rfl
  have hescape : ¬ IsEscape '?' := not_isEscape (by decide) (by decide)
  exact notMem_takeWhile (by decide) _ ((of_mem_utf8PercentEncode hc).resolve_right hescape).1

/-- A character of the path, if it need not be encoded, was in the text after the scheme. -/
theorem mem_of_mem_cut {input scheme rest : List Char}
    (hscheme : splitScheme (clean input) = some (scheme, rest)) {c : Char}
    (hc : c ∈ (cut '?' (cut '#' rest).1).1) : c ∈ input :=
  mem_of_mem_clean ((suffix_of_splitScheme hscheme).mem
    ((List.takeWhile_prefix _).mem ((List.takeWhile_prefix _).mem hc)))

/-- Where nothing is encoded, the path is what comes after the scheme, so it is shorter. -/
theorem IsOpaqueUrl.length_pathText_lt {input scheme rest : List Char} (h : IsOpaqueUrl url rest)
    (hscheme : splitScheme (clean input) = some (scheme, rest))
    (hset : ∀ c ∈ (cut '?' (cut '#' rest).1).1, c0ControlSet c = false) :
    url.pathText.length < (beforeQuery input).length := by
  calc url.pathText.length
      = (beforeQuery (cut '#' rest).1).length := by
        rw [pathText, h.1]
        exact congrArg List.length (utf8PercentEncode_eq_self hset)
    _ ≤ (beforeQuery rest).length := length_beforeQuery_le (List.takeWhile_prefix _)
    _ < (beforeQuery (clean input)).length := beforeQuery_of_splitScheme hscheme
    _ ≤ (beforeQuery input).length := length_beforeQuery_clean _

/-- **A path that no relative URL can be appended to** is not read back: it is taken for a relative
path, or for another URL. -/
theorem pathText_ne_of_parse {text : List Char} {query : Option (List Char)}
    (hbase : IsSpecialUrl base) (hne : text ≠ []) (hslash : text.head? ≠ some '/')
    (htext : ∀ c ∈ text, c0ControlSet c = false ∧ c ≠ '?')
    (hquery : ∀ text ∈ query, ∀ c ∈ text, c0ControlSet c = false)
    (h : parse rules (some base) (text ++ queryText query) = some url)
    (hfile : url.scheme ≠ "file".toList) : url.pathText ≠ text := by
  have hsegments : ∀ parts, url.path = .segments parts → url.pathText ≠ text := by
    rintro parts hpath rfl
    rw [pathText, hpath] at hne hslash
    cases parts with
    | nil => exact hne rfl
    | cons part parts => exact hslash rfl
  by_cases hspecial : isSpecial url.scheme = true
  · have hurl : IsSpecialUrl url := isSpecialUrl_of_parse h hspecial hfile (by
      rintro base' hbase' - -
      exact Option.some.inj hbase' ▸ hbase)
    obtain ⟨parts, hpath, -⟩ := hurl.path
    exact hsegments parts hpath
  rw [Bool.not_eq_true] at hspecial
  rcases path_of_parse h hspecial (by
    intro base' hbase'
    exact Option.some.inj hbase' ▸ hbase) with ⟨parts, hpath⟩ | ⟨scheme, rest, hscheme, hopaque⟩
  · exact hsegments parts hpath
  · have hset : ∀ c ∈ (cut '?' (cut '#' rest).1).1, c0ControlSet c = false := by
      intro c hc
      rcases List.mem_append.mp (mem_of_mem_cut hscheme hc) with hc | hc
      · exact (htext c hc).1
      · cases query with
        | none => cases hc
        | some text =>
          rcases List.mem_cons.mp hc with rfl | hc
          · decide
          · exact hquery text rfl c hc
    have hbefore : beforeQuery (text ++ queryText query) = text := by
      rw [beforeQuery_append fun hmem => (htext _ hmem).2 rfl]
      cases query <;> simp [beforeQuery, queryText]
    have hlt := hopaque.length_pathText_lt hscheme hset
    rw [hbefore] at hlt
    exact fun heq => absurd (congrArg List.length heq) (Nat.ne_of_lt hlt)

/-! ### Origins -/

theorem isSpecial_of_defaultPort {scheme : List Char} (h : defaultPort scheme ≠ none) :
    isSpecial scheme = true ∧ scheme ≠ "file".toList := by
  constructor
  · obtain ⟨port, hport⟩ := Option.ne_none_iff_exists'.mp h
    obtain ⟨e, he, -⟩ := Option.bind_eq_some_iff.mp hport
    have hscheme := List.find?_some he
    exact List.any_eq_true.mpr ⟨e, List.mem_of_find?_eq_some he, hscheme⟩
  · rintro rfl
    exact h (by decide)

/-- Whose origin is not `null`. -/
theorem of_asciiOrigin (h : asciiOrigin rules url ≠ "null".toList) :
    url.scheme = "blob".toList ∧ (∃ inner, parse rules none url.pathText = some inner) ∨
      defaultPort url.scheme ≠ none := by
  rw [asciiOrigin, asciiOriginWithin] at h
  split_ifs at h with hblob
  · split at h
    · next inner hinner => exact .inl ⟨hblob, inner, hinner⟩
    · exact absurd rfl h
  · split at h
    · next hport _ => exact .inr (hport ▸ Option.some_ne_none _)
    · exact absurd rfl h

/-- The origin is of the scheme, the host and the port. -/
theorem asciiOrigin_congr {url' : Url} (hscheme : url.scheme = url'.scheme)
    (hhost : url.host = url'.host) (hport : url.port = url'.port)
    (hblob : url'.scheme ≠ "blob".toList) : asciiOrigin rules url = asciiOrigin rules url' := by
  rw [asciiOrigin, asciiOrigin, asciiOriginWithin, asciiOriginWithin, hscheme, hhost, hport,
    if_neg hblob, if_neg hblob]

/-- The origin of a scheme with a port is not `null`. -/
theorem asciiOrigin_ne_null (rules : UrlRules) (hport : defaultPort url.scheme ≠ none)
    (hhost : url.host ≠ none) : asciiOrigin rules url ≠ "null".toList := by
  obtain ⟨port, hport'⟩ := Option.ne_none_iff_exists'.mp hport
  obtain ⟨host, hhost'⟩ := Option.ne_none_iff_exists'.mp hhost
  have hblob : url.scheme ≠ "blob".toList := fun heq => hport (heq ▸ rfl)
  rw [asciiOrigin, asciiOriginWithin, if_neg hblob, hport', hhost']
  intro heq
  have hcolon : ':' ∈ "null".toList := by
    rw [← heq]
    simp
  exact absurd hcolon (by decide)

/-- What begins with a slash is no URL without a base. -/
theorem parse_none_slash (text : List Char) : parse rules none ('/' :: text) = none := by
  obtain ⟨text', htext⟩ : ∃ text', clean ('/' :: text) = '/' :: text' := by
    have hne : ('/' :: text).rdropWhile isC0OrSpace ≠ [] := fun heq =>
      absurd (List.rdropWhile_eq_nil_iff.mp heq '/' List.mem_cons_self) (by decide)
    obtain ⟨c, rest, hcons⟩ := List.exists_cons_of_ne_nil hne
    obtain ⟨after, hafter⟩ := List.rdropWhile_prefix isC0OrSpace ('/' :: text)
    rw [hcons] at hafter
    obtain ⟨rfl, -⟩ := List.cons.inj hafter
    rw [clean, List.dropWhile_cons_of_neg (by decide), hcons]
    exact ⟨_, List.filter_cons_of_pos rfl⟩
  have hscheme : splitScheme ('/' :: text') = none := @splitScheme_eq_none [] text' (by simp)
  simp only [parse, htext, hscheme]

end Url

end WeaveAuth
