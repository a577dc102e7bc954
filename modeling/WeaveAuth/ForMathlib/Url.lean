import Mathlib.Data.List.DropRight
import WeaveAuth.ForMathlib.PercentEncoding
import WeaveAuth.ForMathlib.Segments

/-!
# URLs

The URL parser of the WHATWG's standard, which the `url` crate implements. A state of the parser is
a function here, from the text that it has left. Two things are left open: what the host parser
makes of a host, and the states that are only for `file` URLs.

## Main results

* `decodeLossy_utf8PercentEncode`: percent-encoding changes how characters are written, and nothing
  else
* `parse_relative`: the segments of a relative path come after the directory of the base
* `parse_slash`: if the text ends in a slash, that directory is all of the path

## Scope

The states of the parser from the scheme to the fragment, with a base and without, of special
schemes and of others. `UrlRules.host` may be any function, and the results are for each. The
parser's validation errors change nothing of a URL and are left out.

## Implementation notes

A segment of dots is looked for in the text as it is written, escapes included (`%2e`), and in no
other way. The percent-encode sets are functions on characters, each the standard's, with the
characters by their numbers.
-/

namespace WeaveAuth

open Percent Utf8

inductive UrlPath where
  /-- Just a text, which no relative path can be appended to. -/
  | cannotBeABase (text : List Char)
  | segments (parts : List (List Char))
  deriving DecidableEq

/-- The segments, if it has any. -/
def UrlPath.parts : UrlPath → List (List Char)
  | cannotBeABase _ => []
  | segments parts => parts

structure Url where
  scheme : List Char
  username : List Char
  password : List Char
  /-- As it is written in a URL. -/
  host : Option (List Char)
  /-- If it is not the scheme's default port. -/
  port : Option ℕ
  path : UrlPath
  query : Option (List Char)
  fragment : Option (List Char)
  deriving DecidableEq

/-- The rules that are left open. -/
structure UrlRules where
  /-- The host parser, for a special URL or another one. -/
  host : Bool → List Char → Option (List Char)
  /-- The file state: the URL, but for its scheme, from the base and what is left of the text. -/
  file : Option Url → List Char → Option Url

namespace Url

/-! ### Percent-encode sets -/

def c0ControlSet (c : Char) : Bool := c.toNat < 0x20 || 0x7E < c.toNat

def fragmentSet (c : Char) : Bool := c0ControlSet c || c.toNat ∈ [0x20, 0x22, 0x3C, 0x3E, 0x60]

def querySet (c : Char) : Bool := c0ControlSet c || c.toNat ∈ [0x20, 0x22, 0x23, 0x3C, 0x3E]

def specialQuerySet (c : Char) : Bool := querySet c || c.toNat = 0x27

def pathSet (c : Char) : Bool := querySet c || c.toNat ∈ [0x3F, 0x5E, 0x60, 0x7B, 0x7D]

def userinfoSet (c : Char) : Bool :=
  pathSet c || c.toNat ∈ [0x2F, 0x3A, 0x3B, 0x3D, 0x40, 0x5B, 0x5C, 0x5D, 0x7C]

/-- One character: as it is, or each of its bytes escaped. -/
def percentEncodeChar (set : Char → Bool) (c : Char) : List Char :=
  if set c then (percentEncode (fun _ => true) (encodeChar c)).map Char.ofNat else [c]

def utf8PercentEncode (set : Char → Bool) (s : List Char) : List Char :=
  s.flatMap (percentEncodeChar set)

/-! ### Schemes -/

def specialSchemes : List (List Char × Option ℕ) :=
  [("ftp".toList, some 21), ("file".toList, none), ("http".toList, some 80),
    ("https".toList, some 443), ("ws".toList, some 80), ("wss".toList, some 443)]

def isSpecial (scheme : List Char) : Bool := specialSchemes.any fun e => e.1 = scheme

def defaultPort (scheme : List Char) : Option ℕ :=
  (specialSchemes.find? fun e => e.1 = scheme).bind Prod.snd

def isSchemeChar (c : Char) : Bool := c.isAlphanum || c = '+' || c = '-' || c = '.'

/-- The scheme, in lower case, and what comes after its colon. -/
def splitScheme (text : List Char) : Option (List Char × List Char) :=
  if text.head?.any Char.isAlpha then
    match text.dropWhile isSchemeChar with
    | ':' :: rest => some ((text.takeWhile isSchemeChar).map Char.toLower, rest)
    | _ => none
  else none

/-! ### The end of a URL -/

def isC0OrSpace (c : Char) : Bool := c.toNat ≤ 0x20

def isTabOrNewline (c : Char) : Bool := c.toNat = 0x09 || c.toNat = 0x0A || c.toNat = 0x0D

/-- What is left of the input before it is parsed. -/
def clean (input : List Char) : List Char :=
  ((input.dropWhile isC0OrSpace).rdropWhile isC0OrSpace).filter fun c => !isTabOrNewline c

/-- What comes before the first such character, and what comes after it. -/
def cut (c : Char) (text : List Char) : List Char × Option (List Char) :=
  (text.takeWhile (· ≠ c), if c ∈ text then some ((text.dropWhile (· ≠ c)).drop 1) else none)

/-- The query state and the fragment state. -/
def withEnd (url : Url) (query fragment : Option (List Char)) : Url :=
  { url with
    query := query.map
      (utf8PercentEncode (if isSpecial url.scheme then specialQuerySet else querySet))
    fragment := fragment.map (utf8PercentEncode fragmentSet) }

/-- `set_query`. -/
def setQuery (url : Url) (query : Option (List Char)) : Url :=
  { withEnd url (query.map fun text => text.filter fun c => !isTabOrNewline c) none with
    fragment := url.fragment }

/-! ### Paths -/

/-- The character separates segments, in a special URL or another one. -/
def isSeparator (special : Bool) (c : Char) : Bool := c = '/' || special && c = '\\'

/-- The text with its dots, however they are escaped. -/
def unescapeDots : List Char → List Char
  | '%' :: '2' :: 'e' :: rest => '.' :: unescapeDots rest
  | '%' :: '2' :: 'E' :: rest => '.' :: unescapeDots rest
  | c :: rest => c :: unescapeDots rest
  | [] => []

def isSingleDot (part : List Char) : Bool := unescapeDots part = ['.']

def isDoubleDot (part : List Char) : Bool := unescapeDots part = ['.', '.']

/-- The path state: the segments of the text come after those there are. -/
def parsePath (special : Bool) (before : List (List Char)) (text : List Char) :
    List (List Char) :=
  let slashes := text.map fun c => if isSeparator special c then '/' else c
  let parts := (Path.segments slashes).map (utf8PercentEncode pathSet)
  Path.resolveOnto isSingleDot isDoubleDot before.reverse parts ++
    if parts.getLast?.any fun part => isSingleDot part || isDoubleDot part then [[]] else []

/-- And what comes after them. -/
def pathState (url : Url) (before : List (List Char)) (text : List Char) : Url :=
  let (text, fragment) := cut '#' text
  let (path, query) := cut '?' text
  { withEnd url query fragment with
    path := .segments (parsePath (isSpecial url.scheme) before path) }

/-- The path start state. -/
def pathStart (url : Url) (text : List Char) : Url :=
  match text with
  | [] => if isSpecial url.scheme then pathState url [] [] else url
  | c :: rest =>
    if isSeparator (isSpecial url.scheme) c then pathState url [] rest
    else if isSpecial url.scheme then pathState url [] text
    else { pathState url [] text with path := url.path }

/-! ### The authority -/

/-- The host, and what comes after the first colon that is in no brackets. -/
def cutPort : Bool → List Char → List Char × Option (List Char)
  | _, [] => ([], none)
  | inside, c :: rest =>
    if c = ':' ∧ !inside then ([], some rest)
    else
      let (host, port) := cutPort (if c = '[' then true else if c = ']' then false else inside) rest
      (c :: host, port)

def parsePort (scheme text : List Char) : Option (Option ℕ) :=
  if text.all Char.isDigit then
    let port := text.foldl (fun n c => 10 * n + (c.toNat - 0x30)) 0
    if 0xFFFF < port then none
    else if text = [] ∨ defaultPort scheme = some port then some none
    else some (some port)
  else none

/-- The authority state and the host states. -/
def authority (rules : UrlRules) (scheme text : List Char) : Option Url :=
  let special := isSpecial scheme
  let goesOn := fun c => !(isSeparator special c || c = '?' || c = '#')
  let (hostPort, userinfo) := cut '@' (text.takeWhile goesOn).reverse
  let (username, password) := cut ':' (userinfo.getD []).reverse
  let (host, port) := cutPort false hostPort.reverse
  if host = [] ∧ (special ∨ userinfo.isSome ∨ port.isSome) then none
  else
    match rules.host special host, parsePort scheme (port.getD []) with
    | some host, some port =>
      let url := {
        scheme
        username := utf8PercentEncode userinfoSet username
        password := utf8PercentEncode userinfoSet (password.getD [])
        host := some host
        port
        path := .segments []
        query := none
        fragment := none }
      some (pathStart url (text.dropWhile goesOn))
    | _, _ => none

/-! ### The parser -/

/-- The relative state. -/
def relative (rules : UrlRules) (base : Url) (text : List Char) : Option Url :=
  let special := isSpecial base.scheme
  match text with
  | [] => some { base with fragment := none }
  | '?' :: _ => some { pathState base [] text with path := base.path }
  | '#' :: rest => some { base with fragment := some (utf8PercentEncode fragmentSet rest) }
  | c :: rest =>
    if !isSeparator special c then some (pathState base base.path.parts.dropLast text)
    else
      match rest with
      | [] => some (pathState base [] [])
      | c' :: rest' =>
        if !isSeparator special c' then some (pathState base [] rest)
        else if special then authority rules base.scheme (rest'.dropWhile (isSeparator true))
        else authority rules base.scheme rest'

/-- The states after a scheme that is not special. -/
def notSpecial (rules : UrlRules) (scheme text : List Char) : Option Url :=
  let bare : Url := ⟨scheme, [], [], none, none, .segments [], none, none⟩
  match text with
  | '/' :: '/' :: rest => authority rules scheme rest
  | '/' :: rest => some (pathState bare [] rest)
  | _ =>
    let (text', fragment) := cut '#' text
    let (path, query) := cut '?' text'
    some { withEnd bare query fragment with
      path := .cannotBeABase (utf8PercentEncode c0ControlSet path) }

/-- `Url::parse`, or `join` where there is a base. -/
def parse (rules : UrlRules) (base : Option Url) (input : List Char) : Option Url :=
  let text := clean input
  match splitScheme text, base with
  | some (scheme, rest), _ =>
    if scheme = "file".toList then
      (rules.file base rest).map fun url => { url with scheme := scheme }
    else if isSpecial scheme then
      match base.filter fun base => base.scheme = scheme && !"//".toList.isPrefixOf rest with
      | some base => relative rules base rest
      | none => authority rules scheme (rest.dropWhile (isSeparator true))
    else notSpecial rules scheme rest
  | none, none => none
  | none, some base =>
    match base.path with
    | .cannotBeABase _ =>
      match text with
      | '#' :: rest => some { base with fragment := some (utf8PercentEncode fragmentSet rest) }
      | _ => none
    | .segments _ =>
      if base.scheme = "file".toList then
        (rules.file (some base) text).map fun url => { url with scheme := base.scheme }
      else relative rules base text

/-! ### Origins -/

/-- The path as it is written. -/
def pathText (url : Url) : List Char :=
  match url.path with
  | .cannotBeABase text => text
  | .segments parts => parts.flatMap fun part => '/' :: part

/-- The origin, of a `blob` URL after at most so many others. -/
def asciiOriginWithin (rules : UrlRules) : ℕ → Url → List Char
  | 0, _ => "null".toList
  | n + 1, url =>
    if url.scheme = "blob".toList then
      match parse rules none url.pathText with
      | some inner => asciiOriginWithin rules n inner
      | none => "null".toList
    else
      match defaultPort url.scheme, url.host with
      | some _, some host =>
        url.scheme ++ "://".toList ++ host ++
          url.port.elim [] fun port => ':' :: (toString port).toList
      | _, _ => "null".toList

/-- `origin().ascii_serialization()`: `null` unless the scheme has a port. The path of a `blob` URL
is a URL with a shorter path. -/
def asciiOrigin (rules : UrlRules) (url : Url) : List Char :=
  asciiOriginWithin rules (url.pathText.length + 1) url

/-! ### Percent-encoding and decoding -/

theorem percentEncode_false (bs : List ℕ) : percentEncode (fun _ => false) bs = bs := by
  induction bs with
  | nil => rfl
  | cons b bs ih => rw [percentEncode_cons, ih, if_neg Bool.false_ne_true, List.singleton_append]

theorem encode_percentEncodeChar (set : Char → Bool) (c : Char) :
    encode (percentEncodeChar set c) = percentEncode (fun _ => set c) (encodeChar c) := by
  rw [percentEncodeChar]
  split_ifs with hset
  · rw [hset]
    refine encode_map_ofNat fun b hb => ?_
    obtain ⟨d, hd, hb⟩ := List.mem_flatMap.mp hb
    have hlt := lt_of_mem_encodeChar hd
    have hdigit : ∀ n < 16, digit n < 0x80 := by decide
    have hhigh := hdigit (d / 16) (by omega)
    have hlow := hdigit (d % 16) (by omega)
    simp only [if_true, List.mem_cons, List.not_mem_nil, or_false] at hb
    omega
  · rw [Bool.not_eq_true] at hset
    rw [hset, percentEncode_false, encode_cons, encode_nil, List.append_nil]

theorem eq_percent_of_mem_encodeChar {c : Char} (h : 0x25 ∈ encodeChar c) : c = '%' := by
  by_cases hascii : c.toNat < 0x80
  · rw [encodeChar_ascii hascii, List.mem_singleton] at h
    rw [← Char.ofNat_toNat c, ← h]
  · have hle := le_of_mem_encodeChar (Nat.le_of_not_lt hascii) h
    omega

/-- **Percent-encoding is undone by decoding**, if every `%` is encoded. -/
theorem decodeLossy_utf8PercentEncode {set : Char → Bool} {s : List Char}
    (hpercent : '%' ∈ s → set '%' = true) : decodeLossy (utf8PercentEncode set s) = s := by
  suffices hbytes : percentDecode (encode (utf8PercentEncode set s)) = encode s by
    rw [decodeLossy, hbytes, lossy_encode]
  induction s with
  | nil => rfl
  | cons c s ih =>
    have hc : 0x25 ∈ encodeChar c → set c = true := by
      intro hmem
      obtain rfl := eq_percent_of_mem_encodeChar hmem
      exact hpercent List.mem_cons_self
    rw [utf8PercentEncode, List.flatMap_cons, encode_append, encode_percentEncodeChar,
      percentDecode_encode_append hc fun b hb => lt_of_mem_encodeChar hb]
    rw [utf8PercentEncode] at ih
    rw [ih fun hmem => hpercent (List.mem_cons_of_mem _ hmem), encode_cons]

/-- A text without escapes is decoded to itself. -/
theorem decodeLossy_eq_self {s : List Char} (h : '%' ∉ s) : decodeLossy s = s := by
  have hsame : utf8PercentEncode (fun _ => false) s = s := by
    exact List.flatMap_singleton' s
  have hdecode := @decodeLossy_utf8PercentEncode (fun _ => false) s fun hmem => absurd hmem h
  rwa [hsame] at hdecode

/-! ### Dot segments -/

/-- An escaped dot. -/
theorem decodeLossy_escape_dot {c : Char} (hc : c = 'e' ∨ c = 'E') (rest : List Char) :
    decodeLossy ('%' :: '2' :: c :: rest) = '.' :: decodeLossy rest := by
  have hbytes : percentDecode (encode ('%' :: '2' :: c :: rest)) =
      encodeChar '.' ++ percentDecode (encode rest) := by
    rcases hc with rfl | rfl
    · exact percentDecode_escape (x := 2) (y := 14) rfl rfl _
    · exact percentDecode_escape (x := 2) (y := 14) rfl rfl _
  rw [decodeLossy, hbytes, lossy_encodeChar_append]
  rfl

/-- What is only dots for a parser is only dots when it is decoded. -/
theorem decodeLossy_of_dots {part : List Char} (h : ∀ c ∈ unescapeDots part, c = '.') :
    decodeLossy part = unescapeDots part := by
  fun_induction unescapeDots part with
  | case1 rest ih =>
    rw [decodeLossy_escape_dot (Or.inl rfl), ih (List.forall_mem_cons.mp h).2]
  | case2 rest ih =>
    rw [decodeLossy_escape_dot (Or.inr rfl), ih (List.forall_mem_cons.mp h).2]
  | case3 c rest _ _ ih =>
    obtain ⟨rfl, hrest⟩ := List.forall_mem_cons.mp h
    rw [decodeLossy_cons (by decide), ih hrest]
  | case4 => rfl

/-- Encoding makes no dot segment. -/
theorem not_dot_utf8PercentEncode {part : List Char} (hpercent : '%' ∉ part)
    (hdots : part ≠ ['.'] ∧ part ≠ ['.', '.']) :
    isSingleDot (utf8PercentEncode pathSet part) = false ∧
      isDoubleDot (utf8PercentEncode pathSet part) = false := by
  have hdecode := @decodeLossy_utf8PercentEncode pathSet part fun hmem => absurd hmem hpercent
  constructor
  · refine decide_eq_false fun hdot => hdots.1 ?_
    rw [← hdecode, decodeLossy_of_dots (by simp [hdot]), hdot]
  · refine decide_eq_false fun hdot => hdots.2 ?_
    rw [← hdecode, decodeLossy_of_dots (by simp [hdot]), hdot]

/-! ### Parsing a relative path -/

/-- **Where there is nothing to resolve**, the segments of a text are added as they are. -/
theorem parsePath_eq {special : Bool} {before : List (List Char)} {text : List Char}
    (hback : '\\' ∉ text) (hpercent : '%' ∉ text)
    (hdots : ∀ s ∈ Path.segments text, s ≠ ['.'] ∧ s ≠ ['.', '.']) :
    parsePath special before text =
      before ++ (Path.segments text).map (utf8PercentEncode pathSet) := by
  have hslashes : (text.map fun c => if isSeparator special c then '/' else c) = text := by
    refine (List.map_congr_left fun c hc => ?_).trans (List.map_id text)
    split_ifs with hsep
    · simp only [isSeparator, Bool.or_eq_true, Bool.and_eq_true, decide_eq_true_eq] at hsep
      rcases hsep with rfl | ⟨-, rfl⟩
      · rfl
      · exact absurd hc hback
    · rfl
  have hparts : ∀ part ∈ (Path.segments text).map (utf8PercentEncode pathSet),
      isSingleDot part = false ∧ isDoubleDot part = false := by
    intro part hpart
    obtain ⟨s, hs, rfl⟩ := List.mem_map.mp hpart
    refine not_dot_utf8PercentEncode (fun hmem => hpercent ?_) (hdots s hs)
    exact Path.mem_of_mem_segments hs hmem
  have hlast : (((Path.segments text).map (utf8PercentEncode pathSet)).getLast?.any
      fun part => isSingleDot part || isDoubleDot part) = false := by
    cases hlast : ((Path.segments text).map (utf8PercentEncode pathSet)).getLast? with
    | none => rfl
    | some part =>
      obtain ⟨hone, htwo⟩ := hparts part (List.mem_of_getLast? hlast)
      rw [Option.any_some, hone, htwo]
      rfl
  simp only [parsePath, hslashes]
  rw [Path.resolveOnto_eq hparts, hlast, List.reverse_reverse]
  simp

/-- A text of visible characters is parsed as it is. -/
theorem clean_eq {input : List Char} (h : ∀ c ∈ input, 0x20 < c.toNat) : clean input = input := by
  have hvisible : ∀ c ∈ input, isC0OrSpace c = false ∧ isTabOrNewline c = false := by
    intro c hc
    have hlt := h c hc
    simp only [isC0OrSpace, isTabOrNewline, Bool.or_eq_false_iff, decide_eq_false_iff_not]
    omega
  rw [clean, List.dropWhile_eq_self_iff.mpr fun hlen => ?_,
    List.rdropWhile_eq_self_iff.mpr fun hne => ?_, List.filter_eq_self.mpr fun c hc => ?_]
  · simp [(hvisible c hc).2]
  · simp [(hvisible _ (List.getLast_mem hne)).1]
  · simp [(hvisible _ (List.getElem_mem hlen)).1]

theorem setQuery_eq (url : Url) {query : Option (List Char)}
    (h : ∀ text ∈ query, ∀ c ∈ text, 0x20 < c.toNat) : setQuery url query = { url with
      query := query.map
        (utf8PercentEncode (if isSpecial url.scheme then specialQuerySet else querySet)) } := by
  cases query with
  | none => rfl
  | some text =>
    have hsame : (text.filter fun c => !isTabOrNewline c) = text := by
      refine List.filter_eq_self.mpr fun c hc => ?_
      have hlt := h text rfl c hc
      simp only [isTabOrNewline, Bool.not_eq_true', Bool.or_eq_false_iff, decide_eq_false_iff_not]
      omega
    rw [setQuery, Option.map_some, hsame]
    rfl

/-- What has a slash before any colon has no scheme. -/
theorem splitScheme_eq_none {before rest : List Char} (h : ':' ∉ before) :
    splitScheme (before ++ '/' :: rest) = none := by
  have hcolon : ∀ rest', (before ++ '/' :: rest).dropWhile isSchemeChar ≠ ':' :: rest' := by
    intro rest'
    induction before with
    | nil => exact nofun
    | cons c before ih =>
      obtain ⟨hne, hbefore⟩ := not_or.mp (List.mem_cons.not.mp h)
      rw [List.cons_append, List.dropWhile_cons]
      split_ifs
      · exact ih hbefore
      · exact fun heq => hne (List.cons.inj heq).1.symm
  rw [splitScheme]
  split_ifs
  · split
    · next rest' heq => exact absurd heq (hcolon rest')
    · rfl
  · rfl

theorem cut_eq {c : Char} {text : List Char} (h : c ∉ text) : cut c text = (text, none) := by
  rw [cut, if_neg h, List.takeWhile_eq_self_iff.mpr]
  intro c' hc'
  exact decide_eq_true fun heq => h (heq ▸ hc')

theorem pathState_eq {url : Url} {before : List (List Char)} {text : List Char}
    (h : '?' ∉ text ∧ '#' ∉ text) : pathState url before text =
      { url with
        path := .segments (parsePath (isSpecial url.scheme) before text)
        query := none
        fragment := none } := by
  rw [pathState, cut_eq h.2]
  dsimp only
  rw [cut_eq h.1]
  rfl

/-- **The segments of a relative path come after the directory of the base**, and nothing else of
the base changes: no segment is resolved, none is taken for a scheme or an authority. -/
theorem parse_relative {rules : UrlRules} {base : Url} {parts : List (List Char)}
    (hfile : base.scheme ≠ "file".toList) (hpath : base.path = .segments parts)
    {c : Char} {before rest : List Char} (hc : isSeparator true c = false)
    (hcolon : ':' ∉ c :: before)
    (htext : ∀ d ∈ c :: before ++ '/' :: rest,
      0x20 < d.toNat ∧ d ≠ '?' ∧ d ≠ '#' ∧ d ≠ '%' ∧ d ≠ '\\')
    (hdots : ∀ s ∈ Path.segments (c :: before ++ '/' :: rest), s ≠ ['.'] ∧ s ≠ ['.', '.']) :
    parse rules (some base) (c :: before ++ '/' :: rest) = some { base with
      path := .segments (parts.dropLast ++
        (Path.segments (c :: before ++ '/' :: rest)).map (utf8PercentEncode pathSet))
      query := none
      fragment := none } := by
  have hnot : ∀ d, (0x20 < d.toNat ∧ d ≠ '?' ∧ d ≠ '#' ∧ d ≠ '%' ∧ d ≠ '\\' → False) →
      d ∉ c :: before ++ '/' :: rest := fun d hd hmem => hd (htext d hmem)
  have hquery := hnot '?' fun h => h.2.1 rfl
  have hfragment := hnot '#' fun h => h.2.2.1 rfl
  have hstate : relative rules base (c :: before ++ '/' :: rest) =
      some (pathState base parts.dropLast (c :: before ++ '/' :: rest)) := by
    have hsep : isSeparator (isSpecial base.scheme) c = false := by
      simp only [isSeparator, Bool.true_and, Bool.or_eq_false_iff] at hc ⊢
      rw [hc.1, hc.2, Bool.and_false]
      exact ⟨rfl, rfl⟩
    rw [List.cons_append] at hquery hfragment ⊢
    rw [relative.eq_def]
    dsimp only
    split
    · next heq => cases heq
    · next heq => exact absurd List.mem_cons_self ((List.cons.inj heq).1 ▸ hquery)
    · next heq => exact absurd List.mem_cons_self ((List.cons.inj heq).1 ▸ hfragment)
    · next heq =>
      obtain ⟨rfl, rfl⟩ := List.cons.inj heq
      rw [hsep, hpath]
      rfl
  simp only [parse, clean_eq fun d hd => (htext d hd).1, splitScheme_eq_none hcolon, hpath]
  rw [if_neg hfile, hstate, pathState_eq ⟨hquery, hfragment⟩,
    parsePath_eq (hnot _ fun h => h.2.2.2.2 rfl) (hnot _ fun h => h.2.2.2.1 rfl) hdots]

/-- A relative path in which nothing is resolved or taken for anything else. -/
def isPlainPath (text : List Char) : Bool :=
  decide ('/' ∈ text) && !(text.head?.any (isSeparator true)) && decide (':' ∉ text) &&
    text.all (fun d => 0x20 < d.toNat && d ≠ '?' && d ≠ '#' && d ≠ '%' && d ≠ '\\') &&
    (Path.segments text).all fun s => s ≠ ['.'] && s ≠ ['.', '.']

/-- The URL of a path below the directory of a base. -/
def below (base : Url) (text : List Char) : Url :=
  { base with
    path := .segments
      (base.path.parts.dropLast ++ (Path.segments text).map (utf8PercentEncode pathSet))
    query := none
    fragment := none }

theorem parse_below {rules : UrlRules} {base : Url} {parts : List (List Char)}
    (hfile : base.scheme ≠ "file".toList) (hpath : base.path = .segments parts) {text : List Char}
    (h : isPlainPath text = true) : parse rules (some base) text = some (below base text) := by
  simp only [isPlainPath, Bool.and_eq_true, decide_eq_true_eq, List.all_eq_true,
    Bool.not_eq_true', and_assoc] at h
  obtain ⟨hslash, hhead, hcolon, htext, hdots⟩ := h
  obtain ⟨first, rest, rfl⟩ := List.append_of_mem hslash
  cases first with
  | nil => cases hhead
  | cons c before =>
    have hcolon' : ':' ∉ c :: before := fun hmem => hcolon (List.mem_append_left _ hmem)
    have hsep : isSeparator true c = false := by simpa using hhead
    rw [parse_relative hfile hpath hsep hcolon' htext hdots, below, hpath]
    rfl

/-- A text without a scheme is parsed only if the base has segments, and stays among `file` URLs. -/
theorem base_of_parse {rules : UrlRules} {base url : Url} {text : List Char}
    (hscheme : splitScheme (clean text) = none) (hfragment : '#' ∉ clean text)
    (h : parse rules (some base) text = some url) :
    (∃ parts, base.path = .segments parts) ∧
      (base.scheme = "file".toList → url.scheme = "file".toList) := by
  simp only [parse, hscheme] at h
  split at h
  · split at h
    · next heq => exact absurd List.mem_cons_self (heq ▸ hfragment)
    · cases h
  · next parts hparts =>
    refine ⟨⟨parts, hparts⟩, fun hfile => ?_⟩
    rw [if_pos hfile] at h
    obtain ⟨url', -, rfl⟩ := Option.map_eq_some_iff.mp h
    exact hfile

/-! ### Parsing what ends in a slash -/

/-- Of what is left, nothing comes after the path, which is empty or ends in a slash. -/
def OnlyPath (text : List Char) : Prop :=
  (∀ c, text.getLast? = some c → c = '/') ∧ '?' ∉ text ∧ '#' ∉ text

theorem OnlyPath.suffix {text text' : List Char} (h : OnlyPath text) (hsuffix : text' <:+ text) :
    OnlyPath text' := by
  obtain ⟨hlast, hquery, hfragment⟩ := h
  refine ⟨fun c hc => hlast c ?_, fun hmem => hquery (hsuffix.mem hmem),
    fun hmem => hfragment (hsuffix.mem hmem)⟩
  obtain ⟨before, rfl⟩ := hsuffix
  rw [List.getLast?_append, hc]
  rfl

theorem OnlyPath.eq_nil_or {text : List Char} (h : OnlyPath text) :
    text = [] ∨ ∃ text', text = text' ++ ['/'] := by
  rcases text.eq_nil_or_concat with rfl | ⟨text', c, rfl⟩
  · exact Or.inl rfl
  · rw [List.concat_eq_append] at h ⊢
    obtain rfl := h.1 c (List.getLast?_concat ..)
    exact Or.inr ⟨text', rfl⟩

theorem OnlyPath.clean {input : List Char} (h : OnlyPath input) : OnlyPath (clean input) := by
  have htrim := h.suffix (List.dropWhile_suffix isC0OrSpace)
  rw [Url.clean]
  rcases htrim.eq_nil_or with heq | ⟨text, heq⟩
  · rw [heq]
    exact ⟨nofun, List.not_mem_nil, List.not_mem_nil⟩
  · rw [heq, List.rdropWhile_concat_neg _ _ _ (by decide), List.filter_append]
    rw [heq] at htrim
    refine ⟨fun c hc => ?_, fun hmem => ?_, fun hmem => ?_⟩
    · rw [List.filter_cons_of_pos (by decide), List.filter_nil, List.getLast?_concat] at hc
      exact (Option.some.inj hc).symm
    all_goals rw [← List.filter_append] at hmem
    · exact htrim.2.1 (List.mem_of_mem_filter hmem)
    · exact htrim.2.2 (List.mem_of_mem_filter hmem)

theorem getLast_parsePath {special : Bool} {before : List (List Char)} {text : List Char}
    (h : OnlyPath text) : (parsePath special before text).getLast? = some [] := by
  obtain ⟨parts, hparts⟩ : ∃ parts,
      Path.segments (text.map fun c => if isSeparator special c then '/' else c) =
        parts ++ [[]] := by
    rcases h.eq_nil_or with rfl | ⟨text, rfl⟩
    · exact ⟨[], rfl⟩
    · refine ⟨Path.segments (text.map fun c => if isSeparator special c then '/' else c), ?_⟩
      rw [List.map_append, List.map_singleton, ite_self]
      exact Path.segments_concat_slash _
  simp only [parsePath, hparts, List.map_append, List.map_singleton]
  rw [Path.resolveOnto_concat rfl rfl, List.getLast?_concat, utf8PercentEncode]
  simp [isSingleDot, isDoubleDot, unescapeDots]

variable {rules : UrlRules} {url : Url}

theorem scheme_pathStart (url : Url) (text : List Char) :
    (pathStart url text).scheme = url.scheme := by
  rw [pathStart.eq_def]
  split
  · split_ifs <;> rfl
  · split_ifs <;> rfl

/-- The URL's path ends in a slash. -/
def PathEnds (url : Url) : Prop := ∃ parts, url.path = .segments parts ∧ parts.getLast? = some []

theorem pathEnds_pathStart {text : List Char} (hspecial : isSpecial url.scheme = true)
    (h : OnlyPath text) : PathEnds (pathStart url text) := by
  have hstate : ∀ text, OnlyPath text → PathEnds (pathState url [] text) := by
    intro text h
    rw [pathState_eq ⟨h.2.1, h.2.2⟩]
    exact ⟨_, rfl, getLast_parsePath h⟩
  rw [pathStart.eq_def]
  split
  · rw [if_pos hspecial]
    exact hstate _ h
  · next c rest =>
    split_ifs
    · exact hstate _ (h.suffix (List.suffix_cons c rest))
    · exact hstate _ h

theorem authority_some {scheme text : List Char} (h : authority rules scheme text = some url) :
    url.scheme = scheme ∧
      (isSpecial scheme = true → OnlyPath text → PathEnds url) := by
  simp only [authority] at h
  split_ifs at h
  split at h
  · obtain rfl := Option.some.inj h
    refine ⟨scheme_pathStart _ _, fun hspecial hpath => ?_⟩
    exact pathEnds_pathStart hspecial (hpath.suffix (List.dropWhile_suffix _))
  · cases h

theorem scheme_notSpecial {scheme text : List Char} (h : notSpecial rules scheme text = some url) :
    url.scheme = scheme := by
  rw [notSpecial.eq_def] at h
  dsimp only at h
  split at h
  · exact (authority_some h).1
  · exact Option.some.inj h ▸ rfl
  · exact Option.some.inj h ▸ rfl

theorem suffix_of_splitScheme {text scheme rest : List Char}
    (h : splitScheme text = some (scheme, rest)) : rest <:+ text := by
  rw [splitScheme] at h
  split_ifs at h
  split at h
  · next rest' heq =>
    obtain ⟨-, rfl⟩ := Prod.mk.inj (Option.some.inj h)
    exact (List.suffix_cons ':' _).trans (heq ▸ List.dropWhile_suffix _)
  · cases h

/-- **What ends in a slash** and has neither a query nor a fragment has a path that ends in one. -/
theorem parse_slash {input : List Char} (h : parse rules none (input ++ ['/']) = some url)
    (hspecial : isSpecial url.scheme = true) (hfile : url.scheme ≠ "file".toList)
    (hquery : '?' ∉ input) (hfragment : '#' ∉ input) : PathEnds url := by
  have hinput : OnlyPath (input ++ ['/']) := by
    refine ⟨fun c hc => ?_, by simpa using hquery, by simpa using hfragment⟩
    rw [List.getLast?_concat] at hc
    exact (Option.some.inj hc).symm
  simp only [parse] at h
  split at h
  · next scheme rest hscheme =>
    split_ifs at h with hisFile hisSpecial
    · obtain ⟨url', -, rfl⟩ := Option.map_eq_some_iff.mp h
      exact absurd hisFile hfile
    · rw [Option.filter_none] at h
      refine (authority_some h).2 hisSpecial ?_
      exact (hinput.clean.suffix (suffix_of_splitScheme hscheme)).suffix (List.dropWhile_suffix _)
    · rw [scheme_notSpecial h] at hspecial
      exact absurd hspecial hisSpecial
  · cases h
  · next heq => cases heq

end Url

end WeaveAuth
