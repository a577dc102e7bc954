import WeaveAuth.Bff.Callback
import WeaveAuth.Bff.Cookie
import WeaveAuth.ForMathlib.Segments

/-!
# What a cookie brings back

`bff/src/server/login_cookie.rs`, the names that `bff/src/config.rs` gives the cookies, and what
becomes of a value from `build_cookie` to `extract_cookie`.

`serde_json` and the unpadded base64url of `base64` are other crates' code, taken as functions.

## Main results

* `extractCookie_of_sentBack`: a value comes back from among any cookies of other names
* `cookie_round_trip`: so do a login in progress and a session id

## What a browser does

`cookiePair` is what a browser keeps of a `Set-Cookie` value, and `SentBack` a request in which it
sends that beside others of other names, in any order. That a browser sends a cookie only where its
attributes allow it is not used: a theorem here is about whoever sends it.

## Implementation notes

A round trip takes the codecs to be inverse on the one value that is sent
(`CookieCodec.RoundTrips`), and nothing of what they make of other texts. What the percent encoding
leaves as it is consists of characters that mean nothing in a header, and it is for this that a
cookie's value needs no quotes.
-/

namespace WeaveAuth

namespace Bff

open Utf8 Percent

/-! ### Names -/

def loginCookieName : List Char := "wa_login".toList

def hostCookiePrefix : List Char := "__Host-".toList

def secureCookiePrefix : List Char := "__Secure-".toList

/-- `has_prefix`. -/
def hasPrefix (name start : List Char) : Bool := eqIgnoreAsciiCase (name.take start.length) start

/-- A character of an RFC 9110 token. -/
def isTokenChar (c : Char) : Bool := c.isAlphanum || "!#$%&'*+-.^_`|~".toList.contains c

def isCookieToken (name : List Char) : Bool := !name.isEmpty && name.all isTokenChar

/-- What of the configuration names the cookies. -/
structure CookieConfig where
  sessionCookieName : List Char
  /-- bff's own URL is an `https` one. -/
  secureCookies : Bool
  deriving DecidableEq

namespace CookieConfig

variable (config : CookieConfig)

def cookieName (name : List Char) : List Char :=
  if config.secureCookies && !hasPrefix name hostCookiePrefix then hostCookiePrefix ++ name
  else name

def sessionCookie : List Char := config.cookieName config.sessionCookieName

def loginCookie : List Char := config.cookieName loginCookieName

/-- What `load` requires of the names. -/
def accepted : Bool :=
  isCookieToken config.sessionCookieName && config.sessionCookie != config.loginCookie &&
    (config.secureCookies ||
      !(hasPrefix config.sessionCookieName hostCookiePrefix ||
        hasPrefix config.sessionCookieName secureCookiePrefix))

end CookieConfig

/-! ### Values -/

/-- The encodings of a login cookie. -/
structure CookieCodec where
  /-- `serde_json::to_vec`. -/
  toVec : PendingLogin → Option (List ℕ)
  /-- `serde_json::from_slice`. -/
  fromSlice : List ℕ → Option PendingLogin
  /-- `URL_SAFE_NO_PAD.encode`. -/
  encode64 : List ℕ → List Char
  /-- `URL_SAFE_NO_PAD.decode`. -/
  decode64 : List Char → Option (List ℕ)

namespace CookieCodec

variable (codec : CookieCodec)

def toCookieValue (pending : PendingLogin) : List Char :=
  codec.encode64 ((codec.toVec pending).getD [])

def fromCookieValue (value : List Char) : Option PendingLogin := do
  let bytes ← codec.decode64 value
  codec.fromSlice bytes

/-- The encodings bring the login back. -/
structure RoundTrips (pending : PendingLogin) : Prop where
  json : (codec.toVec pending).bind codec.fromSlice = some pending
  base64 : ∀ bytes ∈ codec.toVec pending, codec.decode64 (codec.encode64 bytes) = some bytes

theorem RoundTrips.fromCookieValue {codec : CookieCodec} {pending : PendingLogin}
    (h : codec.RoundTrips pending) :
    codec.fromCookieValue (codec.toCookieValue pending) = some pending := by
  obtain ⟨bytes, hbytes, hslice⟩ := Option.bind_eq_some_iff.mp h.json
  simp only [CookieCodec.fromCookieValue, toCookieValue, hbytes, Option.getD_some,
    h.base64 bytes hbytes, Option.bind_eq_bind, Option.bind_some, hslice]

end CookieCodec

/-! ### In the browser -/

/-- What a browser keeps of a `Set-Cookie` value and sends: what stands before the first `;`. -/
def cookiePair (setCookie : List Char) : List Char := setCookie.takeWhile (· ≠ ';')

/-- What a browser sends. -/
def cookieLine (cookies : List (List Char)) : List Char := List.intercalate "; ".toList cookies

/-- A text that a browser may send beside a cookie of this name. -/
structure IsOther (name text : List Char) : Prop where
  visible : ∀ c ∈ text, c = '\t' ∨ 0x20 ≤ c.toNat ∧ c.toNat < 0x7F
  semicolon : ';' ∉ text
  /-- It is not a cookie of this name. -/
  other : ∀ blank value, (∀ c ∈ blank, isWhitespace c = true) → text ≠ blank ++ name ++ '=' :: value

/-- Nothing in the text means anything in a header. -/
def IsPlainValue (text : List Char) : Prop :=
  ∀ c ∈ text, c ∉ ";,=\"' ".toList ∧ 0x20 < c.toNat ∧ c.toNat < 0x7F

/-- A browser is given a pair of the name and a plain value. -/
def HasPlainPair (name setCookie : List Char) : Prop :=
  ∃ text, splitOnce '=' (cookiePair setCookie) = some (name, text) ∧ IsPlainValue text

/-- A request's `Cookie` line has the cookie once, among any others of other names. -/
def SentBack (name setCookie : List Char) (headers : HeaderMap) : Prop :=
  ∃ before after, (∀ text ∈ before, IsOther name text) ∧ (∀ text ∈ after, IsOther name text) ∧
    headers.get .cookie = HeaderValue.ofStr (cookieLine (before ++ cookiePair setCookie :: after))

/-! ### Characters -/

/-- What holds of the ASCII characters, one by one, holds of each. -/
theorem of_ascii {P : Char → Prop} (h : ∀ n < 128, P (Char.ofNat n)) {c : Char}
    (hc : c.toNat < 128) : P c := by
  have hP := h c.toNat hc
  rwa [Char.ofNat_toNat] at hP

/-- A character that stands for itself in a cookie's value, or begins an escape. -/
def isValueChar (c : Char) : Bool := c.isAlphanum || "-._~%".toList.contains c

theorem ascii_of_isAlphanum {c : Char} (h : c.isAlphanum = true) : c.toNat < 128 := by
  have below (last : Char) (hlast : last.val.toNat < 128) (hle : c.val ≤ last.val) :
      c.toNat < 128 := lt_of_le_of_lt (UInt32.le_iff_toNat_le.mp hle) hlast
  rcases Bool.or_eq_true_iff.mp h with halpha | hdigit
  · rcases Bool.or_eq_true_iff.mp halpha with hupper | hlower
    · exact below 'Z' (by decide) (of_decide_eq_true hupper).2
    · exact below 'z' (by decide) (of_decide_eq_true (Bool.and_eq_true_iff.mp hlower).2)
  · exact below '9' (by decide) (of_decide_eq_true (Bool.and_eq_true_iff.mp hdigit).2)

theorem ascii_of_isTokenChar {c : Char} (h : isTokenChar c = true) : c.toNat < 128 := by
  rcases Bool.or_eq_true_iff.mp h with halnum | hmark
  · exact ascii_of_isAlphanum halnum
  · have hall : ("!#$%&'*+-.^_`|~".toList.all fun c => c.toNat < 128) = true := by simp
    exact of_decide_eq_true (List.all_eq_true.mp hall c (List.contains_iff_mem.mp hmark))

theorem ascii_of_isValueChar {c : Char} (h : isValueChar c = true) : c.toNat < 128 := by
  rcases Bool.or_eq_true_iff.mp h with halnum | hmark
  · exact ascii_of_isAlphanum halnum
  · have hall : ("-._~%".toList.all fun c => c.toNat < 128) = true := by simp
    exact of_decide_eq_true (List.all_eq_true.mp hall c (List.contains_iff_mem.mp hmark))

theorem isTokenChar_spec {c : Char} (h : isTokenChar c = true) :
    c ≠ ';' ∧ c ≠ '=' ∧ isWhitespace c = false ∧ 0x20 < c.toNat ∧ c.toNat < 0x7F := by
  refine of_ascii (P := fun c => isTokenChar c = true →
    c ≠ ';' ∧ c ≠ '=' ∧ isWhitespace c = false ∧ 0x20 < c.toNat ∧ c.toNat < 0x7F) ?_
    (ascii_of_isTokenChar h) h
  decide +kernel

theorem isValueChar_spec {c : Char} (h : isValueChar c = true) :
    c ∉ ";,=\"' ".toList ∧ isWhitespace c = false ∧ 0x20 < c.toNat ∧ c.toNat < 0x7F := by
  refine of_ascii (P := fun c => isValueChar c = true →
    c ∉ ";,=\"' ".toList ∧ isWhitespace c = false ∧ 0x20 < c.toNat ∧ c.toNat < 0x7F) ?_
    (ascii_of_isValueChar h) h
  decide +kernel

/-! ### The value of a cookie -/

/-- The value as it stands in the cookie. -/
def cookieText (value : List Char) : List Char :=
  (percentEncode cookieValue (encode value)).map Char.ofNat

/-- The bytes of the encoding. -/
theorem isValueChar_of_mem {bs : List ℕ} (hbs : ∀ b ∈ bs, b < 256) {b : ℕ}
    (hb : b ∈ percentEncode cookieValue bs) : b < 128 ∧ isValueChar (Char.ofNat b) = true := by
  obtain ⟨b', hb', hmem⟩ := List.mem_flatMap.mp hb
  have hlt := hbs b' hb'
  by_cases henc : cookieValue b' = true
  · rw [if_pos henc] at hmem
    have hdigit : ∀ n < 16, digit n < 128 ∧ isValueChar (Char.ofNat (digit n)) = true := by
      decide +kernel
    simp only [List.mem_cons, List.not_mem_nil, or_false] at hmem
    rcases hmem with rfl | rfl | rfl
    · simp [isValueChar]
    · exact hdigit _ (by omega)
    · exact hdigit _ (by omega)
  · rw [if_neg henc] at hmem
    obtain rfl := List.mem_singleton.mp hmem
    have hall : ∀ n < 256, cookieValue n = false → n < 128 ∧ isValueChar (Char.ofNat n) = true := by
      decide +kernel
    exact hall b hlt (Bool.not_eq_true _ ▸ henc)

theorem isValueChar_of_mem_cookieText {value : List Char} {c : Char} (hc : c ∈ cookieText value) :
    isValueChar c = true := by
  obtain ⟨b, hb, rfl⟩ := List.mem_map.mp hc
  exact (isValueChar_of_mem (fun _ => lt_of_mem_encode) hb).2

theorem isPlainValue_cookieText (value : List Char) : IsPlainValue (cookieText value) := by
  intro c hc
  obtain ⟨hmarks, -, hvisible⟩ := isValueChar_spec (isValueChar_of_mem_cookieText hc)
  exact ⟨hmarks, hvisible⟩

/-- What was encoded is decoded. -/
theorem decodeLossy_cookieText (value : List Char) : decodeLossy (cookieText value) = value := by
  have hascii : ∀ b ∈ percentEncode cookieValue (encode value), b < 0x80 := fun b hb =>
    (isValueChar_of_mem (fun _ => lt_of_mem_encode) hb).1
  have hdecode : percentDecode (percentEncode cookieValue (encode value) ++ []) =
      encode value ++ percentDecode [] :=
    percentDecode_encode_append (fun _ => by decide) (fun _ => lt_of_mem_encode) []
  rw [List.append_nil, percentDecode_nil, List.append_nil] at hdecode
  rw [decodeLossy, cookieText, encode_map_ofNat hascii, hdecode, lossy_encode]

/-! ### The cookie in a line -/

variable {name : List Char}

theorem of_isCookieToken (h : isCookieToken name = true) {c : Char} (hc : c ∈ name) :
    c ≠ ';' ∧ c ≠ '=' ∧ isWhitespace c = false ∧ 0x20 < c.toNat ∧ c.toNat < 0x7F :=
  isTokenChar_spec (List.all_eq_true.mp (Bool.and_eq_true_iff.mp h).2 c hc)

/-- The characters of a cookie with its name. -/
theorem of_mem_pair (h : isCookieToken name = true) {value : List Char} {c : Char}
    (hc : c ∈ name ++ '=' :: cookieText value) :
    c ≠ ';' ∧ isWhitespace c = false ∧ 0x20 < c.toNat ∧ c.toNat < 0x7F := by
  rcases List.mem_append.mp hc with hname | hrest
  · obtain ⟨hsemicolon, -, hspec⟩ := of_isCookieToken h hname
    exact ⟨hsemicolon, hspec⟩
  · rcases List.mem_cons.mp hrest with rfl | htext
    · exact ⟨by decide, rfl, by decide, by decide⟩
    · obtain ⟨hmarks, hspec⟩ := isValueChar_spec (isValueChar_of_mem_cookieText htext)
      refine ⟨?_, hspec⟩
      rintro rfl
      exact hmarks (by simp)

theorem cookiePair_buildCookie (h : isCookieToken name = true) (value path : List Char)
    (maxAgeSecs : ℤ) (secure : Bool) :
    cookiePair (buildCookie name value path maxAgeSecs secure) =
      name ++ '=' :: cookieText value := by
  obtain ⟨rest, hrest⟩ : ∃ rest, buildCookie name value path maxAgeSecs secure =
      (name ++ '=' :: cookieText value) ++ ';' :: rest := by
    refine ⟨" HttpOnly; Path=".toList ++ path ++ "; SameSite=Lax".toList ++
      (if secure then "; Secure".toList else []) ++ "; Max-Age=".toList ++
      (toString maxAgeSecs).toList, ?_⟩
    simp only [buildCookie, cookieText, List.append_assoc, List.cons_append]
    rfl
  have hall : ∀ c ∈ name ++ '=' :: cookieText value, decide (c ≠ ';') = true := fun c hc =>
    decide_eq_true (of_mem_pair h hc).1
  rw [cookiePair, hrest, List.takeWhile_append_of_pos hall, List.takeWhile_cons_of_neg (by simp),
    List.append_nil]

/-- It can be a header. -/
theorem visible_buildCookie (h : isCookieToken name = true) (value : List Char) {path : List Char}
    (hpath : ∀ c ∈ path, 0x20 ≤ c.toNat ∧ c.toNat < 0x7F) (maxAgeSecs : ℤ) (secure : Bool) :
    ∀ c ∈ buildCookie name value path maxAgeSecs secure, 0x20 ≤ c.toNat ∧ c.toNat < 0x7F := by
  have hfixed : ∀ c ∈ "; HttpOnly; Path=".toList ++ "; SameSite=Lax".toList ++
      "; Secure".toList ++ "; Max-Age=".toList, 0x20 ≤ c.toNat ∧ c.toNat < 0x7F := by
    simp
  have hsecure : (if secure then "; Secure".toList else []) ⊆ "; Secure".toList := by
    cases secure <;> simp
  have hpair : ∀ c ∈ name ++ '=' :: cookieText value, 0x20 ≤ c.toNat ∧ c.toNat < 0x7F := by
    intro c hc
    obtain ⟨-, -, hlow, hhigh⟩ := of_mem_pair h hc
    exact ⟨hlow.le, hhigh⟩
  intro c hc
  simp only [buildCookie, List.append_assoc, List.mem_append] at hc
  simp only [List.append_assoc, List.mem_append] at hfixed
  rcases hc with hc | hc | hc | hc | hc | hc | hc | hc
  · exact hpair c (List.mem_append_left _ hc)
  · exact hpair c (List.mem_append_right _ hc)
  · exact hfixed c (.inl hc)
  · exact hpath c hc
  · exact hfixed c (.inr (.inl hc))
  · exact hfixed c (.inr (.inr (.inl (hsecure hc))))
  · exact hfixed c (.inr (.inr (.inr hc)))
  · exact visible_of_mem_toString hc

theorem isSome_ofStr_buildCookie (h : isCookieToken name = true) (value : List Char)
    (maxAgeSecs : ℤ) (secure : Bool) :
    (HeaderValue.ofStr (buildCookie name value ['/'] maxAgeSecs secure)).isSome = true := by
  have hpath : ∀ c ∈ ['/'], 0x20 ≤ c.toNat ∧ c.toNat < 0x7F :=
    List.forall_mem_singleton.mpr (by decide)
  have hvisible := visible_buildCookie h value hpath maxAgeSecs secure
  obtain ⟨header, hheader, -⟩ := HeaderValue.toStr_ofStr fun c hc => .inr (hvisible c hc)
  rw [hheader, Option.isSome_some]

theorem cookieLine_eq (cookie : List Char) (cookies : List (List Char)) :
    cookieLine (cookie :: cookies) =
      List.intercalate [';'] (cookie :: cookies.map (' ' :: ·)) := by
  induction cookies generalizing cookie with
  | nil => simp [cookieLine]
  | cons next cookies ih =>
    have hrest : cookieLine (next :: cookies) =
        List.intercalate [';'] (next :: cookies.map (' ' :: ·)) := ih next
    rw [cookieLine, List.intercalate_cons_cons, ← cookieLine, hrest, List.map_cons,
      List.intercalate_cons_cons]
    cases cookies with
    | nil => simp
    | cons last cookies => simp [List.intercalate_cons_cons]

/-- The cookies of a line, each but the first after a blank. -/
theorem splitOn_cookieLine (cookie : List Char) (cookies : List (List Char))
    (h : ∀ c ∈ cookie :: cookies, ';' ∉ c) :
    (cookieLine (cookie :: cookies)).splitOn ';' = cookie :: cookies.map (' ' :: ·) := by
  rw [cookieLine_eq, List.splitOn_intercalate _ _ (List.cons_ne_nil _ _)]
  intro text htext
  rcases List.mem_cons.mp htext with rfl | htext
  · exact h text List.mem_cons_self
  · obtain ⟨text', hmem, rfl⟩ := List.mem_map.mp htext
    have hnot := h text' (List.mem_cons_of_mem _ hmem)
    simpa using hnot

/-- What one text of a line gives for the cookie. -/
def valueOf (name text : List Char) : Option (List Char) := do
  let (name', value) ← splitOnce '=' (trim text)
  if name' = name then some (decodeLossy value) else none

theorem valueOf_blank (text : List Char) : valueOf name (' ' :: text) = valueOf name text := by
  rw [valueOf, trim_cons (by decide), ← valueOf]

theorem valueOf_pair (h : isCookieToken name = true) (value : List Char) :
    valueOf name (name ++ '=' :: cookieText value) = some value := by
  have hequals : '=' ∉ name := fun hmem => (of_isCookieToken h hmem).2.1 rfl
  rw [valueOf, trim_of_forall fun c hc => (of_mem_pair h hc).2.1]
  simp [splitOnce_append hequals, decodeLossy_cookieText]

theorem valueOf_other {text : List Char} (h : IsOther name text) : valueOf name text = none := by
  rw [valueOf]
  cases hsplit : splitOnce '=' (trim text) with
  | none => rfl
  | some pair =>
    obtain ⟨name', value⟩ := pair
    refine if_neg ?_
    rintro rfl
    obtain ⟨before, after, hbefore, htext⟩ := exists_trim text
    rw [eq_of_splitOnce hsplit] at htext
    exact h.other before (value ++ after) hbefore (by simpa using htext)

theorem extractCookie_eq {headers : HeaderMap} {header : HeaderValue}
    (hget : headers.get .cookie = some header) {line : List Char}
    (hline : header.toStr = some line) : extractCookie headers name =
      match (line.splitOn ';').filterMap (valueOf name) with
      | [value] => some value
      | _ => none := by
  simp only [extractCookie, hget, hline, Option.bind_eq_bind, Option.bind_some]
  rfl

variable {before after : List (List Char)}

/-- Of a line, one text gives a value. -/
theorem filterMap_valueOf (h : isCookieToken name = true) (value : List Char)
    (hbefore : ∀ text ∈ before, IsOther name text) (hafter : ∀ text ∈ after, IsOther name text) :
    ((cookieLine (before ++ (name ++ '=' :: cookieText value) :: after)).splitOn ';').filterMap
      (valueOf name) = [value] := by
  have hothers : ∀ texts : List (List Char), (∀ text ∈ texts, IsOther name text) →
      (texts.map (' ' :: ·)).filterMap (valueOf name) = [] := fun texts htexts => by
    rw [List.filterMap_map, List.filterMap_eq_nil_iff]
    intro text hmem
    rw [Function.comp_apply, valueOf_blank, valueOf_other (htexts text hmem)]
  have hsemicolon : ∀ text ∈ before ++ (name ++ '=' :: cookieText value) :: after,
      ';' ∉ text := by
    intro text htext
    rcases List.mem_append.mp htext with hmem | hmem
    · exact (hbefore text hmem).semicolon
    · rcases List.mem_cons.mp hmem with rfl | hmem
      · exact fun hmem => (of_mem_pair h hmem).1 rfl
      · exact (hafter text hmem).semicolon
  cases before with
  | nil =>
    rw [List.nil_append, splitOn_cookieLine _ _ hsemicolon, List.filterMap_cons_some
      (valueOf_pair h value), hothers after hafter]
  | cons first before =>
    obtain ⟨hfirst, hbefore⟩ := List.forall_mem_cons.mp hbefore
    rw [List.cons_append] at hsemicolon ⊢
    rw [splitOn_cookieLine _ _ hsemicolon, List.filterMap_cons_none (valueOf_other hfirst),
      List.map_append, List.filterMap_append, hothers before hbefore, List.map_cons,
      List.filterMap_cons_some ((valueOf_blank _).trans (valueOf_pair h value)),
      hothers after hafter, List.nil_append]

theorem visible_cookieLine (h : isCookieToken name = true) (value : List Char)
    (hbefore : ∀ text ∈ before, IsOther name text) (hafter : ∀ text ∈ after, IsOther name text) :
    ∀ c ∈ cookieLine (before ++ (name ++ '=' :: cookieText value) :: after),
      c = '\t' ∨ 0x20 ≤ c.toNat ∧ c.toNat < 0x7F := by
  have hpair : ∀ c ∈ name ++ '=' :: cookieText value,
      c = '\t' ∨ 0x20 ≤ c.toNat ∧ c.toNat < 0x7F := fun c hc => by
    have hvisible := (of_mem_pair h hc).2.2
    exact Or.inr ⟨hvisible.1.le, hvisible.2⟩
  intro c hc
  rcases Path.mem_intercalate hc with hsep | ⟨text, htext, hc⟩
  · have hall : ("; ".toList.all fun c => 0x20 ≤ c.toNat && c.toNat < 0x7F) = true := by
      simp
    simpa using Or.inr (List.all_eq_true.mp hall c hsep)
  · rcases List.mem_append.mp htext with hmem | hmem
    · exact (hbefore text hmem).visible c hc
    · rcases List.mem_cons.mp hmem with rfl | hmem
      · exact hpair c hc
      · exact (hafter text hmem).visible c hc

/-- **A value comes back** from among any cookies of other names. -/
theorem extractCookie_of_sentBack (h : isCookieToken name = true) {value path : List Char}
    {maxAgeSecs : ℤ} {secure : Bool} {headers : HeaderMap}
    (hsent : SentBack name (buildCookie name value path maxAgeSecs secure) headers) :
    extractCookie headers name = some value := by
  obtain ⟨before, after, hbefore, hafter, hget⟩ := hsent
  rw [cookiePair_buildCookie h] at hget
  obtain ⟨header, hheader, hline⟩ :=
    HeaderValue.toStr_ofStr (visible_cookieLine h value hbefore hafter)
  rw [extractCookie_eq (hget.trans hheader) hline, filterMap_valueOf h value hbefore hafter]

/-! ### The cookies -/

namespace CookieConfig

variable {config : CookieConfig}

theorem isCookieToken_cookieName (config : CookieConfig) (h : isCookieToken name = true) :
    isCookieToken (config.cookieName name) = true := by
  unfold cookieName
  split_ifs
  · have hhost : hostCookiePrefix.all isTokenChar = true := by decide +kernel
    obtain ⟨hne, hall⟩ := Bool.and_eq_true_iff.mp h
    rw [isCookieToken, List.all_append, hhost, hall, Bool.and_true, Bool.and_true]
    rfl
  · exact h

/-- Every name that `load` accepts, and every one made of it, is a token. -/
theorem isCookieToken_of_accepted (h : config.accepted = true)
    (hname : name ∈ [config.sessionCookieName, config.sessionCookie, config.loginCookie]) :
    isCookieToken name = true := by
  have hsession : isCookieToken config.sessionCookieName = true :=
    (Bool.and_eq_true_iff.mp (Bool.and_eq_true_iff.mp h).1).1
  simp only [List.mem_cons, List.not_mem_nil, or_false] at hname
  rcases hname with rfl | rfl | rfl
  · exact hsession
  · exact config.isCookieToken_cookieName hsession
  · exact config.isCookieToken_cookieName (by decide +kernel)

end CookieConfig

theorem hasPlainPair (h : isCookieToken name = true) (value path : List Char)
    (maxAgeSecs : ℤ) (secure : Bool) :
    HasPlainPair name (buildCookie name value path maxAgeSecs secure) := by
  refine ⟨cookieText value, ?_, isPlainValue_cookieText value⟩
  rw [cookiePair_buildCookie h]
  exact splitOnce_append (fun hmem => (of_isCookieToken h hmem).2.1 rfl) _

/-- **A login in progress and a session id come back** under every name that a configuration gives
a cookie. -/
theorem cookie_round_trip {config : CookieConfig} (hconfig : config.accepted = true)
    (hname : name ∈ [config.sessionCookieName, config.sessionCookie, config.loginCookie])
    {codec : CookieCodec} {pending : PendingLogin} (hcodec : codec.RoundTrips pending)
    (sessionId path : List Char) (maxAgeSecs : ℤ) (secure : Bool) :
    (HasPlainPair name (buildCookie name (codec.toCookieValue pending) path maxAgeSecs secure) ∧
      ∀ headers, SentBack name
          (buildCookie name (codec.toCookieValue pending) path maxAgeSecs secure) headers →
        (extractCookie headers name).bind codec.fromCookieValue = some pending) ∧
    HasPlainPair name (buildCookie name sessionId path maxAgeSecs secure) ∧
      ∀ headers, SentBack name (buildCookie name sessionId path maxAgeSecs secure) headers →
        extractCookie headers name = some sessionId := by
  have htoken := CookieConfig.isCookieToken_of_accepted hconfig hname
  refine ⟨⟨hasPlainPair htoken _ path maxAgeSecs secure, fun headers hsent => ?_⟩,
    hasPlainPair htoken _ path maxAgeSecs secure, fun headers hsent => ?_⟩
  · rw [extractCookie_of_sentBack htoken hsent, Option.bind_some, hcodec.fromCookieValue]
  · exact extractCookie_of_sentBack htoken hsent

/-- What is written of one login. -/
def sampleLogin : PendingLogin := ⟨"s", "v", "n", "/"⟩

def sampleJson : List ℕ :=
  encode "\x7b\"state\":\"s\",\"verifier\":\"v\",\"nonce\":\"n\",\"redirect_uri\":\"/\"\x7d".toList

def sampleBase64 : List Char :=
  "eyJzdGF0ZSI6InMiLCJ2ZXJpZmllciI6InYiLCJub25jZSI6Im4iLCJyZWRpcmVjdF91cmkiOiIvIn0".toList

/-- The encodings, as far as one login is concerned. -/
def codecOf (pending : PendingLogin) (json : List ℕ) (base64 : List Char) : CookieCodec where
  toVec login := if login = pending then some json else none
  fromSlice bytes := if bytes = json then some pending else none
  encode64 bytes := if bytes = json then base64 else []
  decode64 text := if text = base64 then some json else none

theorem roundTrips_codecOf (pending : PendingLogin) (json : List ℕ) (base64 : List Char) :
    (codecOf pending json base64).RoundTrips pending where
  json := by simp [codecOf]
  base64 bytes hbytes := by
    obtain rfl : json = bytes := by simpa [codecOf] using hbytes
    simp [codecOf]

def sampleCodec : CookieCodec := codecOf sampleLogin sampleJson sampleBase64

theorem isOther_of_length {text : List Char}
    (hvisible : (text.all fun c => 0x20 ≤ c.toNat && c.toNat < 0x7F && c ≠ ';') = true)
    (hlength : text.length ≤ name.length) : IsOther name text where
  visible c hc := by
    have hc := List.all_eq_true.mp hvisible c hc
    simp only [Bool.and_eq_true, decide_eq_true_eq] at hc
    exact Or.inr hc.1
  semicolon hmem := by simpa using List.all_eq_true.mp hvisible ';' hmem
  other blank value _ htext := by
    have hlong := congrArg List.length htext
    simp only [List.length_append, List.length_cons] at hlong
    omega

/-- Between two other cookies, under `https`. -/
theorem cookie_round_trip_between : ∃ headers,
    SentBack "__Host-wa_login".toList (buildCookie "__Host-wa_login".toList
      (sampleCodec.toCookieValue sampleLogin) ['/'] 600 true) headers ∧
    (extractCookie headers "__Host-wa_login".toList).bind sampleCodec.fromCookieValue =
      some sampleLogin := by
  have htoken : isCookieToken "__Host-wa_login".toList = true := by decide +kernel
  have hbefore : ∀ text ∈ ["a=1".toList], IsOther "__Host-wa_login".toList text := by
    intro text htext
    obtain rfl := List.mem_singleton.mp htext
    exact isOther_of_length (by decide +kernel) (by decide +kernel)
  have hafter : ∀ text ∈ ["wa_login=x y".toList], IsOther "__Host-wa_login".toList text := by
    intro text htext
    obtain rfl := List.mem_singleton.mp htext
    exact isOther_of_length (by decide +kernel) (by decide +kernel)
  obtain ⟨header, hheader, -⟩ := HeaderValue.toStr_ofStr
    (visible_cookieLine htoken (sampleCodec.toCookieValue sampleLogin) hbefore hafter)
  rw [← cookiePair_buildCookie htoken _ ['/'] 600 true] at hheader
  have hsent : SentBack "__Host-wa_login".toList (buildCookie "__Host-wa_login".toList
      (sampleCodec.toCookieValue sampleLogin) ['/'] 600 true)
      ((∅ : HeaderMap).insert .cookie header) := ⟨_, _, hbefore, hafter, hheader.symm⟩
  have hcodec : sampleCodec.RoundTrips sampleLogin :=
    roundTrips_codecOf sampleLogin sampleJson sampleBase64
  let config : CookieConfig := ⟨"wa_session".toList, true⟩
  have hname : "__Host-wa_login".toList ∈
      [config.sessionCookieName, config.sessionCookie, config.loginCookie] :=
    List.mem_cons_of_mem _ (List.mem_cons_of_mem _ (List.mem_singleton.mpr (by decide +kernel)))
  have hround := cookie_round_trip (by decide +kernel : config.accepted = true) hname hcodec []
    ['/'] 600 true
  exact ⟨_, hsent, hround.1.2 _ hsent⟩

end Bff

end WeaveAuth
