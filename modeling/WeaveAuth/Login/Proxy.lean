import Mathlib.Data.List.Infix
import WeaveAuth.ForMathlib.Url
import WeaveAuth.Login.LoginFields

/-!
# The way to Kratos

`proxy` of `login/src/proxy.rs`, up to the request that Kratos gets, and `Kratos::url` of
`login/src/kratos.rs`. Kratos reads a path in its own way: `normalized` is as much as a server may
do to a path before it looks for the page.

## Main results

* `normalized_eq`: what such a server makes of a path that is let through
* `url_eq`: the URL of a path that is let through
* `no_path_around_throttle`: no submission reaches Kratos unthrottled, nothing else but what was
  asked for does

## What is assumed of Kratos

As little as possible: `normalized` takes every dot segment, every empty segment and every escape
for what the most lenient server would, and Kratos may do any part of that. So whichever path it has
in the end, it is one that the checks have looked at.

## How the proof goes

`isCleanPath` leaves little for `normalized` to do: there is no escape, no dot segment and no
doubled slash, so what remains is the case of letters and a slash at the end. Those are just what
`isLoginSubmitVariant` compares without. The URL is then a matter of parsing: a clean path of the
two that are routed here is no scheme, no host and no query, and the parser appends it to the base.
-/

namespace WeaveAuth

namespace Login

open Percent Url WeaveAuth.Path

/-! ### The checks of a path -/

/-- The target of a request. The `http` crate lets fewer characters pass than these. -/
structure Uri where
  path : List Char
  query : Option (List Char)
  validPath : ∀ c ∈ path, 0x20 < c.toNat ∧ c ≠ '?' ∧ c ≠ '#'
  validQuery : ∀ text ∈ query, ∀ c ∈ text, 0x20 < c.toNat ∧ c ≠ '#'

def loginSubmitPath : List Char := "/self-service/login".toList

/-- `..` segments would let a request climb out of Kratos' browser paths. -/
def isCleanPath (path : List Char) : Bool :=
  -- Kratos' browser paths never need encoding, and Kratos decodes the path.
  '%' ∉ path && !decide (['/', '/'] <:+: path) &&
    !(segments path).any fun segment => segment = ['.', '.'] || segment = ['.'] || '\\' ∈ segment

/-- Kratos' native-client flows, which login never serves. -/
def isNativeApiPath (path : List Char) : Bool :=
  (segments (path.rdropWhile (· = '/'))).getLast? = some "api".toList

/-- A path Kratos may route to the login submit that isn't exactly `loginSubmitPath`. -/
def isLoginSubmitVariant (path : List Char) : Bool :=
  path ≠ loginSubmitPath && eqIgnoreAsciiCase (path.rdropWhile (· = '/')) loginSubmitPath

/-! ### Kratos -/

structure Kratos where
  base : Url

/-- `Kratos::new`. -/
def Kratos.new (rules : UrlRules) (base : List Char) : Option Kratos :=
  (parse rules none (base.rdropWhile (· = '/') ++ ['/'])).map Kratos.mk

/-- `path` is absolute; the query is appended as given. -/
def Kratos.url (rules : UrlRules) (kratos : Kratos) (path : List Char)
    (query : Option (List Char)) : Option Url :=
  (parse rules (some kratos.base) (path.dropWhile (· = '/'))).map fun url => url.setQuery query

/-- Request headers Kratos gets. -/
def forwardedRequestHeaders : List HeaderName :=
  [.cookie, .contentType, .accept, .acceptLanguage, .userAgent, .origin, .referer]

def clientIpHeader : HeaderName := .custom "true-client-ip"

/-- The request of `forward`; `clientIp` is the address, written out. -/
def forwardRequest (method : Method) (url : Url) (headers : HeaderMap)
    (clientIp : Option (List Char)) (body : List ℕ) : Request Url (List ℕ) :=
  let forwarded := forwardedRequestHeaders.foldl (fun forwarded name =>
    (headers.getAll name).foldl (fun forwarded value => forwarded.append name value) forwarded) ∅
  let forwarded := match clientIp.bind HeaderValue.ofStr with
    | some value => forwarded.append clientIpHeader value
    | none => forwarded
  ⟨method, url, forwarded, body⟩

/-! ### `proxy` -/

/-- What becomes of a request before there is an answer of Kratos. -/
inductive Proxied where
  | refused (status : ℕ)
  /-- The page that says how long to wait. -/
  | throttled (remaining : ℕ)
  /-- Kratos is asked; the key of the attempt that the answer will settle. -/
  | requested (request : Request Url (List ℕ)) (attempt : Option Key)

/-- What `proxy` reads of the state, and the code it calls. -/
structure ProxyEnv where
  login : LoginEnv
  rules : UrlRules
  kratos : Kratos

def proxy (env : ProxyEnv) (throttle : LoginThrottle) (now : Instant) (method : Method) (uri : Uri)
    (clientIp : Option (List Char)) (headers : HeaderMap) (body : List ℕ) :
    Proxied × LoginThrottle :=
  if !isCleanPath uri.path || isNativeApiPath uri.path ||
      (method = .post && isLoginSubmitVariant uri.path) then (.refused 404, throttle)
  else
    let (attempt, throttle) :=
      if method = .post ∧ uri.path = loginSubmitPath then
        loginAttempt env.login headers body throttle now
      else (.ok none, throttle)
    match attempt with
    | .error .unsupportedEncoding => (.refused 415, throttle)
    | .error .ambiguous => (.refused 400, throttle)
    | .error (.wait remaining) => (.throttled remaining, throttle)
    | .ok attempt =>
      match env.kratos.url env.rules uri.path uri.query with
      | none => (.refused 502, throttle)
      | some url =>
        -- `reqwest` sends to no other URLs.
        if url.scheme = "http".toList ∨ url.scheme = "https".toList then
          (.requested (forwardRequest method url headers clientIp body) attempt, throttle)
        else
          match attempt with
          | none => (.refused 502, throttle)
          | some key => (.refused 502, throttle.settle key .notAnAttempt)

/-! ### How a server may read a path -/

def collapseSlashes (path : List Char) : List Char :=
  path.foldr (fun c rest => if c = '/' ∧ rest.head? = some '/' then rest else c :: rest) []

/-- Resolve the dot segments below the root. -/
def resolveDots : List Char → List Char
  | '/' :: rest =>
    '/' :: join (resolve (fun s => s = ['.']) (fun s => s = ['.', '.']) (segments rest))
  | path => path

/-- Percent-decoded, in lower case, without repeated slashes, dot segments and trailing slashes. -/
def normalized (path : List Char) : List Char :=
  (resolveDots (collapseSlashes (toAsciiLowercase (decodeLossy path)))).rdropWhile (· = '/')

theorem eq_of_toLower_eq {c d : Char} (hd : ¬(0x61 ≤ d.toNat ∧ d.toNat ≤ 0x7A))
    (h : c.toLower = d) : c = d := by
  delta Char.toLower at h
  split_ifs at h with hupper
  · have hlow : 0x41 ≤ c.val.toNat := UInt32.le_iff_toNat_le.mp hupper.1
    have hhigh : c.val.toNat ≤ 0x5A := UInt32.le_iff_toNat_le.mp hupper.2
    have hlt : c.val.toNat + 0x20 < 4294967296 := by omega
    have hsum : d.toNat = c.val.toNat + 0x20 := by
      rw [← h]
      exact (UInt32.toNat_add c.val 0x20).trans (Nat.mod_eq_of_lt hlt)
    omega
  · exact h

theorem toLower_eq_slash (c : Char) : c.toLower = '/' ↔ c = '/' :=
  ⟨eq_of_toLower_eq (by decide), fun h => by rw [h]; rfl⟩

theorem collapseSlashes_eq {path : List Char} (h : ¬['/', '/'] <:+: path) :
    collapseSlashes (toAsciiLowercase path) = toAsciiLowercase path := by
  induction path with
  | nil => rfl
  | cons c path ih =>
    have ih := ih fun hinfix => h (List.infix_cons hinfix)
    simp only [toAsciiLowercase, collapseSlashes, List.map_cons, List.foldr_cons] at ih ⊢
    rw [ih, if_neg]
    rintro ⟨hc, hhead⟩
    rw [List.head?_map] at hhead
    obtain ⟨c', hhead, hc'⟩ := Option.map_eq_some_iff.mp hhead
    obtain ⟨rest, rfl⟩ := List.head?_eq_some_iff.mp hhead
    rw [toLower_eq_slash] at hc hc'
    subst hc hc'
    exact h (List.prefix_append ['/', '/'] rest).isInfix

theorem resolveDots_eq {path : List Char}
    (h : ∀ s ∈ segments path, s ≠ ['.'] ∧ s ≠ ['.', '.']) :
    resolveDots (toAsciiLowercase path) = toAsciiLowercase path := by
  have hdot : ∀ {n s}, toAsciiLowercase s = List.replicate n '.' → s = List.replicate n '.' := by
    intro n s hs
    refine List.eq_replicate_iff.mpr ⟨?_, fun c hc => ?_⟩
    · rw [← List.length_map Char.toLower, ← toAsciiLowercase, hs, List.length_replicate]
    · have hlower := List.mem_map_of_mem (f := Char.toLower) hc
      rw [← toAsciiLowercase, hs] at hlower
      exact eq_of_toLower_eq (by decide) (List.eq_of_mem_replicate hlower)
  rw [resolveDots.eq_def]
  split
  · next rest heq =>
    rw [heq, resolve_eq fun s hs => ?_, join_segments]
    have hmem : s ∈ segments (toAsciiLowercase path) := by
      rw [heq, segments_cons_slash]
      exact List.mem_cons_of_mem _ hs
    rw [toAsciiLowercase, segments_map toLower_eq_slash] at hmem
    obtain ⟨s', hs', rfl⟩ := List.mem_map.mp hmem
    obtain ⟨hone, htwo⟩ := h s' hs'
    exact ⟨decide_eq_false fun heq => hone (hdot (n := 1) heq),
      decide_eq_false fun heq => htwo (hdot (n := 2) heq)⟩
  · rfl

/-! ### What is let through -/

theorem isCleanPath_iff {path : List Char} : isCleanPath path = true ↔
    '%' ∉ path ∧ ¬['/', '/'] <:+: path ∧
      ∀ s ∈ segments path, s ≠ ['.'] ∧ s ≠ ['.', '.'] ∧ '\\' ∉ s := by
  simp only [isCleanPath, Bool.and_eq_true, decide_eq_true_eq, Bool.not_eq_true',
    decide_eq_false_iff_not, List.any_eq_false, Bool.or_eq_true, not_or, and_assoc]
  refine and_congr_right fun _ => and_congr_right fun _ => forall₂_congr fun s _ => ?_
  rw [and_left_comm]

/-- Such a path has no backslash. -/
theorem backslash_not_mem {path : List Char} (h : isCleanPath path = true) : '\\' ∉ path := by
  intro hmem
  rw [← join_segments path] at hmem
  rcases mem_join hmem with heq | ⟨s, hs, hmem⟩
  · exact absurd heq (by decide)
  · exact ((isCleanPath_iff.mp h).2.2 s hs).2.2 hmem

/-- **A server that normalises has nothing to do** but to fold the case and to trim. -/
theorem normalized_eq {path : List Char} (h : isCleanPath path = true) :
    normalized path = toAsciiLowercase (path.rdropWhile (· = '/')) := by
  obtain ⟨hpercent, hslashes, hdots⟩ := isCleanPath_iff.mp h
  rw [normalized, decodeLossy_eq_self hpercent, collapseSlashes_eq hslashes,
    resolveDots_eq fun s hs => ⟨(hdots s hs).1, (hdots s hs).2.1⟩]
  rw [toAsciiLowercase, toAsciiLowercase, List.rdropWhile, ← List.map_reverse, List.dropWhile_map,
    ← List.map_reverse, List.rdropWhile]
  have hsame : ((fun c : Char => decide (c = '/')) ∘ Char.toLower) = fun c => decide (c = '/') :=
    funext fun c => decide_eq_decide.mpr (toLower_eq_slash c)
  rw [hsame]

/-- The paths that are routed to `proxy`. -/
def IsBrowserPath (path : List Char) : Prop :=
  "/self-service/".toList <+: path ∨ "/.well-known/ory/".toList <+: path

/-- Below the root they start with neither a separator nor a scheme. -/
theorem IsBrowserPath.exists_eq {path : List Char} (h : IsBrowserPath path) :
    ∃ c before rest, path = '/' :: (c :: before ++ '/' :: rest) ∧ isSeparator true c = false ∧
      ':' ∉ c :: before := by
  rcases h with ⟨rest, rfl⟩ | ⟨rest, rfl⟩
  · have htext : "/self-service/".toList = '/' :: ('s' :: "elf-service".toList ++ ['/']) := by
      decide
    refine ⟨'s', "elf-service".toList, rest, ?_, by decide, by decide⟩
    rw [htext, List.cons_append, List.append_assoc]
    rfl
  · have htext : "/.well-known/ory/".toList = '/' :: ('.' :: "well-known/ory".toList ++ ['/']) := by
      decide
    refine ⟨'.', "well-known/ory".toList, rest, ?_, by decide, by decide⟩
    rw [htext, List.cons_append, List.append_assoc]
    rfl

/-- Trimming takes the root away, and nothing more. -/
theorem dropWhile_root {c : Char} (hc : isSeparator true c = false) (rest : List Char) :
    ('/' :: c :: rest).dropWhile (fun c => decide (c = '/')) = c :: rest := by
  have hroot : c ≠ '/' := by
    rintro rfl
    cases hc
  rw [List.dropWhile_cons_of_pos (by decide), List.dropWhile_cons_of_neg (by simpa using hroot)]

section Url

variable {rules : UrlRules} {kratos : Kratos} {uri : Uri}

/-- None of its characters has a meaning for a URL parser but the slash. -/
theorem plain_of_isCleanPath (h : isCleanPath uri.path = true) : ∀ c ∈ uri.path,
    0x20 < c.toNat ∧ c ≠ '?' ∧ c ≠ '#' ∧ c ≠ '%' ∧ c ≠ '\\' := by
  intro c hc
  obtain ⟨hvisible, hquery, hfragment⟩ := uri.validPath c hc
  refine ⟨hvisible, hquery, hfragment, ?_, ?_⟩
  · rintro rfl
    exact (isCleanPath_iff.mp h).1 hc
  · rintro rfl
    exact backslash_not_mem h hc

/-- **The URL of a path that is let through**: below the root, its segments come after the
directory of the base; the query is that of the request. -/
theorem url_eq (hclean : isCleanPath uri.path = true) (hbrowser : IsBrowserPath uri.path)
    {url : Url} (hhttp : url.scheme ≠ "file".toList)
    (h : kratos.url rules uri.path uri.query = some url) :
    ∃ parts, kratos.base.path = .segments parts ∧ url = { kratos.base with
      path := .segments
        (parts.dropLast ++ (segments uri.path).tail.map (utf8PercentEncode pathSet))
      query := uri.query.map (utf8PercentEncode
        (if isSpecial kratos.base.scheme then specialQuerySet else querySet))
      fragment := none } := by
  obtain ⟨-, -, hdots⟩ := isCleanPath_iff.mp hclean
  have hplain := plain_of_isCleanPath hclean
  obtain ⟨c, before, rest, hpath, hc, hcolon⟩ := hbrowser.exists_eq
  rw [Kratos.url, hpath, List.cons_append, dropWhile_root hc] at h
  rw [hpath] at hplain hdots ⊢
  rw [segments_cons_slash] at hdots ⊢
  have htext : ∀ d ∈ c :: before ++ '/' :: rest,
      0x20 < d.toNat ∧ d ≠ '?' ∧ d ≠ '#' ∧ d ≠ '%' ∧ d ≠ '\\' :=
    fun d hd => hplain d (List.mem_cons_of_mem '/' hd)
  have hdots' : ∀ s ∈ segments (c :: before ++ '/' :: rest), s ≠ ['.'] ∧ s ≠ ['.', '.'] := by
    intro s hs
    obtain ⟨hone, htwo, -⟩ := hdots s (List.mem_cons_of_mem _ hs)
    exact ⟨hone, htwo⟩
  have hsame := clean_eq fun d hd => (htext d hd).1
  obtain ⟨url', hparse, rfl⟩ := Option.map_eq_some_iff.mp h
  obtain ⟨⟨parts, hparts⟩, hfile⟩ := base_of_parse (hsame.symm ▸ splitScheme_eq_none hcolon)
    (hsame.symm ▸ fun hmem => (htext _ hmem).2.2.1 rfl) hparse
  have hrelative := hparse.symm.trans
    (parse_relative (fun heq => hhttp (hfile heq)) hparts hc hcolon htext hdots')
  obtain rfl := Option.some.inj hrelative
  refine ⟨parts, hparts, ?_⟩
  rw [setQuery_eq _ fun text htext c hc => (uri.validQuery text htext c hc).1]
  rfl

end Url

/-! ### What reaches Kratos -/

section Proxy

variable {env : ProxyEnv} {throttle throttle' : LoginThrottle} {now : Instant} {method : Method}
  {uri : Uri} {clientIp : Option (List Char)} {headers : HeaderMap} {body : List ℕ}
  {request : Request Url (List ℕ)} {attempt : Option Key}

/-- What it takes for Kratos to be asked. -/
theorem proxy_requested (h : proxy env throttle now method uri clientIp headers body =
    (.requested request attempt, throttle')) :
    isCleanPath uri.path = true ∧ (method = .post → isLoginSubmitVariant uri.path = false) ∧
    (method = .post ∧ uri.path = loginSubmitPath →
      loginAttempt env.login headers body throttle now = (.ok attempt, throttle')) ∧
    env.kratos.url env.rules uri.path uri.query = some request.uri ∧
    (request.uri.scheme = "http".toList ∨ request.uri.scheme = "https".toList) := by
  rw [proxy] at h
  split at h
  · cases h
  · next hrefused =>
    simp only [Bool.or_eq_true, Bool.not_eq_true', Bool.and_eq_true, decide_eq_true_eq, not_or,
      not_and, Bool.not_eq_false, Bool.not_eq_true] at hrefused
    obtain ⟨⟨hclean, -⟩, hvariant⟩ := hrefused
    refine ⟨hclean, hvariant, ?_⟩
    generalize hattempt : (if method = .post ∧ uri.path = loginSubmitPath then
      loginAttempt env.login headers body throttle now else (.ok none, throttle)) = admission at h
    obtain ⟨result, throttle''⟩ := admission
    dsimp only at h
    split at h
    case h_4 =>
      split at h
      · cases h
      · next url hurl =>
        split at h
        · next hscheme =>
          obtain ⟨heq, rfl⟩ := Prod.mk.inj h
          obtain ⟨rfl, rfl⟩ := Proxied.requested.inj heq
          exact ⟨fun hsubmit => (if_pos hsubmit).symm.trans hattempt, hurl, hscheme⟩
        · split at h <;> cases h
    all_goals cases h

theorem lowercase_loginSubmitPath : toAsciiLowercase loginSubmitPath = loginSubmitPath := by
  decide

/-- **No path around the throttle.** A submission that reaches Kratos, where a server that
normalises its path takes it for one of a login, is one for the throttle too, and has passed it. And
whatever reaches Kratos is asked of the server that login was configured with, below the path that
it was configured with (its directory, if that URL has a query or a fragment), by the segments of
the request's path and with its query. -/
theorem no_path_around_throttle {kratosPublicUrl : List Char}
    (hkratos : Kratos.new env.rules kratosPublicUrl = some env.kratos)
    (h : proxy env throttle now method uri clientIp headers body =
      (.requested request attempt, throttle')) :
    (method = .post → normalized uri.path = loginSubmitPath → uri.path = loginSubmitPath ∧
      loginAttempt env.login headers body throttle now = (.ok attempt, throttle')) ∧
    (IsBrowserPath uri.path → ∃ parts, env.kratos.base.path = .segments parts ∧
      request.uri = { env.kratos.base with
        path := .segments
          (parts.dropLast ++ (segments uri.path).tail.map (utf8PercentEncode pathSet))
        query := uri.query.map (utf8PercentEncode specialQuerySet)
        fragment := none } ∧
      ('?' ∉ kratosPublicUrl → '#' ∉ kratosPublicUrl → parts.getLast? = some [])) := by
  obtain ⟨hclean, hvariant, hattempt, hurl, hhttp⟩ := proxy_requested h
  constructor
  · intro hpost hnormalized
    have hsubmit : uri.path = loginSubmitPath := by
      have hsame := hvariant hpost
      rw [normalized_eq hclean] at hnormalized
      rw [isLoginSubmitVariant, eqIgnoreAsciiCase, hnormalized, lowercase_loginSubmitPath] at hsame
      simpa using hsame
    exact ⟨hsubmit, hattempt ⟨hpost, hsubmit⟩⟩
  · intro hbrowser
    have hspecial : isSpecial request.uri.scheme = true ∧ request.uri.scheme ≠ "file".toList := by
      rcases hhttp with hscheme | hscheme <;> rw [hscheme] <;> decide
    obtain ⟨parts, hparts, heq⟩ := url_eq hclean hbrowser hspecial.2 hurl
    have hscheme : request.uri.scheme = env.kratos.base.scheme := by rw [heq]
    rw [hscheme] at hspecial
    rw [if_pos hspecial.1] at heq
    refine ⟨parts, hparts, heq, fun hquery hfragment => ?_⟩
    obtain ⟨base, hparse, hbase⟩ := Option.map_eq_some_iff.mp hkratos
    obtain rfl : base = env.kratos.base := hbase ▸ rfl
    have hsub := (List.rdropWhile_prefix (fun c => decide (c = '/')) kratosPublicUrl).sublist
    obtain ⟨parts', hparts', hlast⟩ := parse_slash hparse hspecial.1 hspecial.2
      (fun hmem => hquery (hsub.mem hmem)) fun hmem => hfragment (hsub.mem hmem)
    obtain rfl := UrlPath.segments.inj (hparts.symm.trans hparts')
    exact hlast

end Proxy

namespace Sample

/-- Hosts that need no parsing, and no `file` URLs. -/
def rules : UrlRules := ⟨fun _ host => some host, fun _ _ => none⟩

def kratosPublicUrl : List Char := "http://k/b//".toList

def kratos : Kratos :=
  ⟨⟨"http".toList, [], [], some ['k'], none, .segments [['b'], []], none, none⟩⟩

theorem valid_of_all {text : List Char}
    (h : text.all (fun c => 0x20 < c.toNat && c != '?' && c != '#') = true) :
    ∀ c ∈ text, 0x20 < c.toNat ∧ c ≠ '?' ∧ c ≠ '#' := by
  simpa [and_assoc] using h

/-- The login submission of a flow whose id has an apostrophe. -/
def submission : Uri where
  path := loginSubmitPath
  query := some "flow=f'".toList
  validPath := valid_of_all (by decide +kernel)
  validQuery text htext c hc := by
    obtain rfl := Option.some.inj htext
    obtain ⟨hvisible, -, hfragment⟩ :=
      @valid_of_all "flow=f'".toList (by decide +kernel) c hc
    exact ⟨hvisible, hfragment⟩

def isRequested : Proxied → Bool
  | .requested _ _ => true
  | _ => false

end Sample

/-- A password attempt is counted, and asked for where Kratos is. -/
theorem no_path_around_throttle_submission : ∃ request attempt throttle,
    proxy ⟨Sample.loginEnv, Sample.rules, Sample.kratos⟩ ⟨∅⟩ 0 .post Sample.submission none
      Sample.headers Sample.body = (.requested request attempt, throttle) ∧
    loginAttempt Sample.loginEnv Sample.headers Sample.body ⟨∅⟩ 0 = (.ok attempt, throttle) ∧
    request.uri = { Sample.kratos.base with
      path := .segments [['b'], "self-service".toList, "login".toList]
      query := some "flow=f%27".toList } := by
  rcases h : proxy ⟨Sample.loginEnv, Sample.rules, Sample.kratos⟩ ⟨∅⟩ 0 .post Sample.submission none
    Sample.headers Sample.body with ⟨proxied, throttle⟩
  have hrequested : Sample.isRequested proxied = true := by
    have hfst : (proxy ⟨Sample.loginEnv, Sample.rules, Sample.kratos⟩ ⟨∅⟩ 0 .post Sample.submission
      none Sample.headers Sample.body).1 = proxied := congrArg Prod.fst h
    rw [← hfst]
    decide +kernel
  cases proxied with
  | requested request attempt =>
    have hkratos : Kratos.new Sample.rules Sample.kratosPublicUrl = some Sample.kratos := by
      have hparse : parse Sample.rules none
          (Sample.kratosPublicUrl.rdropWhile (· = '/') ++ ['/']) = some Sample.kratos.base := by
        decide
      rw [Kratos.new, hparse]
      rfl
    obtain ⟨hsubmit, hurl⟩ := no_path_around_throttle hkratos h
    obtain ⟨parts, hparts, heq, -⟩ := hurl (Or.inl ⟨"login".toList, by decide⟩)
    obtain rfl := UrlPath.segments.inj hparts
    refine ⟨request, attempt, throttle, rfl, (hsubmit rfl (by decide +kernel)).2, heq.trans ?_⟩
    decide +kernel
  | refused status => cases hrequested
  | throttled remaining => cases hrequested

end Login

end WeaveAuth
