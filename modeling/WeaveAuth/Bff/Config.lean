import Mathlib.Data.List.Nodup
import Mathlib.Tactic.Simps.Basic
import WeaveAuth.Bff.LoginCookie
import WeaveAuth.Common.Config
import WeaveAuth.Hooks.Config

/-!
# The configuration of bff

`bff/src/config.rs`: what the deployer sets, and what is refused. How a text or a network is printed
is left open, and so is which host a written host is.

## Main results

* `checkRoutes_eq_ok`: which routes are accepted
* `load_eq_ok`: which configurations are accepted, and what becomes of them

## What is left open

`ConfigEnv` has the code of other crates that `load` calls: the host parser of `url`, `{:?}` of a
text and `{}` of a network. What `figment` makes of the files and the environment is a
`UserSettings`. An error is the text that the code makes, its field included; the order in which the
checks are made is the source's, since the first that fails decides.

## Implementation notes

Each check is a function of its own, with a lemma that says when it passes, and `load_eq_ok` puts
them together. `Valid` and `RouteConfig.Valid` are structures, so that a theorem about an accepted
configuration takes the fields that it needs.
-/

namespace WeaveAuth

namespace Bff

open Common (Profile UserSettings requireHttpsInProd)
open Hooks (Host ensure ensure_eq_ok isLoopbackIp trimSlashes)
open Fallible WeaveAuth.Path

structure RouteConfig where
  pathPrefix : String
  upstreamUrl : String
  deriving DecidableEq

/-- `IpNet`. -/
inductive IpNet where
  | v4 (address : BitVec 32) (prefixLen : ℕ)
  | v6 (address : BitVec 128) (prefixLen : ℕ)
  deriving DecidableEq

structure Config where
  port : UInt16
  internalPort : UInt16
  /-- bff's own public origin. -/
  bffUrl : String
  hydraPublicUrl : String
  hydraInternalUrl : String
  bffClientId : String
  bffClientSecret : String
  hydraRefreshTokenTtlSecs : Int64
  redirectUriAllowlist : List String
  defaultRedirectUri : Option String
  internalApiKey : String
  sessionCookieName : String
  routes : List RouteConfig
  trustedOrigins : List String
  rateLimitMaxAttempts : UInt32
  rateLimitProxyMaxAttempts : UInt32
  trustedProxies : List IpNet
  deriving DecidableEq

/-- `Config::default`. -/
def Config.default : Config where
  port := 8080
  internalPort := 8082
  bffUrl := "http://localhost:8080"
  hydraPublicUrl := "http://localhost:4444"
  hydraInternalUrl := "http://localhost:4444"
  bffClientId := "bff"
  bffClientSecret := ""
  hydraRefreshTokenTtlSecs := 30 * 24 * 60 * 60
  redirectUriAllowlist := []
  defaultRedirectUri := none
  internalApiKey := ""
  sessionCookieName := "wa_session"
  routes := []
  trustedOrigins := []
  rateLimitMaxAttempts := 10
  rateLimitProxyMaxAttempts := 600
  trustedProxies := []

/-- The longest refresh TTL accepted. -/
def maxRefreshTokenTtlSecs : Int64 := 10 * 365 * 24 * 60 * 60

/-- The shortest `internal_api_key` `prod` accepts. -/
def minProdApiKeyLen : ℕ := 16

/-- The credentials in the committed dev configs. -/
def committedDevSecrets : List String := ["dev-bff-client-secret", "dev-bff-internal-api-key"]

/-- The paths bff serves itself. -/
def reservedPrefixes : List String := ["/login", "/callback", "/logout", "/logged-out", "/health"]

/-- The code of others that `load` calls. -/
structure ConfigEnv where
  rules : UrlRules
  /-- `Url::host`, of a host as it is written. -/
  hostOf : List Char → Host
  /-- `{:?}` of a text. -/
  debug : String → String
  /-- `{}` of a network. -/
  displayNet : IpNet → String

namespace ConfigEnv

variable (env : ConfigEnv)

/-- `Url::parse`. -/
def parse (text : String) : Option Url := Url.parse env.rules none text.toList

/-- `url.scheme()` is `http` or `https`, and there is a host. -/
def isHttp (url : Url) : Bool :=
  (url.scheme = "http".toList || url.scheme = "https".toList) && url.host.isSome

def isLoopback (url : Url) : Bool :=
  match url.host.map env.hostOf with
  | some (.domain name) => eqIgnoreAsciiCase name.toList "localhost".toList
  | some (.ip address) => isLoopbackIp address
  | none => false

end ConfigEnv

section Checks

variable (env : ConfigEnv) (profile : Profile)

/-! ### Routes -/

def isRouteChar (c : Char) : Bool :=
  (0x21 ≤ c.toNat && c.toNat ≤ 0x7E) && !("\x7b\x7d*?#%\\".toList.contains c)

def isRoutePrefix (text : List Char) : Bool :=
  text = ['/'] ||
    match text with
    | '/' :: path => (segments path).all fun segment =>
      !(["".toList, ".".toList, "..".toList].contains segment) && segment.all isRouteChar
    | _ => false

/-- The upstream's URL is an http(s) one, and nothing but its origin and its path. -/
def isUpstream (url : Url) : Bool :=
  ConfigEnv.isHttp url && url.username = [] && url.password = [] && url.query.isNone &&
    url.fragment.isNone

/-- Where an entry's requests are sent. -/
def checkUpstream (entry upstreamUrl : String) : Except String Unit :=
  match (env.parse upstreamUrl).filter isUpstream with
  | none => .error (entry ++ "upstream_url must be an http(s) URL with a host and " ++
      "no user info, query or fragment")
  | some upstream =>
    ensure (profile ≠ .prod || upstream.scheme = "https".toList || env.isLoopback upstream)
      (entry ++ "upstream_url must be https for the prod profile (or loopback), since the " ++
        "session's bearer token is sent to it. Set WA_PROFILE=dev for local development")

def checkRoute (routes : List RouteConfig) : RouteConfig × ℕ → Except String Unit
  | (route, index) => do
    let entry := "`routes` entry " ++ env.debug route.pathPrefix ++ ": "
    ensure (isRoutePrefix route.pathPrefix.toList)
      (entry ++ "path_prefix must be `/` or start with `/`, without a trailing `/`, empty or " ++
        "`.`/`..` segments, or any of `\x7b\x7d*?#%\\`")
    ensure (!reservedPrefixes.contains route.pathPrefix)
      (entry ++ "path_prefix is one of bff's own paths ([\"/login\", \"/callback\", " ++
        "\"/logout\", \"/logged-out\", \"/health\"])")
    ensure (!(routes.take index).any fun other => other.pathPrefix = route.pathPrefix)
      ("`routes` has two entries for path_prefix " ++ env.debug route.pathPrefix)
    checkUpstream env profile entry route.upstreamUrl

def checkRoutes (routes : List RouteConfig) : Except String Unit :=
  routes.zipIdx.forM (checkRoute env profile routes)

/-! ### Where a browser may be sent -/

/-- The entry is an absolute URL that a browser may be sent to. -/
def isRedirectUri (entry : String) : Bool :=
  (entry.toList.all fun c => 0x21 ≤ c.toNat && c.toNat < 0x7F) &&
    (env.parse entry).any fun url =>
      (match profile with
        | .prod => url.scheme = "https".toList
        | .dev => url.scheme = "http".toList || url.scheme = "https".toList) &&
      url.host.isSome && url.username = [] && url.password = [] && url.fragment.isNone

def checkRedirectUri (entry : String) : Except String Unit :=
  ensure (isRedirectUri env profile entry)
    ("WA_REDIRECT_URI_ALLOWLIST (redirect_uri_allowlist) entry " ++ env.debug entry ++
      " must be an absolute " ++ (if profile = .prod then "https" else "http(s)") ++
      " URL without user info or a fragment")

def checkRedirectUriAllowlist (allowlist : List String) : Except String Unit := do
  ensure (profile ≠ .prod || !allowlist.isEmpty)
    ("WA_REDIRECT_URI_ALLOWLIST (redirect_uri_allowlist) must list at least one URL for the " ++
      "prod profile. Set WA_PROFILE=dev for local development")
  allowlist.forM (checkRedirectUri env profile)

/-! ### Whom bff believes -/

/-- Wider than IPv4 /8 or IPv6 /32. -/
def tooWideToTrust : IpNet → Bool
  | .v4 _ prefixLen => prefixLen < 8
  | .v6 _ prefixLen => prefixLen < 32

/-- An origin's text, as it is compared with a browser's `Origin`. -/
def checkTrustedOrigin (entry : String) : Except String String := do
  let origin := trimSlashes entry
  ensure ((env.parse origin).any fun url => Url.asciiOrigin env.rules url = origin.toList)
    ("WA_TRUSTED_ORIGINS (trusted_origins) entry " ++ env.debug origin ++ " must be an origin " ++
      "such as https://app.example.com (scheme and host, lowercase, no path, no default port, " ++
      "no *)")
  ensure (profile ≠ .prod || "https://".toList.isPrefixOf origin.toList)
    ("WA_TRUSTED_ORIGINS (trusted_origins) entry " ++ env.debug origin ++ " must be https for " ++
      "the prod profile. Set WA_PROFILE=dev for local development")
  return origin

namespace Config

variable (config : Config)

/-! ### The rest -/

/-- `secure_cookies`, `session_cookie` and `login_cookie`. -/
def cookies : CookieConfig where
  sessionCookieName := config.sessionCookieName.toList
  secureCookies := (env.parse config.bffUrl).any fun url => url.scheme = "https".toList

/-- Hydra's URLs have no slash at their ends. -/
@[simps] def trimmed : Config :=
  { config with
    hydraPublicUrl := trimSlashes config.hydraPublicUrl
    hydraInternalUrl := trimSlashes config.hydraInternalUrl }

def checkCredentials : Except String Unit := do
  ensure ((env.parse config.hydraInternalUrl).any ConfigEnv.isHttp)
    "WA_HYDRA_INTERNAL_URL must be an http(s) URL"
  ensure (!config.bffClientId.isEmpty) "WA_BFF_CLIENT_ID must not be empty"
  ensure (!config.bffClientSecret.isEmpty) "WA_BFF_CLIENT_SECRET (bff_client_secret) must be set"
  let apiKeyLen := config.internalApiKey.utf8ByteSize
  ensure (0 < apiKeyLen) "WA_BFF_INTERNAL_API_KEY (internal_api_key) must be set"
  ensure (profile ≠ .prod || minProdApiKeyLen ≤ apiKeyLen)
    ("WA_BFF_INTERNAL_API_KEY must be at least " ++ toString minProdApiKeyLen ++
      " characters for the prod profile")
  ensure (profile ≠ .prod || !([config.bffClientSecret, config.internalApiKey].any fun secret =>
      committedDevSecrets.contains secret))
    ("WA_BFF_CLIENT_SECRET and WA_BFF_INTERNAL_API_KEY must not be the committed dev " ++
      "credentials for the prod profile")

def checkCookieNames : Except String Unit := do
  let cookies := config.cookies env
  ensure (isCookieToken cookies.sessionCookieName)
    ("WA_SESSION_COOKIE_NAME (session_cookie_name) must be a cookie name: letters, digits and " ++
      "!#$%&'*+-.^_`|~")
  ensure (cookies.sessionCookie != cookies.loginCookie)
    "WA_SESSION_COOKIE_NAME (session_cookie_name) must differ from the login cookie \"wa_login\""
  ensure (cookies.secureCookies || !(hasPrefix cookies.sessionCookieName hostCookiePrefix ||
      hasPrefix cookies.sessionCookieName secureCookiePrefix))
    ("WA_SESSION_COOKIE_NAME (session_cookie_name) must not start with \"__Host-\" or " ++
      "\"__Secure-\" while WA_BFF_URL is not https: browsers drop such a cookie")

def checkNumbers : Except String Unit := do
  ensure (1 ≤ config.hydraRefreshTokenTtlSecs &&
      config.hydraRefreshTokenTtlSecs ≤ maxRefreshTokenTtlSecs)
    "WA_HYDRA_REFRESH_TOKEN_TTL_SECS must be between 1 and 315360000 seconds"
  ensure (config.port ≠ config.internalPort)
    "WA_BFF_PORT and WA_BFF_INTERNAL_PORT must differ"

def checkRateLimits : Except String Unit := do
  ensure (config.rateLimitMaxAttempts ≠ 0)
    "WA_RATE_LIMIT_MAX_ATTEMPTS (rate_limit_max_attempts) must be at least 1"
  ensure (config.rateLimitProxyMaxAttempts ≠ 0) "rate_limit_proxy_max_attempts must be at least 1"
  match config.trustedProxies.find? tooWideToTrust with
  | none => .ok ()
  | some tooWide =>
    ensure (profile ≠ .prod)
      ("WA_TRUSTED_PROXIES (trusted_proxies) contains " ++ env.displayNet tooWide ++ ", wider " ++
        "than IPv4 /8 or IPv6 /32, which would let clients in it pick their own rate-limit key; " ++
        "list the proxies' own addresses")

/-- Under `dev` the limits that were not set are wider. -/
def limited (contains : String → Bool) : Config :=
  { config with
    rateLimitMaxAttempts :=
      if !contains "rate_limit_max_attempts" && profile = .dev then 100
      else config.rateLimitMaxAttempts
    rateLimitProxyMaxAttempts :=
      if !contains "rate_limit_proxy_max_attempts" && profile = .dev then 6000
      else config.rateLimitProxyMaxAttempts }

end Config

/-- Under `prod` Hydra's URLs are set: their defaults are localhost addresses. -/
def checkIsSet (contains : String → Bool) : String × String → Except String Unit
  | (var, key) => ensure (profile ≠ .prod || contains key)
    (var ++ " (or `" ++ key ++ "` in the config file) must be set for the prod profile; its " ++
      "default is a localhost address. Set WA_PROFILE=dev for local development")

/-- The URLs that a browser sees. -/
def Config.publicUrls (config : Config) : List (String × String × Common.PublicUrl) :=
  [("WA_BFF_URL", config.bffUrl, .base), ("WA_HYDRA_PUBLIC_URL", config.hydraPublicUrl, .base)]

/-- `Config::load`, of what the deployer set. -/
def load (user : UserSettings Config) : Except String Config := do
  let profile ← user.profile
  [("WA_HYDRA_PUBLIC_URL", "hydra_public_url"),
    ("WA_HYDRA_INTERNAL_URL", "hydra_internal_url")].forM (checkIsSet profile user.contains)
  let config ← user.extract Config.default
  requireHttpsInProd env.rules profile config.publicUrls
  let config := config.trimmed
  config.checkCredentials env profile
  config.checkCookieNames env
  checkRoutes env profile config.routes
  config.checkNumbers
  checkRedirectUriAllowlist env profile config.redirectUriAllowlist
  config.defaultRedirectUri.toList.forM fun uri => checkRedirectUriAllowlist env profile [uri]
  config.checkRateLimits env profile
  let trustedOrigins ← config.trustedOrigins.mapM (checkTrustedOrigin env profile)
  return ({ config with trustedOrigins }).limited profile user.contains

end Checks

/-! ### What is accepted -/

section Accepted

variable {env : ConfigEnv} {profile : Profile}

/-- Where a route's requests may be sent. -/
def IsUpstreamUrl (env : ConfigEnv) (profile : Profile) (text : String) : Prop :=
  ∃ url, env.parse text = some url ∧ isUpstream url = true ∧
    (profile = .prod → url.scheme = "https".toList ∨ env.isLoopback url = true)

theorem checkUpstream_eq_ok {entry upstreamUrl : String} :
    checkUpstream env profile entry upstreamUrl = .ok ⟨⟩ ↔
      IsUpstreamUrl env profile upstreamUrl := by
  rw [checkUpstream, IsUpstreamUrl]
  cases hurl : env.parse upstreamUrl with
  | none => simp
  | some url =>
    by_cases hupstream : isUpstream url = true
    · rw [Option.filter_some_pos hupstream]
      simp only [ensure_eq_ok, Bool.or_eq_true, decide_eq_true_eq, Option.some.injEq,
        exists_eq_left', hupstream, true_and]
      tauto
    · rw [Option.filter_some_neg (by simpa using hupstream)]
      simp [hupstream]

/-- What a route has to be, whatever the others are. -/
structure RouteConfig.Valid (env : ConfigEnv) (profile : Profile) (route : RouteConfig) :
    Prop where
  isRoutePrefix : Bff.isRoutePrefix route.pathPrefix.toList = true
  notReserved : route.pathPrefix ∉ reservedPrefixes
  upstream : IsUpstreamUrl env profile route.upstreamUrl

theorem checkRoute_eq_ok {routes : List RouteConfig} {entry : RouteConfig × ℕ} :
    checkRoute env profile routes entry = .ok ⟨⟩ ↔ entry.1.Valid env profile ∧
      entry.1.pathPrefix ∉ (routes.map RouteConfig.pathPrefix).take entry.2 := by
  have hother : (!(routes.take entry.2).any fun other =>
      decide (other.pathPrefix = entry.1.pathPrefix)) = true ↔
        entry.1.pathPrefix ∉ (routes.map RouteConfig.pathPrefix).take entry.2 := by
    rw [← List.map_take, Bool.not_eq_true', List.any_eq_false, List.mem_map]
    simp
  simp only [checkRoute, check_bind_eq_ok, ensure_eq_ok, checkUpstream_eq_ok, hother]
  constructor
  · rintro ⟨hroute, hreserved, hfirst, hupstream⟩
    exact ⟨⟨hroute, by simpa using hreserved, hupstream⟩, hfirst⟩
  · rintro ⟨⟨hroute, hreserved, hupstream⟩, hfirst⟩
    exact ⟨hroute, by simpa using hreserved, hfirst, hupstream⟩

theorem notMem_take_iff_nodup {α : Type} {l : List α} :
    (∀ a i, l[i]? = some a → a ∉ l.take i) ↔ l.Nodup := by
  rw [List.nodup_iff_getElem?_ne_getElem?]
  constructor
  · intro h i j hij hj heq
    rw [List.getElem?_eq_getElem hj] at heq
    refine h l[j] j (List.getElem?_eq_getElem hj) ?_
    exact List.mem_iff_getElem?.mpr ⟨i, by rw [List.getElem?_take_of_lt hij, heq]⟩
  · intro h a j ha hmem
    obtain ⟨i, hi⟩ := List.mem_iff_getElem?.mp hmem
    obtain ⟨hlt, hi⟩ := Option.ite_none_right_eq_some.mp (List.getElem?_take.symm.trans hi)
    obtain ⟨hj, -⟩ := List.getElem?_eq_some_iff.mp ha
    exact h i j hlt hj (hi.trans ha.symm)

/-- **Which routes are accepted.** -/
theorem checkRoutes_eq_ok {routes : List RouteConfig} :
    checkRoutes env profile routes = .ok ⟨⟩ ↔ (∀ route ∈ routes, route.Valid env profile) ∧
      (routes.map RouteConfig.pathPrefix).Nodup := by
  simp only [checkRoutes, forM_eq_ok, checkRoute_eq_ok, List.mem_zipIdx_iff_getElem?,
    ← notMem_take_iff_nodup]
  constructor
  · intro h
    refine ⟨fun route hroute => ?_, fun text i htext => ?_⟩
    · obtain ⟨i, hi⟩ := List.mem_iff_getElem?.mp hroute
      exact (h (route, i) hi).1
    · rw [List.getElem?_map] at htext
      obtain ⟨route, hroute, rfl⟩ := Option.map_eq_some_iff.mp htext
      exact (h (route, i) hroute).2
  · rintro ⟨hvalid, hnodup⟩ ⟨route, i⟩ hroute
    refine ⟨hvalid route (List.mem_iff_getElem?.mpr ⟨i, hroute⟩), hnodup _ i ?_⟩
    rw [List.getElem?_map, hroute]
    rfl

/-- Where a browser may be sent. -/
theorem checkRedirectUriAllowlist_eq_ok {allowlist : List String} :
    checkRedirectUriAllowlist env profile allowlist = .ok ⟨⟩ ↔
      (profile = .prod → allowlist ≠ []) ∧
        ∀ entry ∈ allowlist, isRedirectUri env profile entry = true := by
  simp only [checkRedirectUriAllowlist, check_bind_eq_ok, forM_eq_ok, checkRedirectUri,
    ensure_eq_ok, Bool.or_eq_true, decide_eq_true_eq, Bool.not_eq_true', List.isEmpty_eq_false_iff]
  rw [← imp_iff_not_or]

/-- The text is that of the origin of the URL it is. -/
def IsTrustedOrigin (env : ConfigEnv) (profile : Profile) (origin : String) : Prop :=
  (∃ url, env.parse origin = some url ∧ Url.asciiOrigin env.rules url = origin.toList) ∧
    (profile = .prod → "https://".toList <+: origin.toList)

theorem checkTrustedOrigin_eq_ok {entry origin : String} :
    checkTrustedOrigin env profile entry = .ok origin ↔
      trimSlashes entry = origin ∧ IsTrustedOrigin env profile origin := by
  simp only [checkTrustedOrigin, check_bind_eq_ok, ensure_eq_ok, Bool.or_eq_true,
    decide_eq_true_eq, Option.any_eq_true, pure, Except.pure, Except.ok.injEq,
    List.isPrefixOf_iff_prefix, IsTrustedOrigin, imp_iff_not_or]
  constructor
  · rintro ⟨horigin, hhttps, rfl⟩
    exact ⟨rfl, horigin, hhttps⟩
  · rintro ⟨rfl, horigin, hhttps⟩
    exact ⟨horigin, hhttps, rfl⟩

/-- All of them, without slashes at their ends. -/
theorem mapM_checkTrustedOrigin_eq_ok {entries origins : List String} :
    entries.mapM (checkTrustedOrigin env profile) = .ok origins ↔
      entries.map trimSlashes = origins ∧
        ∀ origin ∈ origins, IsTrustedOrigin env profile origin := by
  induction entries generalizing origins with
  | nil =>
    simp only [List.mapM_nil, pure, Except.pure, Except.ok.injEq, List.map_nil]
    constructor
    · rintro rfl
      exact ⟨rfl, by simp⟩
    · rintro ⟨rfl, -⟩
      rfl
  | cons entry entries ih =>
    simp only [List.mapM_cons, bind_eq_ok, checkTrustedOrigin_eq_ok, ih, pure, Except.pure,
      Except.ok.injEq, List.map_cons]
    constructor
    · rintro ⟨origin, ⟨rfl, horigin⟩, _, ⟨rfl, horigins⟩, rfl⟩
      exact ⟨rfl, List.forall_mem_cons.mpr ⟨horigin, horigins⟩⟩
    · rintro ⟨rfl, horigins⟩
      obtain ⟨horigin, horigins⟩ := List.forall_mem_cons.mp horigins
      exact ⟨_, ⟨rfl, horigin⟩, _, ⟨rfl, horigins⟩, rfl⟩

namespace Config

/-- What the credentials have to be. -/
structure HasCredentials (env : ConfigEnv) (profile : Profile) (config : Config) : Prop where
  internalUrl : ∃ url, env.parse config.hydraInternalUrl = some url ∧ ConfigEnv.isHttp url = true
  clientId : config.bffClientId ≠ ""
  clientSecret : config.bffClientSecret ≠ ""
  apiKey : config.internalApiKey ≠ ""
  prodApiKey : profile = .prod → 16 ≤ config.internalApiKey.utf8ByteSize
  notCommitted : profile = .prod → config.bffClientSecret ∉ committedDevSecrets ∧
    config.internalApiKey ∉ committedDevSecrets

variable {config : Config}

theorem checkCredentials_eq_ok : config.checkCredentials env profile = .ok ⟨⟩ ↔
    config.HasCredentials env profile := by
  have hsize : 0 < config.internalApiKey.utf8ByteSize ↔ config.internalApiKey ≠ "" := by
    rw [Nat.pos_iff_ne_zero, ne_eq, ne_eq, String.utf8ByteSize_eq_zero_iff]
  simp only [checkCredentials, check_bind_eq_ok, ensure_eq_ok, Option.any_eq_true,
    Bool.not_eq_true', String.isEmpty_eq_false_iff, decide_eq_true_eq, Bool.or_eq_true, hsize,
    List.any_cons, List.any_nil, Bool.or_false, Bool.or_eq_false_iff, List.contains_eq_mem,
    decide_eq_false_iff_not]
  constructor
  · rintro ⟨hinternal, hid, hsecret, hkey, hprod, hcommitted⟩
    exact ⟨hinternal, hid, hsecret, hkey, fun h => hprod.resolve_left (not_not_intro h),
      fun h => hcommitted.resolve_left (not_not_intro h)⟩
  · rintro ⟨hinternal, hid, hsecret, hkey, hprod, hcommitted⟩
    exact ⟨hinternal, hid, hsecret, hkey, imp_iff_not_or.mp hprod, imp_iff_not_or.mp hcommitted⟩

theorem checkCookieNames_eq_ok :
    config.checkCookieNames env = .ok ⟨⟩ ↔ (config.cookies env).accepted = true := by
  simp only [checkCookieNames, check_bind_eq_ok, ensure_eq_ok, CookieConfig.accepted,
    Bool.and_eq_true, and_assoc]

theorem checkNumbers_eq_ok : config.checkNumbers = .ok ⟨⟩ ↔
    (1 ≤ config.hydraRefreshTokenTtlSecs.toInt ∧
      config.hydraRefreshTokenTtlSecs.toInt ≤ 315360000) ∧ config.port ≠ config.internalPort := by
  have hmax : maxRefreshTokenTtlSecs.toInt = 315360000 := by decide
  have hone : (1 : Int64).toInt = 1 := by decide
  simp only [checkNumbers, check_bind_eq_ok, ensure_eq_ok, Bool.and_eq_true, decide_eq_true_eq,
    Int64.le_iff_toInt_le, hmax, hone]

theorem checkRateLimits_eq_ok : config.checkRateLimits env profile = .ok ⟨⟩ ↔
    config.rateLimitMaxAttempts ≠ 0 ∧ config.rateLimitProxyMaxAttempts ≠ 0 ∧
      (profile = .prod → ∀ net ∈ config.trustedProxies, tooWideToTrust net = false) := by
  simp only [checkRateLimits, check_bind_eq_ok, ensure_eq_ok, decide_eq_true_eq]
  refine and_congr_right fun _ => and_congr_right fun _ => ?_
  cases hfind : config.trustedProxies.find? tooWideToTrust with
  | none => exact iff_of_true rfl fun _ => by simpa using List.find?_eq_none.mp hfind
  | some net =>
    simp only [ensure_eq_ok, decide_eq_true_eq]
    refine ⟨fun hdev hprod => absurd hprod hdev, fun hnets hprod => ?_⟩
    have htoo : tooWideToTrust net = true := List.find?_some hfind
    rw [hnets hprod net (List.mem_of_find?_eq_some hfind)] at htoo
    cases htoo

theorem cookies_trimmed : config.trimmed.cookies env = config.cookies env := rfl

/-- What a configuration has to be. -/
structure Valid (env : ConfigEnv) (profile : Profile) (config : Config) : Prop where
  publicUrls : profile = .prod →
    ∀ entry ∈ config.publicUrls, Common.IsPublic env.rules entry.2.1 entry.2.2
  credentials : config.trimmed.HasCredentials env profile
  cookies : (config.cookies env).accepted = true
  routes : (∀ route ∈ config.routes, route.Valid env profile) ∧
    (config.routes.map RouteConfig.pathPrefix).Nodup
  refreshTokenTtl : 1 ≤ config.hydraRefreshTokenTtlSecs.toInt ∧
    config.hydraRefreshTokenTtlSecs.toInt ≤ 315360000
  ports : config.port ≠ config.internalPort
  allowlist : profile = .prod → config.redirectUriAllowlist ≠ []
  redirectUris : ∀ uri ∈ config.redirectUriAllowlist ++ config.defaultRedirectUri.toList,
    isRedirectUri env profile uri = true
  rateLimits : config.rateLimitMaxAttempts ≠ 0 ∧ config.rateLimitProxyMaxAttempts ≠ 0
  trustedProxies : profile = .prod → ∀ net ∈ config.trustedProxies, tooWideToTrust net = false
  trustedOrigins : ∀ entry ∈ config.trustedOrigins,
    IsTrustedOrigin env profile (trimSlashes entry)

/-- What is made of it. -/
def loaded (profile : Profile) (contains : String → Bool) (config : Config) : Config :=
  ({ config.trimmed with trustedOrigins := config.trustedOrigins.map trimSlashes }).limited profile
    contains

end Config

/-- What of Hydra's URLs has to be set. -/
def HydraIsSet (profile : Profile) (contains : String → Bool) : Prop :=
  profile = .prod → contains "hydra_public_url" = true ∧ contains "hydra_internal_url" = true

theorem forM_checkIsSet_eq_ok {contains : String → Bool} :
    [("WA_HYDRA_PUBLIC_URL", "hydra_public_url"),
      ("WA_HYDRA_INTERNAL_URL", "hydra_internal_url")].forM (checkIsSet profile contains) = .ok ⟨⟩ ↔
      HydraIsSet profile contains := by
  simp only [forM_eq_ok, checkIsSet, ensure_eq_ok, List.forall_mem_cons, List.not_mem_nil,
    false_implies, implies_true, and_true, Bool.or_eq_true, decide_eq_true_eq, HydraIsSet,
    ← imp_iff_not_or, imp_and]

/-- **What is accepted.** -/
theorem load_eq_ok {user : UserSettings Config} {config : Config} :
    load env user = .ok config ↔ ∃ profile given, user.profile = .ok profile ∧
      user.extract Config.default = .ok given ∧ HydraIsSet profile user.contains ∧
      given.Valid env profile ∧ config = given.loaded profile user.contains := by
  simp only [load, ↓check_bind_eq_ok, bind_eq_ok, ↓forM_checkIsSet_eq_ok, forM_eq_ok,
    Common.requireHttpsInProd_eq_ok, Config.checkCredentials_eq_ok, Config.checkCookieNames_eq_ok,
    checkRoutes_eq_ok, Config.checkNumbers_eq_ok, checkRedirectUriAllowlist_eq_ok,
    Config.checkRateLimits_eq_ok, mapM_checkTrustedOrigin_eq_ok, pure, Except.pure,
    Except.ok.injEq, Config.cookies_trimmed, Config.trimmed_routes,
    Config.trimmed_hydraRefreshTokenTtlSecs, Config.trimmed_port, Config.trimmed_internalPort,
    Config.trimmed_redirectUriAllowlist, Config.trimmed_defaultRedirectUri,
    Config.trimmed_rateLimitMaxAttempts, Config.trimmed_rateLimitProxyMaxAttempts,
    Config.trimmed_trustedProxies, Config.trimmed_trustedOrigins]
  constructor
  · rintro ⟨profile, hprofile, hset, given, hgiven, hpublic, hcredentials, hcookies, hroutes,
      ⟨httl, hports⟩, ⟨hallowlist, hallowed⟩, hdefault, ⟨hlimit, hproxyLimit, hproxies⟩, _,
      ⟨rfl, horigins⟩, rfl⟩
    refine ⟨profile, given, hprofile, hgiven, hset, ?_, rfl⟩
    refine ⟨hpublic, hcredentials, hcookies, hroutes, httl, hports, hallowlist, fun uri huri => ?_,
      ⟨hlimit, hproxyLimit⟩, hproxies, List.forall_mem_map.mp horigins⟩
    rcases List.mem_append.mp huri with huri | huri
    · exact hallowed uri huri
    · exact (hdefault uri huri).2 uri List.mem_cons_self
  · rintro ⟨profile, given, hprofile, hgiven, hset, hvalid, rfl⟩
    refine ⟨profile, hprofile, hset, given, hgiven, hvalid.publicUrls, hvalid.credentials,
      hvalid.cookies, hvalid.routes, ⟨hvalid.refreshTokenTtl, hvalid.ports⟩,
      ⟨hvalid.allowlist, fun uri huri => hvalid.redirectUris uri (List.mem_append_left _ huri)⟩,
      fun uri huri => ⟨fun _ => List.cons_ne_nil _ _, fun entry hentry => ?_⟩,
      ⟨hvalid.rateLimits.1, hvalid.rateLimits.2, hvalid.trustedProxies⟩, _,
      ⟨rfl, List.forall_mem_map.mpr hvalid.trustedOrigins⟩, rfl⟩
    obtain rfl := List.mem_singleton.mp hentry
    exact hvalid.redirectUris entry (List.mem_append_right _ huri)

end Accepted

end Bff

end WeaveAuth
