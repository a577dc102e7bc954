import WeaveAuth.Chrono
import WeaveAuth.ForMathlib.Except
import WeaveAuth.Hooks.Upstream
import WeaveAuth.Net

/-!
# The configuration of hooks

`hooks/src/config.rs`: what the deployer sets, and what is refused. What `url::Url::parse` makes of
a URL is left open.

## Main results

* `validate_eq_ok`: which configurations are accepted, and what becomes of them

## Implementation notes

A check is a function, with what it makes of its field; the texts of the errors are the source's,
since which field is named is a part of what is refused. The order is the source's too: the first
check that fails is the one that is reported.

## What is left out

`load`: how the fields come from a file and the environment, and which of them the `prod` profile
wants to be set. A `Config` is any that may come out of that. The port is read by no function here.
-/

namespace WeaveAuth

namespace Hooks

open Fallible

/-- `url::Host`. -/
inductive Host where
  | domain (name : String)
  | ip (address : Net.IpAddr)

/-- What `url::Url::parse` finds in a URL. -/
structure ParsedUrl where
  scheme : String
  host : Option Host

/-- A deployer's endpoint. -/
structure WebhookConfig where
  url : String
  timeoutSecs : UInt64

structure Config where
  hooksApiKey : String
  kratosAdminUrl : String
  hydraAdminUrl : String
  bffInternalUrl : String
  bffInternalApiKey : String
  registrationHandler : Option WebhookConfig
  loginClaimsHandler : Option WebhookConfig
  verificationHandler : Option WebhookConfig
  profileApis : List (String × List ProfileApiConfig)
  requireVerifiedEmail : Bool
  /-- Cap on how long any request is served. -/
  requestTimeoutSecs : UInt64
  /-- Cap on each call to Kratos, Hydra or bff. -/
  upstreamTimeoutSecs : UInt64

/-- `Config::default`. -/
def Config.default : Config where
  hooksApiKey := ""
  kratosAdminUrl := "http://localhost:4434"
  hydraAdminUrl := "http://localhost:4445"
  bffInternalUrl := "http://localhost:8082"
  bffInternalApiKey := ""
  registrationHandler := none
  loginClaimsHandler := none
  verificationHandler := none
  profileApis := []
  requireVerifiedEmail := true
  requestTimeoutSecs := 30
  upstreamTimeoutSecs := 10

/-- `u64::saturating_mul`. -/
def saturatingMul (a b : UInt64) : UInt64 := .ofNat (min (a.toNat * b.toNat) (2 ^ 64 - 1))

/-- `anyhow::ensure!`. -/
def ensure (condition : Bool) (message : String) : Except String Unit :=
  if condition then .ok () else .error message

variable (parse : String → Except String ParsedUrl)

/-- `str::trim_end_matches('/')`. -/
def trimSlashes (url : String) : String := String.ofList (url.toList.rdropWhile (· = '/'))

def isHttp (parsed : ParsedUrl) : Bool :=
  (parsed.scheme = "http" || parsed.scheme = "https") && parsed.host.isSome

/-- The URL of an upstream, without a slash at its end. -/
def upstreamUrl (var url : String) : Except String String :=
  match parse url with
  | .error error => .error ("invalid " ++ var ++ ": " ++ error)
  | .ok parsed => do
    ensure (isHttp parsed) (var ++ " must be an http(s) URL")
    return trimSlashes url

/-- `IpAddr::is_loopback`. -/
def isLoopbackIp : Net.IpAddr → Bool
  | .v4 address => address >>> 24 = 127#32
  | .v6 address => address = 1#128

def isLoopback : Option Host → Bool
  | some (.domain name) => name = "localhost"
  | some (.ip address) => isLoopbackIp address
  | none => false

/-- Rejects a plaintext URL to a host that is not this one. -/
def requireHttpsOrLoopback (what url : String) : Except String Unit :=
  match parse url with
  | .error error => .error ("invalid " ++ what ++ ": " ++ error)
  | .ok parsed => ensure (parsed.scheme = "https" || isLoopback parsed.host)
      (what ++ " must use https (http is only allowed for loopback hosts)")

namespace Config

variable (config : Config)

/-- The handlers there are, under their settings' names. -/
def handlers : List (String × WebhookConfig) :=
  [("registration_handler", config.registrationHandler),
    ("login_claims_handler", config.loginClaimsHandler),
    ("verification_handler", config.verificationHandler)].filterMap fun (what, handler) =>
      handler.map fun handler => (what, handler)

/-- Every profile API call, of any provider. -/
def allProfileApis : List ProfileApiConfig := config.profileApis.flatMap Prod.snd

/-- A handler's URL is safe to call. -/
def checkHandlerUrl : String × WebhookConfig → Except String Unit
  | (what, handler) => requireHttpsOrLoopback parse what handler.url

/-- A handler answers within half of the request's time. -/
def checkHandlerTimeout : String × WebhookConfig → Except String Unit
  | (what, handler) =>
    ensure (0 < handler.timeoutSecs &&
        saturatingMul handler.timeoutSecs 2 ≤ config.requestTimeoutSecs)
      (what ++ " timeout_secs must be positive and at most half of request_timeout_secs")

def validate : Except String Config := do
  let kratosAdminUrl ← upstreamUrl parse "WA_KRATOS_ADMIN_URL" config.kratosAdminUrl
  let hydraAdminUrl ← upstreamUrl parse "WA_HYDRA_ADMIN_URL" config.hydraAdminUrl
  let bffInternalUrl ← upstreamUrl parse "WA_BFF_INTERNAL_URL" config.bffInternalUrl
  config.handlers.forM (checkHandlerUrl parse)
  config.allProfileApis.forM fun api => requireHttpsOrLoopback parse "profile api url" api.url
  ensure (0 < config.requestTimeoutSecs && 0 < config.upstreamTimeoutSecs)
    "timeouts must be positive"
  ensure (saturatingMul config.upstreamTimeoutSecs 2 < config.requestTimeoutSecs)
    "upstream_timeout_secs must be less than half of request_timeout_secs"
  config.handlers.forM config.checkHandlerTimeout
  return { config with kratosAdminUrl, hydraAdminUrl, bffInternalUrl }

/-- Refuses to serve with an empty API key. -/
def requireApiKeys : Except String Unit := do
  ensure (!config.hooksApiKey.isEmpty) "WA_HOOKS_API_KEY must be set"
  ensure (!config.bffInternalApiKey.isEmpty) "WA_BFF_INTERNAL_API_KEY must be set"

end Config

/-- `AppState::new`. -/
def AppState.new (crates : Crates) (config : Config) : Except String AppState := do
  config.requireApiKeys
  return {
    crates
    registration := config.registrationHandler.isSome
    loginClaims := config.loginClaimsHandler.isSome
    profileApis := config.profileApis
    requestTimeout := fromSecs config.requestTimeoutSecs.toNat
    requireVerifiedEmail := config.requireVerifiedEmail }

/-! ### What is accepted -/

theorem ensure_eq_ok {condition : Bool} {message : String} :
    ensure condition message = .ok ⟨⟩ ↔ condition = true := by
  cases condition <;> simp [ensure]

theorem toNat_saturatingMul (a b : UInt64) :
    (saturatingMul a b).toNat = min (a.toNat * b.toNat) (2 ^ 64 - 1) := by
  rw [saturatingMul, UInt64.toNat_ofNat', Nat.mod_eq_of_lt]
  omega

/-- A URL that may carry a user's data. -/
def IsSafeUrl (url : String) : Prop :=
  ∃ parsed, parse url = .ok parsed ∧ (parsed.scheme = "https" ∨ isLoopback parsed.host = true)

variable {parse}

theorem upstreamUrl_eq_ok {var url url' : String} : upstreamUrl parse var url = .ok url' ↔
    (∃ parsed, parse url = .ok parsed ∧ isHttp parsed = true) ∧ trimSlashes url = url' := by
  cases hparse : parse url with
  | error error => simp [upstreamUrl, hparse]
  | ok parsed =>
    simp only [upstreamUrl, hparse, check_bind_eq_ok, ensure_eq_ok, pure, Except.pure,
      Except.ok.injEq, exists_eq_left']

theorem requireHttpsOrLoopback_eq_ok {what url : String} :
    requireHttpsOrLoopback parse what url = .ok ⟨⟩ ↔ IsSafeUrl parse url := by
  cases hparse : parse url with
  | error error => simp [requireHttpsOrLoopback, hparse, IsSafeUrl]
  | ok parsed => simp [requireHttpsOrLoopback, hparse, IsSafeUrl, ensure_eq_ok]

namespace Config

/-- What a configuration has to be. A handler's timeout, doubled, may be cut off where the
numbers end. -/
structure Valid (parse : String → Except String ParsedUrl) (config : Config) : Prop where
  upstreams : ∀ url ∈ [config.kratosAdminUrl, config.hydraAdminUrl, config.bffInternalUrl],
    ∃ parsed, parse url = .ok parsed ∧ isHttp parsed = true
  handlers : ∀ entry ∈ config.handlers, IsSafeUrl parse entry.2.url ∧
    0 < entry.2.timeoutSecs.toNat ∧
    min (entry.2.timeoutSecs.toNat * 2) (2 ^ 64 - 1) ≤ config.requestTimeoutSecs.toNat
  profileApis : ∀ api ∈ config.allProfileApis, IsSafeUrl parse api.url
  upstreamTimeout : 0 < config.upstreamTimeoutSecs.toNat ∧
    2 * config.upstreamTimeoutSecs.toNat < config.requestTimeoutSecs.toNat

/-- The configuration without slashes at the ends of the upstreams' URLs. -/
def trimmed (config : Config) : Config :=
  { config with
    kratosAdminUrl := trimSlashes config.kratosAdminUrl
    hydraAdminUrl := trimSlashes config.hydraAdminUrl
    bffInternalUrl := trimSlashes config.bffInternalUrl }

variable {config config' : Config}

theorem checkHandlerUrl_eq_ok {entry : String × WebhookConfig} :
    checkHandlerUrl parse entry = .ok ⟨⟩ ↔ IsSafeUrl parse entry.2.url :=
  requireHttpsOrLoopback_eq_ok

theorem checkHandlerTimeout_eq_ok {entry : String × WebhookConfig} :
    config.checkHandlerTimeout entry = .ok ⟨⟩ ↔ 0 < entry.2.timeoutSecs.toNat ∧
      min (entry.2.timeoutSecs.toNat * 2) (2 ^ 64 - 1) ≤ config.requestTimeoutSecs.toNat := by
  simp only [checkHandlerTimeout, ensure_eq_ok, Bool.and_eq_true, decide_eq_true_eq,
    UInt64.lt_iff_toNat_lt, UInt64.le_iff_toNat_le, toNat_saturatingMul]
  exact Iff.rfl

/-- Twice the upstream timeout is below the request timeout, and then nothing is cut off. -/
theorem timeouts_iff :
    (0 < config.requestTimeoutSecs ∧ 0 < config.upstreamTimeoutSecs) ∧
        saturatingMul config.upstreamTimeoutSecs 2 < config.requestTimeoutSecs ↔
      0 < config.upstreamTimeoutSecs.toNat ∧
        2 * config.upstreamTimeoutSecs.toNat < config.requestTimeoutSecs.toNat := by
  have hlt := config.requestTimeoutSecs.toNat_lt
  have htwo : (2 : UInt64).toNat = 2 := rfl
  have hzero : (0 : UInt64).toNat = 0 := rfl
  simp only [UInt64.lt_iff_toNat_lt, toNat_saturatingMul, htwo, hzero]
  omega

/-- **What is accepted.** -/
theorem validate_eq_ok : config.validate parse = .ok config' ↔
    config.Valid parse ∧ config' = config.trimmed := by
  simp only [validate, ↓check_bind_eq_ok, bind_eq_ok, upstreamUrl_eq_ok, forM_eq_ok,
    checkHandlerUrl_eq_ok, checkHandlerTimeout_eq_ok, requireHttpsOrLoopback_eq_ok, ensure_eq_ok,
    Bool.and_eq_true, decide_eq_true_eq]
  constructor
  · rintro ⟨_, ⟨hkratos, rfl⟩, _, ⟨hhydra, rfl⟩, _, ⟨hbff, rfl⟩, hurls, hapis, hpositive, hdouble,
      htimeouts, heq⟩
    refine ⟨⟨?_, ?_, hapis, timeouts_iff.mp ⟨hpositive, hdouble⟩⟩, (Except.ok.inj heq).symm⟩
    · simp only [List.forall_mem_cons, List.not_mem_nil, false_implies, implies_true, and_true]
      exact ⟨hkratos, hhydra, hbff⟩
    · exact fun entry hentry => ⟨hurls entry hentry, htimeouts entry hentry⟩
  · rintro ⟨⟨hupstreams, hhandlers, hapis, htimeout⟩, rfl⟩
    simp only [List.forall_mem_cons, List.not_mem_nil, false_implies, implies_true, and_true]
      at hupstreams
    obtain ⟨hkratos, hhydra, hbff⟩ := hupstreams
    obtain ⟨hpositive, hdouble⟩ := timeouts_iff.mpr htimeout
    exact ⟨_, ⟨hkratos, rfl⟩, _, ⟨hhydra, rfl⟩, _, ⟨hbff, rfl⟩,
      fun entry hentry => (hhandlers entry hentry).1, hapis, hpositive, hdouble,
      fun entry hentry => (hhandlers entry hentry).2, rfl⟩

/-- The defaults are accepted, with any keys. -/
theorem valid_default (hooksApiKey bffInternalApiKey : String)
    (hparse : ∀ url ∈ ["http://localhost:4434", "http://localhost:4445", "http://localhost:8082"],
      parse url = .ok ⟨"http", some (.domain "localhost")⟩) :
    Config.Valid parse { Config.default with hooksApiKey, bffInternalApiKey } where
  upstreams url hurl := ⟨_, hparse url hurl, rfl⟩
  handlers := by simp [handlers, Config.default]
  profileApis := by simp [allProfileApis, Config.default]
  upstreamTimeout := by
    change 0 < (10 : UInt64).toNat ∧ 2 * (10 : UInt64).toNat < (30 : UInt64).toNat
    decide

end Config

/-- Serving starts with both keys only. -/
theorem AppState.new_eq_ok {crates : Crates} {config : Config} {state : AppState} :
    AppState.new crates config = .ok state ↔
      (config.hooksApiKey ≠ "" ∧ config.bffInternalApiKey ≠ "") ∧ state = {
        crates
        registration := config.registrationHandler.isSome
        loginClaims := config.loginClaimsHandler.isSome
        profileApis := config.profileApis
        requestTimeout := fromSecs config.requestTimeoutSecs.toNat
        requireVerifiedEmail := config.requireVerifiedEmail } := by
  simp only [AppState.new, Config.requireApiKeys, check_bind_eq_ok, ensure_eq_ok]
  constructor
  · rintro ⟨⟨hhooks, hbff⟩, heq⟩
    exact ⟨⟨by simpa using hhooks, by simpa using hbff⟩, (Except.ok.inj heq).symm⟩
  · rintro ⟨⟨hhooks, hbff⟩, rfl⟩
    exact ⟨⟨by simpa using hhooks, by simpa using hbff⟩, rfl⟩

end Hooks

end WeaveAuth
