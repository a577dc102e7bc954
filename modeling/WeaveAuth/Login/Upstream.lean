import WeaveAuth.Bff.ProxyHeaders
import WeaveAuth.ForMathlib.FormUrlencoded
import WeaveAuth.ForMathlib.Program
import WeaveAuth.ForMathlib.UrlReparse
import WeaveAuth.Hooks.Kratos
import WeaveAuth.Login.Proxy

/-!
# What login calls

`login/src/upstream.rs`, `login/src/hydra.rs` and the calls of `login/src/kratos.rs`: the requests
to Hydra's admin API and to Kratos' public one, what is made of the answers, and why one failed.

## Main results

* `Hydra.url_eq`, `Kratos.endpoint_eq`: where Hydra and Kratos are asked
* `runs_lookup`, `runs_put`, `runs_fetchFlow`, `runs_fetchError`, `runs_endSession`: what each call
  sends, and what its result says
* `unlogged_of_runs`: no failure has the query of what was asked

## What is left out

Redirects are not followed, and a timeout is one of the reasons for which there is no response. Of
an answer's JSON each function reads the fields that it needs; a field that is there twice is an
error, as a derived `Deserialize` has it.

## Implementation notes

A URL is put together by the `url` crate, from a base that was parsed when login started
(`IsSpecialUrl`). That the path ends up where it should is proved from the parser itself.
-/

namespace WeaveAuth

namespace Login

open Bff (Json)
open FormUrlencoded (serialize)
open Hooks (structFields defaultedList isSuccess)
open Program (Runs)
open Url (IsSpecialUrl)

/-- Other crates' code. -/
structure Crates where
  rules : UrlRules
  /-- `serde_json::from_slice`, with the members of an object that repeat. -/
  fromSlice : List ℕ → Option Json
  /-- What `serde_json` says of bytes that are no value of that type. -/
  cause : String → List ℕ → String
  /-- What `url` says of a text that is no URL. -/
  urlCause : Url → String → String
  /-- Whether `serde` reads a `Flow` of it. -/
  readsFlow : Json → Bool

/-! ### Failures -/

inductive UpstreamError where
  | request (service : String) (url : Url) (cause : String)
  | status (service : String) (url : Url) (status : ℕ)
  | unreadable (service : String) (url : Url) (cause : String)

/-- The URL without its query: flow ids and challenges are credentials of a sort. -/
def loggable (url : Url) : Url := url.setQuery none

def UpstreamError.url : UpstreamError → Url
  | .request _ url _ | .status _ url _ | .unreadable _ url _ => url

/-! ### Requests -/

/-- A request; one that has a body has JSON. -/
abbrev UpstreamCall := Request Url (Option Json)

inductive Reply where
  /-- No response. -/
  | failed (cause : String)
  /-- A response, with its body or why it broke off. -/
  | response (status : ℕ) (headers : HeaderMap) (body : Except String (List ℕ))

/-- A program of login. -/
abbrev Calls (α : Type) : Type := Program UpstreamCall (fun _ => Reply) α

/-- What was called, and what came back. -/
abbrev Trace : Type := List (Exchange UpstreamCall fun _ => Reply)

/-- `query_pairs_mut().append_pair`. -/
def appendPair (url : Url) (pair : List Char × List Char) : Url :=
  { url with
    query := some (match url.query with
      | none | some [] => serialize [pair]
      | some query => query ++ '&' :: serialize [pair]) }

/-- `from_slice` to a type that `decode` reads, of a body that came. -/
def readJson {α : Type} (crates : Crates) (type : String) (decode : Json → Option α)
    (body : List ℕ) : Except String α :=
  match (crates.fromSlice body).bind decode with
  | some value => .ok value
  | none => .error (crates.cause type body)

theorem isHeaderByte_applicationJson :
    ∀ b ∈ Utf8.encode "application/json".toList, isHeaderByte b = true := by
  decide

def applicationJson : HeaderValue :=
  Bff.headerValue "application/json" isHeaderByte_applicationJson

/-! ### Hydra -/

structure LogoutRequest where
  /-- Set when the app started the logout, so no one has to confirm it. -/
  rpInitiated : Bool
  deriving DecidableEq

structure ConsentClient where
  clientId : String
  deriving DecidableEq

structure ConsentRequest where
  client : ConsentClient
  requestedScope : List String
  requestedAccessTokenAudience : List String
  deriving DecidableEq

def LogoutRequest.fromJson (json : Json) : Option LogoutRequest := do
  match ← structFields ["rp_initiated"] json with
  | [none] => return ⟨false⟩
  | [some (.bool rpInitiated)] => return ⟨rpInitiated⟩
  | _ => none

def ConsentClient.fromJson (json : Json) : Option ConsentClient := do
  match ← structFields ["client_id"] json with
  | [some (.str clientId)] => return ⟨clientId⟩
  | _ => none

def ConsentRequest.fromJson (json : Json) : Option ConsentRequest := do
  match ← structFields ["client", "requested_scope", "requested_access_token_audience"] json with
  | [some client, scope, audience] =>
    return {
      client := ← ConsentClient.fromJson client
      requestedScope := ← defaultedList Json.asStr scope
      requestedAccessTokenAudience := ← defaultedList Json.asStr audience }
  | _ => none

/-- The one field of a `Redirect`. -/
def redirectFromJson (json : Json) : Option String := do
  match ← structFields ["redirect_to"] json with
  | [some (.str redirectTo)] => return redirectTo
  | _ => none

structure Hydra where
  base : Url

namespace Hydra

variable (crates : Crates) (hydra : Hydra)

def service : String := "hydra"

/-- `Hydra::new`. -/
def new (rules : UrlRules) (base : List Char) : Option Hydra :=
  (Url.parse rules none (base.rdropWhile (· = '/') ++ ['/'])).map Hydra.mk

def url (path key : String) (challenge : List Char) : Except UpstreamError Url :=
  let path := "admin/oauth2/auth/requests/" ++ path
  match Url.parse crates.rules (some hydra.base) path.toList with
  | none => .error (.unreadable service (loggable hydra.base) (crates.urlCause hydra.base path))
  | some url => .ok (appendPair url (key.toList, challenge))

/-- What `lookup` makes of an answer. -/
def lookupResult {α : Type} (type : String) (decode : Json → Option α) (url : Url) :
    Reply → Except UpstreamError (Option α)
  | .failed cause => .error (.request service (loggable url) cause)
  | .response status _ body =>
    if status = 200 then
      match body.bind (readJson crates type decode) with
      | .ok value => .ok (some value)
      | .error cause => .error (.unreadable service (loggable url) cause)
    else if status = 404 ∨ status = 410 then .ok none
    else .error (.status service (loggable url) status)

def lookup {α : Type} (type : String) (decode : Json → Option α) (path key : String)
    (challenge : List Char) : Calls (Except UpstreamError (Option α)) :=
  match hydra.url crates path key challenge with
  | .error error => return .error error
  | .ok url => do
    let reply ← Program.send ⟨.get, url, ∅, none⟩
    return lookupResult crates type decode url reply

/-- None when Hydra doesn't know the challenge (expired or made up). -/
def logoutRequest : List Char → Calls (Except UpstreamError (Option LogoutRequest)) :=
  lookup crates hydra "LogoutRequest" LogoutRequest.fromJson "logout" "logout_challenge"

def consentRequest : List Char → Calls (Except UpstreamError (Option ConsentRequest)) :=
  lookup crates hydra "ConsentRequest" ConsentRequest.fromJson "consent" "consent_challenge"

/-- The request that answers a challenge. -/
def putRequest (url : Url) (body : Json) : UpstreamCall :=
  ⟨.put, url, (∅ : HeaderMap).insert .contentType applicationJson, some body⟩

/-- What `put` makes of an answer. -/
def putResult (url : Url) : Reply → Except UpstreamError String
  | .failed cause => .error (.request service (loggable url) cause)
  | .response status _ body =>
    if isSuccess status then
      match body.bind (readJson crates "Redirect" redirectFromJson) with
      | .ok redirectTo => .ok redirectTo
      | .error cause => .error (.unreadable service (loggable url) cause)
    else .error (.status service (loggable url) status)

def put (path key : String) (challenge : List Char) (body : Json) :
    Calls (Except UpstreamError String) :=
  match hydra.url crates path key challenge with
  | .error error => return .error error
  | .ok url => do
    let reply ← Program.send (putRequest url body)
    return putResult crates url reply

/-- Returns where to send the browser next. -/
def acceptLogout (challenge : List Char) : Calls (Except UpstreamError String) :=
  put crates hydra "logout/accept" "logout_challenge" challenge (.obj [])

/-- The body of an accepted consent. -/
def acceptConsentBody (scopes audience : List String) : Json :=
  .obj [("grant_scope", .arr (scopes.map .str)),
    ("grant_access_token_audience", .arr (audience.map .str)), ("remember", .bool false)]

def acceptConsent (challenge : List Char) (scopes audience : List String) :
    Calls (Except UpstreamError String) :=
  put crates hydra "consent/accept" "consent_challenge" challenge
    (acceptConsentBody scopes audience)

def rejectConsentBody : Json :=
  .obj [("error", .str "access_denied"), ("error_description", .str "Consent was not granted")]

def rejectConsent (challenge : List Char) : Calls (Except UpstreamError String) :=
  put crates hydra "consent/reject" "consent_challenge" challenge rejectConsentBody

end Hydra

/-! ### Kratos -/

/-- The five browser flows, each with a page of its own. -/
inductive FlowKind where
  | login
  | registration
  | recovery
  | verification
  | settings
  deriving DecidableEq

namespace FlowKind

/-- The segment of Kratos' paths, and of login's own page. -/
def segment : FlowKind → String
  | login => "login"
  | registration => "registration"
  | recovery => "recovery"
  | verification => "verification"
  | settings => "settings"

def template (kind : FlowKind) : String := kind.segment ++ ".html"

/-- Whether the flow belongs to a Hydra login request, so it can only start from a challenge. -/
def needsChallenge : FlowKind → Bool
  | login | registration => true
  | recovery | verification | settings => false

end FlowKind

inductive FlowFetch where
  | found (flow : Json)
  /-- Expired, unknown, or not this browser's: the page starts a new one. -/
  | gone
  /-- The flow needs a session the browser doesn't have. -/
  | signInRequired

/-- The one field of a `LogoutToken`. -/
def logoutTokenFromJson (json : Json) : Option String := do
  match ← structFields ["logout_token"] json with
  | [some (.str token)] => return token
  | _ => none

namespace Kratos

variable (crates : Crates) (kratos : Kratos)

def service : String := "kratos"

def endpoint (path : String) (query : List (List Char × List Char)) : Except UpstreamError Url :=
  match Url.parse crates.rules (some kratos.base) path.toList with
  | none => .error (.unreadable service (loggable kratos.base) (crates.urlCause kratos.base path))
  | some url => .ok (query.foldl appendPair url)

def withCookie (headers : HeaderMap) (cookie : Option HeaderValue) : HeaderMap :=
  match cookie with
  | some cookie => headers.append .cookie cookie
  | none => headers

/-- The request of `get`. -/
def getRequest (url : Url) (cookie : Option HeaderValue) : UpstreamCall :=
  ⟨.get, url, withCookie ((∅ : HeaderMap).insert .accept applicationJson) cookie, none⟩

/-- What `get` makes of an answer. -/
def getResult (url : Url) : Reply → Except UpstreamError (ℕ × List ℕ)
  | .failed cause => .error (.request service (loggable url) cause)
  | .response _ _ (.error cause) => .error (.request service (loggable url) cause)
  | .response status _ (.ok body) => .ok (status, body)

def fetch (url : Url) (cookie : Option HeaderValue) :
    Calls (Except UpstreamError (ℕ × List ℕ)) := do
  let reply ← Program.send (getRequest url cookie)
  return getResult url reply

/-- What `fetch_flow` makes of an answer. -/
def flowResult (url : Url) (status : ℕ) (body : List ℕ) : Except UpstreamError FlowFetch :=
  if status = 200 then
    match readJson crates "Value" some body with
    | .error cause => .error (.unreadable service (loggable url) cause)
    | .ok flow =>
      -- Only what render needs, so a malformed flow is one logged error.
      if crates.readsFlow flow then .ok (.found flow)
      else .error (.unreadable service (loggable url) (crates.cause "Flow" body))
  else if status = 404 ∨ status = 410 ∨ status = 403 then .ok .gone
  else if status = 401 then .ok .signInRequired
  else .error (.status service (loggable url) status)

def fetchFlow (kind : FlowKind) (id : List Char) (cookie : Option HeaderValue) :
    Calls (Except UpstreamError FlowFetch) :=
  match kratos.endpoint crates ("self-service/" ++ kind.segment ++ "/flows")
      [("id".toList, id)] with
  | .error error => return .error error
  | .ok url => (fetch url cookie).andThen fun (status, body) =>
    return flowResult crates url status body

/-- What `fetch_error` makes of an answer. -/
def errorResult (url : Url) (status : ℕ) (body : List ℕ) : Except UpstreamError (Option Json) :=
  if status = 200 then
    match readJson crates "Value" some body with
    | .error cause => .error (.unreadable service (loggable url) cause)
    | .ok error => .ok (some error)
  else if status = 404 ∨ status = 410 then .ok none
  else .error (.status service (loggable url) status)

/-- None when Kratos doesn't know the error id (it expires). -/
def fetchError (id : List Char) : Calls (Except UpstreamError (Option Json)) :=
  match kratos.endpoint crates "self-service/errors" [("id".toList, id)] with
  | .error error => return .error error
  | .ok url => (fetch url none).andThen fun (status, body) =>
    return errorResult crates url status body

/-- The token that ends the session, if there is one to end. -/
def tokenResult (url : Url) (status : ℕ) (body : List ℕ) : Except UpstreamError (Option String) :=
  if status = 200 then
    match readJson crates "LogoutToken" logoutTokenFromJson body with
    | .error cause => .error (.unreadable service (loggable url) cause)
    | .ok token => .ok (some token)
  else if status = 401 then .ok none
  else .error (.status service (loggable url) status)

/-- The cookies Kratos answers with; only these matter. -/
def sessionResult (url : Url) : Reply → Except UpstreamError (Option (List HeaderValue))
  | .failed cause => .error (.request service (loggable url) cause)
  | .response status headers _ =>
    if 300 ≤ status ∧ status < 400 ∨ isSuccess status then .ok (some (headers.getAll .setCookie))
    else .error (.status service (loggable url) status)

/-- The request that ends the session. -/
def endRequest (url : Url) (cookie : Option HeaderValue) : UpstreamCall :=
  ⟨.get, url, withCookie ∅ cookie, none⟩

/-- Ends the browser's Kratos session. -/
def endSession (cookie : Option HeaderValue) :
    Calls (Except UpstreamError (Option (List HeaderValue))) :=
  match kratos.endpoint crates "self-service/logout/browser" [] with
  | .error error => return .error error
  | .ok url => (fetch url cookie).andThen fun (status, body) =>
    match tokenResult crates url status body with
    | .error error => return .error error
    | .ok none => return .ok none
    | .ok (some token) =>
      match kratos.endpoint crates "self-service/logout" [("token".toList, token.toList)] with
      | .error error => return .error error
      | .ok url => do
        let reply ← Program.send (endRequest url cookie)
        return sessionResult url reply

end Kratos

/-! ### What the calls come to -/

section Runs

variable {crates : Crates} {hydra : Hydra} {kratos : Kratos}
  {t : Trace}

/-- **Hydra is asked for the challenge that is meant**, where login was configured to find it. -/
theorem Hydra.url_eq (hbase : IsSpecialUrl hydra.base) {path : String}
    (hpath : Url.isPlainPath ("admin/oauth2/auth/requests/" ++ path).toList = true) (key : String)
    (challenge : List Char) : hydra.url crates path key challenge =
      .ok { hydra.base.below ("admin/oauth2/auth/requests/" ++ path).toList with
        query := some (serialize [(key.toList, challenge)]) } := by
  obtain ⟨parts, hparts, -⟩ := hbase.path
  unfold Hydra.url
  dsimp only
  rw [Url.parse_below hbase.notFile hparts hpath]
  rfl

/-- Kratos is asked where login was configured to find it. -/
theorem Kratos.endpoint_eq (hbase : IsSpecialUrl kratos.base) {path : String}
    (hpath : Url.isPlainPath path.toList = true) (query : List (List Char × List Char)) :
    kratos.endpoint crates path query =
      .ok (query.foldl appendPair (kratos.base.below path.toList)) := by
  obtain ⟨parts, hparts, -⟩ := hbase.path
  unfold Kratos.endpoint
  rw [Url.parse_below hbase.notFile hparts hpath]

theorem Hydra.runs_lookup {α : Type} {type : String} {decode : Json → Option α} {path key : String}
    {challenge : List Char} {url : Url} (hurl : hydra.url crates path key challenge = .ok url)
    {result : Except UpstreamError (Option α)} :
    Runs (hydra.lookup crates type decode path key challenge) t result ↔
      ∃ reply, t = [⟨⟨.get, url, ∅, none⟩, reply⟩] ∧
        lookupResult crates type decode url reply = result := by
  unfold lookup
  rw [hurl]
  exact Program.runs_send

theorem Hydra.runs_put {path key : String} {challenge : List Char} {body : Json} {url : Url}
    (hurl : hydra.url crates path key challenge = .ok url) {result : Except UpstreamError String} :
    Runs (hydra.put crates path key challenge body) t result ↔
      ∃ reply, t = [⟨putRequest url body, reply⟩] ∧ putResult crates url reply = result := by
  unfold put
  rw [hurl]
  exact Program.runs_send

namespace Kratos

theorem runs_fetch {α : Type} {url : Url} {cookie : Option HeaderValue}
    {f : ℕ × List ℕ → Except UpstreamError α} {result : Except UpstreamError α} :
    Runs ((fetch url cookie).andThen fun answer => return f answer) t result ↔
      ∃ reply, t = [⟨getRequest url cookie, reply⟩] ∧ (getResult url reply).bind f = result := by
  have heq : ((fetch url cookie).andThen fun answer => return f answer) =
      .call (getRequest url cookie) fun reply => .done ((getResult url reply).bind f) := by
    simp only [fetch, Program.andThen, Program.send_bind, Program.call_bind, Program.pure_eq,
      Program.done_bind]
    congr 1
    funext reply
    cases getResult url reply <;> rfl
  rw [heq, Program.runs_call]
  constructor
  · rintro ⟨reply, rest, rfl, h⟩
    obtain ⟨rfl, hresult⟩ := Program.runs_done.mp h
    exact ⟨reply, rfl, hresult.symm⟩
  · rintro ⟨reply, rfl, rfl⟩
    exact ⟨reply, [], rfl, .done _⟩

/-- Where a flow is asked for. -/
def flowUrl (kratos : Kratos) (kind : FlowKind) (id : List Char) : Url :=
  { kratos.base.below ("self-service/" ++ kind.segment ++ "/flows").toList with
    query := some (serialize [("id".toList, id)]) }

/-- **A flow is asked for with one call.** -/
theorem runs_fetchFlow (hbase : IsSpecialUrl kratos.base) {kind : FlowKind} {id : List Char}
    {cookie : Option HeaderValue} {result : Except UpstreamError FlowFetch} :
    Runs (kratos.fetchFlow crates kind id cookie) t result ↔ ∃ reply,
      t = [⟨getRequest (kratos.flowUrl kind id) cookie, reply⟩] ∧
      ((getResult (kratos.flowUrl kind id) reply).bind fun answer =>
        flowResult crates (kratos.flowUrl kind id) answer.1 answer.2) = result := by
  have hurl : kratos.endpoint crates ("self-service/" ++ kind.segment ++ "/flows")
      [("id".toList, id)] = .ok (kratos.flowUrl kind id) := by
    rw [endpoint_eq hbase (by cases kind <;> decide +kernel)]
    rfl
  unfold fetchFlow
  rw [hurl]
  exact runs_fetch

def errorUrl (kratos : Kratos) (id : List Char) : Url :=
  { kratos.base.below "self-service/errors".toList with
    query := some (serialize [("id".toList, id)]) }

theorem runs_fetchError (hbase : IsSpecialUrl kratos.base) {id : List Char}
    {result : Except UpstreamError (Option Json)} :
    Runs (kratos.fetchError crates id) t result ↔ ∃ reply,
      t = [⟨getRequest (kratos.errorUrl id) none, reply⟩] ∧
      ((getResult (kratos.errorUrl id) reply).bind fun answer =>
        errorResult crates (kratos.errorUrl id) answer.1 answer.2) = result := by
  have hurl : kratos.endpoint crates "self-service/errors" [("id".toList, id)] =
      .ok (kratos.errorUrl id) := by
    rw [endpoint_eq hbase (by decide)]
    rfl
  unfold fetchError
  rw [hurl]
  exact runs_fetch

/-- Where the token is asked for. -/
def tokenUrl (kratos : Kratos) : Url := kratos.base.below "self-service/logout/browser".toList

def endUrl (kratos : Kratos) (token : String) : Url :=
  { kratos.base.below "self-service/logout".toList with
    query := some (serialize [("token".toList, token.toList)]) }

/-- What the first answer says of the session: the token that ends it, or that there is none. -/
def sessionToken (crates : Crates) (kratos : Kratos) (reply : Reply) :
    Except UpstreamError (Option String) :=
  (getResult kratos.tokenUrl reply).bind fun (status, body) =>
    tokenResult crates kratos.tokenUrl status body

/-- What is left to do after that. -/
def afterToken (kratos : Kratos) (cookie : Option HeaderValue) :
    Except UpstreamError (Option String) →
      Calls (Except UpstreamError (Option (List HeaderValue)))
  | .error error => return .error error
  | .ok none => return .ok none
  | .ok (some token) => do
    let reply ← Program.send (endRequest (kratos.endUrl token) cookie)
    return sessionResult (kratos.endUrl token) reply

theorem endSession_eq (hbase : IsSpecialUrl kratos.base) (cookie : Option HeaderValue) :
    kratos.endSession crates cookie = .call (getRequest kratos.tokenUrl cookie) fun reply =>
      kratos.afterToken cookie (kratos.sessionToken crates reply) := by
  have htoken : kratos.endpoint crates "self-service/logout/browser" [] = .ok kratos.tokenUrl :=
    endpoint_eq hbase (by decide) []
  have hend : ∀ token : String, kratos.endpoint crates "self-service/logout"
      [("token".toList, token.toList)] = .ok (kratos.endUrl token) := fun token => by
    rw [endpoint_eq hbase (by decide)]
    rfl
  unfold endSession
  rw [htoken]
  simp only [fetch, Program.andThen, Program.send_bind, Program.call_bind, Program.pure_eq,
    Program.done_bind, hend]
  congr 1
  funext reply
  rw [sessionToken]
  cases getResult kratos.tokenUrl reply with
  | error error => rfl
  | ok answer =>
    obtain ⟨status, body⟩ := answer
    dsimp only [Except.bind]
    rcases tokenResult crates kratos.tokenUrl status body with error | _ | token <;> rfl

/-- **A session is ended with the token that Kratos gives for it.** -/
theorem runs_endSession (hbase : IsSpecialUrl kratos.base) {cookie : Option HeaderValue}
    {result : Except UpstreamError (Option (List HeaderValue))} :
    Runs (kratos.endSession crates cookie) t result ↔ ∃ reply rest,
      t = ⟨getRequest kratos.tokenUrl cookie, reply⟩ :: rest ∧
      Runs (kratos.afterToken cookie (kratos.sessionToken crates reply)) rest result := by
  rw [endSession_eq hbase, Program.runs_call]

end Kratos

/-! ### What is logged of a failure -/

/-- No failure has a query. -/
def Unlogged {α : Type} (result : Except UpstreamError α) : Prop :=
  ∀ error, result = .error error → error.url.query = none

namespace Unlogged

variable {α β : Type}

theorem ok (value : α) : Unlogged (.ok value) := by
  rintro error ⟨⟩

theorem request (service : String) (url : Url) (cause : String) :
    Unlogged (.error (.request service (loggable url) cause) : Except UpstreamError α) := by
  rintro error ⟨⟩
  rfl

theorem status (service : String) (url : Url) (code : ℕ) :
    Unlogged (.error (.status service (loggable url) code) : Except UpstreamError α) := by
  rintro error ⟨⟩
  rfl

theorem unreadable (service : String) (url : Url) (cause : String) :
    Unlogged (.error (.unreadable service (loggable url) cause) : Except UpstreamError α) := by
  rintro error ⟨⟩
  rfl

theorem bind {result : Except UpstreamError α} {f : α → Except UpstreamError β}
    (h : Unlogged result) (hf : ∀ value, Unlogged (f value)) : Unlogged (result.bind f) := by
  cases result with
  | ok value => exact hf value
  | error failed =>
    rintro error ⟨⟩
    exact h failed rfl

end Unlogged

theorem Hydra.unlogged_lookupResult {α : Type} {type : String} {decode : Json → Option α}
    {url : Url} (reply : Reply) : Unlogged (lookupResult crates type decode url reply) := by
  unfold lookupResult
  split
  · exact .request _ _ _
  · split_ifs
    · split
      · exact .ok _
      · exact .unreadable _ _ _
    · exact .ok _
    · exact .status _ _ _

theorem Hydra.unlogged_putResult {url : Url} (reply : Reply) :
    Unlogged (putResult crates url reply) := by
  unfold putResult
  split
  · exact .request _ _ _
  · split_ifs
    · split
      · exact .ok _
      · exact .unreadable _ _ _
    · exact .status _ _ _

theorem Kratos.unlogged_getResult {url : Url} (reply : Reply) : Unlogged (getResult url reply) := by
  unfold getResult
  split
  · exact .request _ _ _
  · exact .request _ _ _
  · exact .ok _

theorem Kratos.unlogged_flowResult {url : Url} (status : ℕ) (body : List ℕ) :
    Unlogged (flowResult crates url status body) := by
  unfold flowResult
  split_ifs
  · split
    · exact .unreadable _ _ _
    · split_ifs
      · exact .ok _
      · exact .unreadable _ _ _
  · exact .ok _
  · exact .ok _
  · exact .status _ _ _

theorem Kratos.unlogged_errorResult {url : Url} (status : ℕ) (body : List ℕ) :
    Unlogged (errorResult crates url status body) := by
  unfold errorResult
  split_ifs
  · split
    · exact .unreadable _ _ _
    · exact .ok _
  · exact .ok _
  · exact .status _ _ _

theorem Kratos.unlogged_sessionToken (reply : Reply) :
    Unlogged (kratos.sessionToken crates reply) := by
  refine (unlogged_getResult reply).bind fun (status, body) => ?_
  unfold tokenResult
  dsimp only
  split_ifs
  · split
    · exact .unreadable _ _ _
    · exact .ok _
  · exact .ok _
  · exact .status _ _ _

theorem Kratos.unlogged_sessionResult {url : Url} (reply : Reply) :
    Unlogged (sessionResult url reply) := by
  unfold sessionResult
  split
  · exact .request _ _ _
  · split_ifs
    · exact .ok _
    · exact .status _ _ _

theorem Kratos.unlogged_afterToken {cookie : Option HeaderValue} {token : Except UpstreamError
    (Option String)} (htoken : Unlogged token) {result : Except UpstreamError
    (Option (List HeaderValue))} (h : Runs (kratos.afterToken cookie token) t result) :
    Unlogged result := by
  rcases token with error | _ | token
  · obtain ⟨-, rfl⟩ := Program.runs_done.mp h
    rintro _ ⟨⟩
    exact htoken error rfl
  · obtain ⟨-, rfl⟩ := Program.runs_done.mp h
    exact .ok _
  · obtain ⟨reply, -, rfl⟩ := Program.runs_send.mp h
    exact unlogged_sessionResult reply

/-- **No failure has the query of what was asked**: flow ids and challenges are credentials of a
sort. -/
theorem unlogged_of_runs (hbase : IsSpecialUrl kratos.base) {kind : FlowKind} {id : List Char}
    {cookie : Option HeaderValue} :
    (∀ result, Runs (kratos.fetchFlow crates kind id cookie) t result → Unlogged result) ∧
    (∀ result, Runs (kratos.fetchError crates id) t result → Unlogged result) ∧
    (∀ result, Runs (kratos.endSession crates cookie) t result → Unlogged result) := by
  refine ⟨fun result h => ?_, fun result h => ?_, fun result h => ?_⟩
  · obtain ⟨reply, -, rfl⟩ := (Kratos.runs_fetchFlow hbase).mp h
    exact (Kratos.unlogged_getResult reply).bind fun answer => Kratos.unlogged_flowResult _ _
  · obtain ⟨reply, -, rfl⟩ := (Kratos.runs_fetchError hbase).mp h
    exact (Kratos.unlogged_getResult reply).bind fun answer => Kratos.unlogged_errorResult _ _
  · obtain ⟨reply, rest, -, hrest⟩ := (Kratos.runs_endSession hbase).mp h
    exact Kratos.unlogged_afterToken (Kratos.unlogged_sessionToken reply) hrest

theorem Hydra.unlogged_of_runs {path key : String} {challenge : List Char} {url : Url}
    (hurl : hydra.url crates path key challenge = .ok url) :
    (∀ (α : Type) (type : String) (decode : Json → Option α) result,
      Runs (hydra.lookup crates type decode path key challenge) t result → Unlogged result) ∧
    (∀ body result, Runs (hydra.put crates path key challenge body) t result →
      Unlogged result) := by
  refine ⟨fun α type decode result h => ?_, fun body result h => ?_⟩
  · obtain ⟨reply, -, rfl⟩ := (Hydra.runs_lookup hurl).mp h
    exact unlogged_lookupResult reply
  · obtain ⟨reply, -, rfl⟩ := (Hydra.runs_put hurl).mp h
    exact unlogged_putResult reply

end Runs

end Login

end WeaveAuth
