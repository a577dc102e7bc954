import WeaveAuth.Bff.LogoutToken
import WeaveAuth.ForMathlib.Program

/-!
# What hooks calls

`hooks/src/clients/mod.rs`: the calls to Kratos, Hydra, bff, the deployer's webhooks and the
providers' APIs, what comes back, and why one failed. A call stands for its request, with what
varies in it; what the HTTP client and `serde_json` make of an answer's bytes is the answer.

## What is left out

The HTTP client's own errors are one text; so are `serde_json`'s. Both are kept only because the
code reports them.
-/

namespace WeaveAuth

namespace Hooks

open Bff (Json Uuid)

/-- Other crates' code. -/
structure Crates where
  /-- `Uuid::parse_str`, which its `Deserialize` uses too. -/
  parseStr : String → Option Uuid
  /-- `Uuid`'s `Display`. -/
  uuidText : Uuid → String
  /-- `serde_json::from_slice`, to a `Value`. -/
  fromSlice : List ℕ → Option Json
  /-- What `serde_json` says of bytes that are not JSON. -/
  syntaxText : List ℕ → String
  /-- `Value`'s `Display`. -/
  valueText : Json → String
  /-- `Value::pointer`. -/
  pointer : Json → String → Option Json
  /-- `url::Url::parse`: the host, if there is one, and the path. -/
  parseUrl : String → Option (Option String × String)
  /-- What `serde` says of a document of another shape. -/
  mismatch : Json → String
  /-- `StatusCode`'s `Display`. -/
  statusText : ℕ → String
  /-- `Duration`'s `Debug`. -/
  durationText : ℕ → String

/-! ### Configuration -/

/-- One profile API call. -/
structure ProfileApiConfig where
  url : String
  /-- Field names with JSON pointers into the answer. -/
  claims : List (String × String)
  /-- The OAuth scope the access token needs for the call. -/
  scope : Option String
  /-- Whether a failed call, or a pointer that finds nothing, fails the registration. -/
  required : Bool
  deriving DecidableEq

/-- `AppState`. -/
structure AppState where
  crates : Crates
  /-- Whether there is a registration handler. -/
  registration : Bool
  /-- Whether there is a login-claims handler. -/
  loginClaims : Bool
  profileApis : List (String × List ProfileApiConfig)
  requestTimeout : ℕ
  requireVerifiedEmail : Bool

/-! ### Calls -/

/-- The deployer's endpoints. -/
inductive Handler where
  | registration
  | loginClaims
  deriving DecidableEq

/-- A request. -/
inductive Call where
  /-- `GET /admin/identities/<id>`, with `include_credential=oidc` or without. -/
  | getIdentity (id : Uuid) (includeOidc : Bool)
  /-- `PUT /admin/identities/<id>`. -/
  | replaceIdentity (id : Uuid) (body : Json)
  /-- `DELETE /admin/identities/<id>`. -/
  | deleteIdentity (id : Uuid)
  /-- `DELETE /admin/identities/<id>/credentials/oidc?identifier=<identifier>`. -/
  | deleteOidcLink (id : Uuid) (identifier : String)
  /-- `DELETE /admin/identities/<id>/credentials/<type>`. -/
  | deleteCredential (id : Uuid) (credentialType : String)
  /-- `PATCH /admin/identities/<id>`, removing `/credentials/passkey`. -/
  | removePasskey (id : Uuid)
  /-- `GET /admin/identities/<id>/sessions?active=true&page_size=250`. -/
  | listSessions (id : Uuid)
  /-- `DELETE /admin/sessions/<id>`. -/
  | revokeSession (sessionId : Uuid)
  /-- `DELETE /admin/identities/<id>/sessions`. -/
  | revokeAllSessions (id : Uuid)
  /-- `DELETE /admin/oauth2/auth/sessions/consent?subject=<subject>&all=true`. -/
  | revokeConsentSessions (subject : Uuid)
  /-- `DELETE /admin/oauth2/auth/sessions/login?subject=<subject>`. -/
  | revokeLoginSessions (subject : Uuid)
  /-- `POST /internal/revoke` at bff. -/
  | revokeInBff (sub : Uuid)
  /-- `POST` to a handler. -/
  | webhook (handler : Handler) (payload : Json)
  /-- `GET` from each of the URLs at once. -/
  | profileApis (urls : List String) (accessToken : String)

/-- What comes back from an upstream. -/
inductive Reply where
  /-- No response: no connection, or none in time. -/
  | failed (cause : String)
  /-- A status, and the body as JSON or why it is none. -/
  | response (status : ℕ) (body : Except String Json)

/-- What comes back from a webhook or a provider: the body arrives in chunks. -/
inductive StreamedReply where
  | failed (cause : String)
  /-- `broken` says why the body broke off, if it did. -/
  | response (status : ℕ) (contentLength : Option ℕ) (chunks : List (List ℕ))
      (broken : Option String)

@[reducible] def Call.Answer : Call → Type
  | .webhook _ _ => StreamedReply
  | .profileApis _ _ => List StreamedReply
  | _ => Reply

/-- A program of hooks. -/
abbrev Calls (α : Type) : Type := Program Call Call.Answer α

/-! ### Failures -/

inductive UpstreamError where
  | request (what cause : String)
  | status (what : String) (status : ℕ)
  | inactive (what : String)
  | body (what cause : String)
  deriving DecidableEq, Repr

namespace UpstreamError

def isNotFound : UpstreamError → Bool
  | .status _ code => code = 404
  | _ => false

/-- `Display`. -/
def display (crates : Crates) : UpstreamError → String
  | .request what cause => what ++ ": request failed: " ++ cause
  | .status what code => what ++ ": returned " ++ crates.statusText code
  | .inactive what => what ++ ": the identity is not active"
  | .body what cause => what ++ ": unreadable response: " ++ cause

end UpstreamError

/-- `StatusCode::is_success`. -/
def isSuccess (status : ℕ) : Bool := 200 ≤ status && status < 300

/-- `send`: any non-2xx is an error. -/
def checked (what : String) : Reply → Except UpstreamError (Except String Json)
  | .failed cause => .error (.request what cause)
  | .response status body => if isSuccess status then .ok body else .error (.status what status)

/-- `read_json`, of a type that `decode` reads. -/
def readJson {α : Type} (crates : Crates) (decode : Json → Option α) (what : String) :
    Except String Json → Except UpstreamError α
  | .error cause => .error (.body what cause)
  | .ok json =>
    match decode json with
    | some value => .ok value
    | none => .error (.body what (crates.mismatch json))

/-- What is gone already needs no deleting. -/
def ignoreNotFound {α : Type} : Except UpstreamError α → Except UpstreamError Unit
  | .error error => if error.isNotFound then .ok () else .error error
  | .ok _ => .ok ()

/-! ### What the answers mean -/

/-- The upstream did what it was asked. -/
def Reply.Succeeded : Reply → Prop
  | .failed _ => False
  | .response status _ => isSuccess status = true

/-- It did, or there was nothing to do. -/
def Reply.Gone : Reply → Prop
  | .failed _ => False
  | .response status _ => isSuccess status = true ∨ status = 404

theorem checked_isOk {what : String} {reply : Reply} :
    (∃ body, checked what reply = .ok body) ↔ reply.Succeeded := by
  cases reply with
  | failed cause => simp [checked, Reply.Succeeded]
  | response status body =>
    simp only [checked, Reply.Succeeded]
    split_ifs with hsuccess <;> simp [hsuccess]

theorem ignoreNotFound_checked {what : String} {reply : Reply} :
    ignoreNotFound (checked what reply) = .ok () ↔ reply.Gone := by
  cases reply with
  | failed cause => simp [checked, ignoreNotFound, UpstreamError.isNotFound, Reply.Gone]
  | response status body =>
    simp only [checked, Reply.Gone]
    split_ifs with hsuccess
    · simp [ignoreNotFound, hsuccess]
    · simp [ignoreNotFound, UpstreamError.isNotFound, hsuccess]

end Hooks

end WeaveAuth
