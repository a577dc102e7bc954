import WeaveAuth.Bff.Hydra
import WeaveAuth.Bff.LogoutToken

/-!
# What a login's callback decides

The pure parts of `service::complete` in `bff/src/server/api/callback.rs`: the checks before the
code is redeemed, and the session a login starts.

SHA-256 and the verification of an id_token are other crates' code. The first is a function
`digest`; the second is its outcome, `VerifiedIdToken` or `IdTokenError`.

## Scope

The browser's part is already taken apart here: `PendingLogin` is the login cookie as `LoginCookie`
reads it, and `Returned` is what `Redirects` makes of the query. The services call these functions
twice in this development: `CompleteLogin` with nothing beside them, `System` with everything.
-/

namespace WeaveAuth

namespace Bff

/-- What `/callback` needs to finish the login `/login` started; it lives in a cookie. -/
structure PendingLogin where
  state : String
  verifier : String
  nonce : String
  /-- Where the browser goes once logged in. -/
  redirectUri : String
  deriving DecidableEq, Repr

/-- What the callback request's query says; each case carries the `state`. -/
inductive Returned where
  | code (code : String) (state : Option String)
  | refused (error : String) (state : Option String)
  | empty (state : Option String)
  deriving DecidableEq, Repr

def Returned.state : Returned → Option String
  | code _ state | refused _ state | empty state => state

inductive IdTokenError where
  | malformed (cause : String)
  | keys (error : JwksError)
  | wrongIssuer (issuer : String)
  | verification (cause : String)
  | accessTokenHashMismatch
  | accessTokenHashUnchecked (cause : String)
  | subjectNotAUuid
  deriving DecidableEq, Repr

/-- What a verified id_token says about who logged in. -/
structure VerifiedIdToken where
  userId : Uuid
  /-- Hydra's login session id. -/
  sid : Option String
  deriving DecidableEq, Repr

inductive CallbackServiceError where
  | noLoginInProgress
  | stateMismatch
  | loginRefused (error : String)
  | missingCode
  | redirectNotAllowed
  | exchange (error : HydraError)
  | idToken (error : IdTokenError)
  /-- Hydra's token response lacks a token. -/
  | missing (name : String)
  deriving DecidableEq, Repr

/-- Equality by way of the digests, whose bytes are all looked at. -/
def constantTimeEq (digest : String → List (BitVec 8)) (a b : String) : Bool :=
  ((digest a).zip (digest b)).foldl (fun diff e => diff ||| (e.1 ^^^ e.2)) 0 == 0

/-- `Config::allows_redirect_uri`. -/
def allowsRedirectUri (redirectUriAllowlist : List String) (redirectUri : String) : Bool :=
  redirectUriAllowlist.any (· == redirectUri)

/-- `complete` up to the exchange: the login to finish and the code to redeem for it. -/
def redeemable (digest : String → List (BitVec 8)) (redirectUriAllowlist : List String)
    (pending : Option PendingLogin) (returned : Returned) :
    Except CallbackServiceError (PendingLogin × String) :=
  match pending with
  | none => .error .noLoginInProgress
  | some pending =>
    -- Before anything else: a code arriving with someone else's state is not ours to redeem.
    if !returned.state.any fun state => constantTimeEq digest state pending.state then
      .error .stateMismatch
    else
      match returned with
      | .refused error _ => .error (.loginRefused error)
      | .empty _ => .error .missingCode
      | .code code _ =>
        -- The cookie is the browser's to edit, so the destination is checked again.
        if !allowsRedirectUri redirectUriAllowlist pending.redirectUri then
          .error .redirectNotAllowed
        else .ok (pending, code)

/-- The session a login starts at `now`. -/
def newSession (refreshTtl : Duration) (tokens : TokenSet) (refreshToken idToken : String)
    (verified : VerifiedIdToken) (now : DateTime) : SessionData where
  accessToken := tokens.accessToken
  refreshToken := refreshToken
  idToken := idToken
  expiresAt := now + tokens.expiresIn
  createdAt := now
  refreshExpiresAt := now + refreshTtl
  userId := verified.userId
  sid := verified.sid

/-- What the browser is told of a login that succeeded. -/
structure StartedSession where
  sessionId : String
  sessionMaxAgeSecs : ℤ
  /-- Where to send the browser now. -/
  redirectUri : String
  deriving DecidableEq, Repr

/-- The cookie never outlives the refresh token or the absolute session lifetime. -/
def sessionMaxAgeSecs (refreshTtl : Duration) : ℤ :=
  (min refreshTtl maxSessionLifetime).tdiv 1000000000

end Bff

end WeaveAuth
