import Mathlib.Tactic.Linarith
import WeaveAuth.Bff.Session

/-!
# Back-channel logout tokens

`bff/src/hydra/logout_token.rs`: the checks on a logout token's claims that come after its
signature, and how the endpoint's service tells a bad token from keys it could not get.

`Json` is `serde_json::Value`, with the two accessors the checks use. Parsing a `sub` as a UUID is
the `uuid` crate's, so `checkClaims` takes the parser.

## Main results

* `checkClaims_ok`: an accepted token is remembered until the last instant at which the age check
  lets it through, for as long as its `iat` says and under its own `jti`

## What is left out

The signature, the issuer and the audience, which `verify` checks before: here the claims are a JSON
object that was signed. `MAX_AGE` and `LEEWAY` are the source's, and so is the comparison: a token
is accepted at the very instant at which it reaches its age, which `JtiReplay` is about.
-/

namespace WeaveAuth

namespace Bff

/-- `serde_json::Value`. A number is an integer or it is not. -/
inductive Json where
  | null
  | bool (value : Bool)
  | int (value : ℤ)
  | float (text : String)
  | str (value : String)
  | arr (values : List Json)
  | obj (members : List (String × Json))

namespace Json

/-- `Value::get` with a string: a member of an object, nothing of anything else. -/
def get (value : Json) (name : String) : Option Json :=
  match value with
  | obj members => (members.find? fun member => member.1 = name).map Prod.snd
  | _ => none

def asI64 : Json → Option ℤ
  | int value => if -2 ^ 63 ≤ value ∧ value < 2 ^ 63 then some value else none
  | _ => none

def asStr : Json → Option String
  | str value => some value
  | _ => none

def isObject : Json → Bool
  | obj _ => true
  | _ => false

end Json

/-- Why Hydra's signing keys could not be had. -/
inductive JwksError where
  | unreachable (cause : String)
  | unavailable (status : ℕ)
  | unreadable (cause : String)
  | unknownKey (kid : String)
  /-- A fetch was attempted too recently, so none was made. -/
  | throttled
  deriving DecidableEq, Repr

inductive LogoutTokenError where
  | malformed (cause : String)
  | noKeyId
  | keys (error : JwksError)
  | verification (cause : String)
  | missingIssuedAt
  | stale
  | issuedInTheFuture
  | notALogoutEvent
  | hasNonce
  | noSubjectOrSession
  | subjectNotAUuid
  | missingJti
  deriving DecidableEq, Repr

/-- A verified logout token: whom it logs out, and what is needed to refuse its replay. -/
structure LogoutClaims where
  target : SessionSelector
  jti : String
  /-- While this is in the future the token could still pass the age check. -/
  replayUntil : DateTime
  deriving DecidableEq, Repr

namespace LogoutToken

/-- The member of `events` that marks a token as a logout token. -/
def backchannelLogoutEvent : String := "http://schemas.openid.net/event/backchannel-logout"

/-- How old a logout token's `iat` may be. -/
def maxAge : Duration := Duration.minutes 10

/-- Clock skew allowed on `iat`. -/
def leeway : Duration := Duration.seconds 60

/-- `Utc.timestamp_opt(iat, 0).single()`: nothing outside the years `chrono` knows. -/
def timestampOpt (seconds : ℤ) : Option DateTime :=
  if -8334601228800 ≤ seconds ∧ seconds ≤ 8210266876799 then some (Duration.seconds seconds)
  else none

/-- The `iat`, when it is one. -/
def issuedAt (claims : Json) : Option DateTime :=
  ((claims.get "iat").bind Json.asI64).bind timestampOpt

def isLogoutEvent (claims : Json) : Bool :=
  ((claims.get "events").bind fun events => events.get backchannelLogoutEvent).any Json.isObject

/-- A claim that is a text and not an empty one. -/
def text (claims : Json) (name : String) : Option String :=
  ((claims.get name).bind Json.asStr).filter (· ≠ "")

/-- Whom the token logs out. -/
def target (parseStr : String → Option Uuid) (claims : Json) :
    Except LogoutTokenError SessionSelector :=
  match text claims "sub" with
  | some sub =>
    match parseStr sub, text claims "sid" with
    | none, _ => .error .subjectNotAUuid
    | some userId, some sid => .ok (.userSession userId sid)
    | some userId, none => .ok (.user userId)
  | none =>
    match text claims "sid" with
    | some sid => .ok (.session sid)
    | none => .error .noSubjectOrSession

/-- The checks on the claims that come after the signature, issuer, audience and expiry. -/
def checkClaims (parseStr : String → Option Uuid) (claims : Json) (now : DateTime) :
    Except LogoutTokenError LogoutClaims :=
  match issuedAt claims with
  | none => .error .missingIssuedAt
  | some issuedAt =>
    if issuedAt > now + leeway then .error .issuedInTheFuture
    else if issuedAt < now - maxAge - leeway then .error .stale
    else if !isLogoutEvent claims then .error .notALogoutEvent
    else if (claims.get "nonce").isSome then .error .hasNonce
    else
      match target parseStr claims with
      | .error error => .error error
      | .ok target =>
        match text claims "jti" with
        | none => .error .missingJti
        | some jti => .ok ⟨target, jti, issuedAt + maxAge + leeway⟩

/-- **What an accepted token is.** The age check is what bounds `now` by `replayUntil`. -/
theorem checkClaims_ok {parseStr : String → Option Uuid} {claims : Json} {now : DateTime}
    {c : LogoutClaims} (h : checkClaims parseStr claims now = .ok c) :
    text claims "jti" = some c.jti ∧ target parseStr claims = .ok c.target ∧
    ∃ iat, issuedAt claims = some iat ∧ iat ≤ now + leeway ∧
      c.replayUntil = iat + maxAge + leeway ∧ now ≤ c.replayUntil := by
  rw [checkClaims] at h
  split at h
  · cases h
  · next iat hiat =>
    split at h
    · cases h
    · next hfuture =>
      split at h
      · cases h
      · next hstale =>
        split at h
        · cases h
        · split at h
          · cases h
          · split at h
            · cases h
            · next htarget =>
              split at h
              · cases h
              · next hjti =>
                cases h
                refine ⟨hjti, htarget, iat, hiat, ?_, rfl, ?_⟩
                · exact not_lt.mp hfuture
                · linarith [not_lt.mp hstale]

/-- `Hydra::verify_logout_token`, from what decoding and verifying the JWT came to. -/
def verify (parseStr : String → Option Uuid) (decoded : Except LogoutTokenError Json)
    (now : DateTime) : Except LogoutTokenError LogoutClaims :=
  match decoded with
  | .error error => .error error
  | .ok claims => checkClaims parseStr claims now

end LogoutToken

/-! ### The endpoint's service -/

inductive BackchannelServiceError where
  | invalid (error : LogoutTokenError)
  | replayed
  | keysUnavailable (error : JwksError)
  deriving DecidableEq, Repr

/-- A `kid` Hydra doesn't publish is the token's fault; keys that could not be had are not, and
Hydra should retry. -/
def BackchannelServiceError.ofLogoutTokenError : LogoutTokenError → BackchannelServiceError
  | .keys (.unknownKey kid) => .invalid (.keys (.unknownKey kid))
  | .keys error => .keysUnavailable error
  | error => .invalid error

end Bff

end WeaveAuth
