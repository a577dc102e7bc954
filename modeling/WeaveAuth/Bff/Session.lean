import Mathlib.Data.Nat.Notation
import WeaveAuth.Chrono

/-!
# Sessions and what selects them

`bff/src/model/session.rs`: what bff keeps of a login, when a session ends, and which sessions
a logout names. Secrets are plain strings: `SecretString` only keeps them out of logs.

## What is left out

`SecretString` and the serialization of a session, which no store that comes with bff uses.
-/

namespace WeaveAuth

namespace Bff

/-- A request to bff, or whatever else runs there beside the requests. -/
abbrev TaskId := ℕ

/-- `uuid::Uuid`. -/
abbrev Uuid := BitVec 128

/-- The longest a session lives from its login, however often its tokens are refreshed. -/
def maxSessionLifetime : Duration := Duration.days 30

/-- What bff holds for one `wa_session` cookie. -/
structure SessionData where
  /-- The bearer token sent upstream. -/
  accessToken : String
  /-- Redeemed at Hydra for the next token pair. -/
  refreshToken : String
  /-- The login's `id_token`, the hint of a later logout. -/
  idToken : String
  /-- When the access token expires. -/
  expiresAt : DateTime
  /-- When the login happened. -/
  createdAt : DateTime
  /-- When the refresh token dies. -/
  refreshExpiresAt : DateTime
  /-- The `sub` of the id_token. -/
  userId : Uuid
  /-- Hydra's login session id. -/
  sid : Option String
  deriving DecidableEq, Repr

/-- When the session ends for good: with its refresh token, or `maxSessionLifetime` after the
login, whichever comes first. -/
def SessionData.endsAt (session : SessionData) : DateTime :=
  min session.refreshExpiresAt (session.createdAt + maxSessionLifetime)

/-- Which sessions a logout ends. -/
inductive SessionSelector where
  /-- Every session of the user. -/
  | user (userId : Uuid)
  /-- One login session of the user, and the user's sessions with no recorded `sid`. -/
  | userSession (userId : Uuid) (sid : String)
  /-- One login session, named by its `sid` alone. -/
  | session (sid : String)
  deriving DecidableEq, Repr

/-- `SessionSelector::matches`. -/
def SessionSelector.matches : SessionSelector → SessionData → Bool
  | .user userId, data => data.userId == userId
  | .userSession userId sid, data => data.userId == userId && data.sid.all (· == sid)
  | .session sid, data => data.sid == some sid

/-- The user a selector names, when it names one. -/
def SessionSelector.userId? : SessionSelector → Option Uuid
  | .user userId => some userId
  | .userSession userId _ => some userId
  | .session _ => none

/-- A selector that names a user selects that user's sessions only. -/
theorem SessionSelector.userId_of_matches {selector : SessionSelector} {userId : Uuid}
    (h : selector.userId? = some userId) {data : SessionData}
    (hs : selector.matches data = true) : data.userId = userId := by
  cases selector <;> simp_all [SessionSelector.userId?, SessionSelector.matches]

end Bff

end WeaveAuth
