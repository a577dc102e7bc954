import WeaveAuth.Bff.Hydra
import WeaveAuth.Bff.Session

/-!
# What a proxied request decides

The pure parts of `resolve_bearer_token` and `refresh_session` in `bff/src/server/api/proxy.rs`:
when an access token is due for refresh, and the session a refresh leaves. Where they read the
clock, the readings are arguments.

## Main results

* `refreshed_rotated`, `refreshed_kept`: whose refresh token the new session has, and its expiry

## What is left out

The request that goes on to the upstream and the response that comes back are `ProxyHeaders`' and
`CleanPath`'s matter. When and in what order the functions here are called is `System`'s.
-/

namespace WeaveAuth

namespace Bff

inductive ProxyServiceError where
  | unauthenticated
  /-- Hydra refused the session's refresh token: it is dead and the session is dropped. -/
  | refreshRefused (endpoint : String) (status : ℕ)
  | refreshUnavailable (error : HydraError)
  deriving DecidableEq, Repr

/-- How long before it expires an access token is due for refresh. -/
def accessTokenRefreshLeeway : Duration := Duration.seconds 5

def isFresh (session : SessionData) (now : DateTime) : Bool :=
  session.expiresAt > now + accessTokenRefreshLeeway

/-- What `refresh_session` stores, from what Hydra handed out. `now` is read for the refresh
token's expiry, when there is a new one, and `now'` for the access token's. -/
def refreshed (refreshTtl : Duration) (session : SessionData) (tokens : TokenSet)
    (now now' : DateTime) : SessionData :=
  -- Without a rotated refresh token the old one lives on, with its old expiry.
  let (refreshToken, refreshExpiresAt) := match tokens.refreshToken with
    | some rotated => (rotated, now + refreshTtl)
    | none => (session.refreshToken, session.refreshExpiresAt)
  -- The id_token a refresh may return is not verified, so the login's is kept.
  { accessToken := tokens.accessToken
    refreshToken := refreshToken
    idToken := session.idToken
    expiresAt := now' + tokens.expiresIn
    createdAt := session.createdAt
    refreshExpiresAt := refreshExpiresAt
    userId := session.userId
    sid := session.sid }

section refreshed

variable (refreshTtl : Duration) (session : SessionData) (tokens : TokenSet) (now now' : DateTime)

theorem refreshed_createdAt :
    (refreshed refreshTtl session tokens now now').createdAt = session.createdAt := rfl

theorem refreshed_rotated {rotated : String} (h : tokens.refreshToken = some rotated) :
    (refreshed refreshTtl session tokens now now').refreshToken = rotated ∧
      (refreshed refreshTtl session tokens now now').refreshExpiresAt = now + refreshTtl := by
  rw [refreshed, h]
  exact ⟨rfl, rfl⟩

theorem refreshed_kept (h : tokens.refreshToken = none) :
    (refreshed refreshTtl session tokens now now').refreshToken = session.refreshToken ∧
      (refreshed refreshTtl session tokens now now').refreshExpiresAt
        = session.refreshExpiresAt := by
  rw [refreshed, h]
  exact ⟨rfl, rfl⟩

end refreshed

end Bff

end WeaveAuth
