import Mathlib.Data.Option.Basic
import WeaveAuth.Chrono

/-!
# Hydra's token endpoint

`bff/src/hydra/mod.rs`: what a call to the token endpoint comes back as. `tokenRequest` and
`checkResponse` take what the HTTP client hands them, an `Answer`: nothing at all, or a status
with what the body reads as. The request itself, its form and its client authentication, decides
none of this and is left out.

`Effect` is not bff's: it is what Hydra did with a grant it was presented, which its answer may
fail to say. `Effect.agrees` is what the two have to do with each other: tokens that arrive were
issued, and only a grant that Hydra refused is answered as refused.

## What is left out

Timeouts and redirects of the HTTP client are among the reasons for which there is no response. The
`error` of a response is kept, since `checkResponse` reads it, and its other fields are not.
-/

namespace WeaveAuth

namespace Bff

/-- Why a call to Hydra's token or revocation endpoint failed. -/
inductive HydraError where
  | unreachable (endpoint cause : String)
  /-- Hydra refused the grant: the token is dead. -/
  | rejected (endpoint : String) (status : ℕ)
  /-- Hydra refused bff itself, which says nothing about the token. -/
  | misconfigured (endpoint : String) (status : ℕ)
  | unavailable (endpoint : String) (status : ℕ)
  | unreadable (endpoint cause : String)
  deriving DecidableEq, Repr

/-- What Hydra's token endpoint handed out. -/
structure TokenSet where
  accessToken : String
  /-- `None` when Hydra did not rotate or issue one. -/
  refreshToken : Option String
  /-- `None` on a refresh that returned no new id_token. -/
  idToken : Option String
  expiresIn : Duration
  deriving DecidableEq, Repr

/-- The body of a successful answer. -/
structure TokenResponse where
  accessToken : String
  refreshToken : Option String
  idToken : Option String
  expiresIn : Option ℤ
  deriving DecidableEq, Repr

/-- The largest `expires_in` accepted from Hydra, in seconds. -/
def maxExpiresInSecs : ℤ := 86400

/-- An HTTP answer as the two readers of its body see it. -/
structure HttpResponse where
  status : ℕ
  /-- The body as an OAuth error, when it is one. -/
  oauthError : Option String
  /-- The body as a token response, or why it is none. -/
  token : Except String TokenResponse

/-- What the HTTP client hands over: a response, or the cause of having none. -/
abbrev Answer := Except String HttpResponse

/-- `StatusCode::is_success`. -/
def HttpResponse.isSuccess (response : HttpResponse) : Bool :=
  200 ≤ response.status && response.status < 300

/-- Passes a 2xx response through; classifies any other by the OAuth `error` of a 4xx body,
since the status alone does not tell a dead token from bad client credentials. -/
def checkResponse (endpoint : String) (response : HttpResponse) :
    Except HydraError HttpResponse :=
  if response.isSuccess then .ok response
  else
    let error := if 400 ≤ response.status && response.status < 500 then response.oauthError
      else none
    match error with
    | some "invalid_grant" | some "token_inactive" | some "access_denied" =>
      .error (.rejected endpoint response.status)
    | some "invalid_client" | some "unauthorized_client" =>
      .error (.misconfigured endpoint response.status)
    | _ => .error (.unavailable endpoint response.status)

/-- The name of the endpoint in its errors. -/
def tokenEndpoint : String := "token endpoint"

/-- The `expires_in` of a token response, when it is one bff accepts. -/
def TokenResponse.usableExpiresIn (token : TokenResponse) : Option ℤ :=
  token.expiresIn.filter fun seconds => 1 ≤ seconds && seconds ≤ maxExpiresInSecs

/-- `Hydra::token_request` from the moment `send` returns. -/
def tokenRequest (answer : Answer) : Except HydraError TokenSet :=
  match answer with
  | .error cause => .error (.unreachable tokenEndpoint cause)
  | .ok response =>
    match checkResponse tokenEndpoint response with
    | .error error => .error error
    | .ok response =>
      match response.token with
      | .error cause => .error (.unreadable tokenEndpoint cause)
      | .ok token =>
        match token.usableExpiresIn with
        | none => .error (.unreadable tokenEndpoint "no usable expires_in")
        | some seconds =>
          .ok ⟨token.accessToken, token.refreshToken, token.idToken, Duration.seconds seconds⟩

/-- The tokens an answer carries, whether or not bff accepts their `expires_in`. -/
def Answer.tokens? (answer : Answer) : Option TokenResponse :=
  match answer with
  | .error _ => none
  | .ok response => if response.isSuccess then response.token.toOption else none

/-- Only a 2xx response passes, and unchanged. -/
theorem checkResponse_ok {endpoint : String} {response response' : HttpResponse}
    (h : checkResponse endpoint response = .ok response') :
    response.isSuccess = true ∧ response' = response := by
  rw [checkResponse] at h
  split at h
  · next hsuccess =>
    cases h
    exact ⟨hsuccess, rfl⟩
  · dsimp only at h
    split at h <;> cases h

/-- What bff takes out of an answer is what the answer carries. -/
theorem tokens_of_tokenRequest {answer : Answer} {tokens : TokenSet}
    (h : tokenRequest answer = .ok tokens) :
    ∃ token, answer.tokens? = some token ∧ token.refreshToken = tokens.refreshToken ∧
      token.idToken = tokens.idToken := by
  rw [tokenRequest.eq_def] at h
  split at h
  · cases h
  · split at h
    · cases h
    · next hcheck =>
      obtain ⟨hsuccess, rfl⟩ := checkResponse_ok hcheck
      split at h
      · cases h
      · next token htoken =>
        split at h
        · cases h
        · cases h
          refine ⟨token, ?_, rfl, rfl⟩
          rw [Answer.tokens?, if_pos hsuccess, htoken]
          rfl

theorem exists_of_isOk {ε α : Type} {result : Except ε α} (h : result.isOk = true) :
    ∃ value, result = .ok value := by
  cases result with
  | ok value => exact ⟨value, rfl⟩
  | error error => cases h

/-! ### What Hydra did -/

/-- What a client presents to the token endpoint. -/
inductive Grant where
  | authorizationCode (code verifier : String)
  | refreshToken (token : String)
  deriving DecidableEq, Repr

/-- What Hydra did with a grant it was presented. -/
inductive Effect where
  /-- It redeemed the grant; for a refresh token, a new refresh token means that it rotated
  the one presented. -/
  | granted (refreshToken : Option String)
  /-- It refused the grant, which is dead. -/
  | refused
  /-- Neither. -/
  | nothing
  deriving DecidableEq, Repr

/-- bff reads the answer as Hydra's refusal of the grant. -/
def Answer.isRejected (answer : Answer) : Bool :=
  match tokenRequest answer with
  | .error (.rejected _ _) => true
  | _ => false

/-- An answer with tokens comes of a grant that was redeemed for them, a refusal of one that was
refused. Any effect may go with an answer that says neither: the answer was lost. -/
def Effect.agrees (effect : Effect) (answer : Answer) : Bool :=
  (match answer.tokens? with
    | some token => effect == .granted token.refreshToken
    | none => true)
  && (!answer.isRejected || effect == .refused)

end Bff

end WeaveAuth
