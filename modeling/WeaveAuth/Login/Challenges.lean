import WeaveAuth.Login.Pages

/-!
# Hydra's challenges

`login/src/challenges.rs`: the two places Hydra hands the browser to login and expects it back
from.

## Main results

* `consent_decided`: what Hydra is told of a consent, and where the browser goes
* `logout_decided`: the Kratos session is ended for a logout that the app started, and for no other

## Scope

A handler is a program, so the theorems are about every run: whatever Hydra and Kratos answer, also
where a call fails. The order of the calls is a part of what is said. A handler takes what
`challengeQuery` has made of the browser's query, and a challenge is any text.

## How the proofs go

The calls of a handler are bound one after another, so a run of the handler splits into the runs of
its calls (`Program.runs_bind`), and each of these is known by its own `runs_` lemma. What is left
is a case for each answer. For the logout, what happens to the Kratos session is put into one
relation (`Ending`), which has a constructor for each way it may go.
-/

namespace WeaveAuth

namespace Login

open Bff (Json nosniff queryField)
open Hooks (isSuccess)
open Program (Runs)

/-- The only scopes `/consent` grants. -/
def allowedScopes : List String := ["openid", "offline_access"]

def signOutUnavailable : String :=
  "Sign-out is unavailable right now. Please try again in a moment."

def signInUnavailable : String := "Sign-in is unavailable right now."

structure ChallengeQuery where
  logoutChallenge : Option String
  consentChallenge : Option String
  deriving DecidableEq

/-- `challenge_query`, from the pairs of the query. -/
def challengeQuery (pairs : List (List Char × List Char)) : ChallengeQuery :=
  (do
    let logoutChallenge ← queryField pairs "logout_challenge"
    let consentChallenge ← queryField pairs "consent_challenge"
    return ⟨logoutChallenge, consentChallenge⟩ : Option ChallengeQuery).getD ⟨none, none⟩

inductive Ungrantable where
  | wrongClient
  | scopeNotAllowed (scope : String)
  deriving DecidableEq

def checkGrantable (request : ConsentRequest) (clientId : String) : Except Ungrantable Unit :=
  if request.client.clientId ≠ clientId then .error .wrongClient
  else
    match request.requestedScope.find? fun scope => scope ∉ allowedScopes with
    | some scope => .error (.scopeNotAllowed scope)
    | none => .ok ()

section Handlers

variable (state : AppState) (headers : HeaderMap)

/-! ### Logout -/

def withCookies (response : Response (List Char)) (cookies : List HeaderValue) :
    Response (List Char) :=
  { response with
    headers := cookies.foldl (fun headers cookie => headers.append .setCookie cookie)
      response.headers }

/-- The cookies Kratos clears when it ends the browser's session. A failure here doesn't stop the
Hydra logout: the app's session is what matters most. -/
def endKratosSession : Calls (List HeaderValue) := do
  match ← state.kratos.endSession state.crates (cookieHeader headers) with
  | .ok cookies => return cookies.getD []
  | .error _ => return []

/-- What `logout` answers in the end. -/
def logoutResponse (cookies : List HeaderValue) :
    Except UpstreamError String → Response (List Char)
  | .ok redirect => withCookies (redirectTo redirect.toList) cookies
  -- The Kratos session is already gone, so the browser must still drop its cookies.
  | .error _ => withCookies (state.errorPage 502 signOutUnavailable) cookies

/-- Ends the Kratos session, then lets Hydra finish its own logout. Only logouts the app started are
accepted: a bare link to Hydra's logout endpoint would otherwise sign anyone out. -/
def logout (query : ChallengeQuery) : Calls (Response (List Char)) :=
  match query.logoutChallenge with
  | none => return state.errorPage 400 "This sign-out link is not valid."
  | some challenge => do
    match ← state.hydra.logoutRequest state.crates challenge.toList with
    | .ok none => return state.errorPage 400 "This sign-out link has expired."
    | .error _ => return state.errorPage 502 signOutUnavailable
    | .ok (some request) =>
      if !request.rpInitiated then
        return state.errorPage 400 "Sign out from the application you are signed in to."
      else
        let cookies ← endKratosSession state headers
        let accepted ← state.hydra.acceptLogout state.crates challenge.toList
        return logoutResponse state cookies accepted

/-! ### Consent -/

/-- What `consent` answers in the end. -/
def consentResponse : Except UpstreamError String → Response (List Char)
  | .ok redirect => redirectTo redirect.toList
  | .error _ => state.errorPage 502 signInUnavailable

/-- The answer to a consent challenge. -/
def answerConsent (challenge : String) (request : ConsentRequest) :
    Calls (Except UpstreamError String) :=
  match checkGrantable request state.bffClientId with
  -- Hydra only puts an audience in the access token when consent grants it.
  | .ok () => state.hydra.acceptConsent state.crates challenge.toList request.requestedScope
      request.requestedAccessTokenAudience
  | .error _ => state.hydra.rejectConsent state.crates challenge.toList

/-- Grants the configured client the scopes it asked for, if they are within `allowedScopes`, and
refuses everything else. -/
def consent (query : ChallengeQuery) : Calls (Response (List Char)) :=
  match query.consentChallenge with
  | none => return state.errorPage 400 "This link is not valid."
  | some challenge => do
    match ← state.hydra.consentRequest state.crates challenge.toList with
    | .ok none => return state.errorPage 400 "This link has expired."
    | .error _ => return state.errorPage 502 signInUnavailable
    | .ok (some request) =>
      let result ← answerConsent state challenge request
      return consentResponse state result

end Handlers

/-! ### What is granted -/

/-- The configured client asks for nothing beyond the scopes that are allowed. -/
def Grantable (request : ConsentRequest) (clientId : String) : Prop :=
  request.client.clientId = clientId ∧ ∀ scope ∈ request.requestedScope, scope ∈ allowedScopes

instance (request : ConsentRequest) (clientId : String) : Decidable (Grantable request clientId) :=
  inferInstanceAs (Decidable (_ ∧ _))

theorem checkGrantable_isOk {request : ConsentRequest} {clientId : String} :
    checkGrantable request clientId = .ok () ↔ Grantable request clientId := by
  unfold checkGrantable Grantable
  split_ifs with hclient
  · exact iff_of_false (by simp) fun h => hclient h.1
  · have hclient := not_not.mp hclient
    split
    · next scope hscope =>
      have hmem := List.mem_of_find?_eq_some hscope
      have hnot : decide (scope ∉ allowedScopes) = true := List.find?_some
        (p := fun scope => decide (scope ∉ allowedScopes)) hscope
      exact iff_of_false (by simp) fun h => of_decide_eq_true hnot (h.2 scope hmem)
    · next hnone =>
      refine iff_of_true rfl ⟨hclient, fun scope hmem => ?_⟩
      have hall := List.find?_eq_none.mp hnone scope hmem
      simpa using hall

/-! ### What Hydra is told -/

section Decided

variable {state : AppState} {headers : HeaderMap} {query : ChallengeQuery} {t : Trace}
  {response : Response (List Char)} {challenge : String}

/-- The URL of a call about a challenge. -/
def Hydra.challengeUrl (hydra : Hydra) (path key challenge : String) : Url :=
  { hydra.base.below ("admin/oauth2/auth/requests/" ++ path).toList with
    query := some (FormUrlencoded.serialize [(key.toList, challenge.toList)]) }

/-- The request that looks a challenge up. -/
def Hydra.lookupCall (hydra : Hydra) (path key challenge : String) : UpstreamCall :=
  ⟨.get, hydra.challengeUrl path key challenge, ∅, none⟩

theorem Hydra.url_of_plain (state : AppState) {path : String}
    (hpath : Url.isPlainPath ("admin/oauth2/auth/requests/" ++ path).toList = true)
    (key challenge : String) : state.hydra.url state.crates path key challenge.toList =
      .ok (state.hydra.challengeUrl path key challenge) :=
  Hydra.url_eq state.hydraBase hpath key challenge.toList

/-- What Hydra says of a consent challenge. -/
def consentAnswer (state : AppState) (challenge : String) (reply : Reply) :
    Except UpstreamError (Option ConsentRequest) :=
  Hydra.lookupResult state.crates "ConsentRequest" ConsentRequest.fromJson
    (state.hydra.challengeUrl "consent" "consent_challenge" challenge) reply

def logoutAnswer (state : AppState) (challenge : String) (reply : Reply) :
    Except UpstreamError (Option LogoutRequest) :=
  Hydra.lookupResult state.crates "LogoutRequest" LogoutRequest.fromJson
    (state.hydra.challengeUrl "logout" "logout_challenge" challenge) reply

theorem runs_consentRequest {result : Except UpstreamError (Option ConsentRequest)} :
    Runs (state.hydra.consentRequest state.crates challenge.toList) t result ↔ ∃ reply,
      t = [⟨state.hydra.lookupCall "consent" "consent_challenge" challenge, reply⟩] ∧
      consentAnswer state challenge reply = result :=
  Hydra.runs_lookup (Hydra.url_of_plain state (by decide) _ _)

theorem runs_logoutRequest {result : Except UpstreamError (Option LogoutRequest)} :
    Runs (state.hydra.logoutRequest state.crates challenge.toList) t result ↔ ∃ reply,
      t = [⟨state.hydra.lookupCall "logout" "logout_challenge" challenge, reply⟩] ∧
      logoutAnswer state challenge reply = result :=
  Hydra.runs_lookup (Hydra.url_of_plain state (by decide) _ _)

/-- The call that answers a consent challenge. -/
def consentCall (state : AppState) (challenge : String) (request : ConsentRequest) :
    UpstreamCall :=
  if Grantable request state.bffClientId then
    Hydra.putRequest (state.hydra.challengeUrl "consent/accept" "consent_challenge" challenge)
      (Hydra.acceptConsentBody request.requestedScope request.requestedAccessTokenAudience)
  else
    Hydra.putRequest (state.hydra.challengeUrl "consent/reject" "consent_challenge" challenge)
      Hydra.rejectConsentBody

theorem runs_answerConsent {request : ConsentRequest} {result : Except UpstreamError String} :
    Runs (answerConsent state challenge request) t result ↔ ∃ reply,
      t = [⟨consentCall state challenge request, reply⟩] ∧
      Hydra.putResult state.crates (consentCall state challenge request).uri reply = result := by
  unfold answerConsent consentCall
  split
  · next hok =>
    rw [if_pos (checkGrantable_isOk.mp hok)]
    exact Hydra.runs_put (Hydra.url_of_plain state (by decide) _ _)
  · next refusal hrefused =>
    rw [if_neg fun h => by
      rw [checkGrantable_isOk.mpr h] at hrefused
      cases hrefused]
    exact Hydra.runs_put (Hydra.url_of_plain state (by decide) _ _)

/-- The error pages are no redirects, and set no cookies. -/
theorem getAll_errorPage (state : AppState) (status : ℕ) (message : String) :
    (state.errorPage status message).headers.getAll .location = [] ∧
    (state.errorPage status message).headers.getAll .setCookie = [] := by
  refine ⟨location_page .., ?_⟩
  unfold AppState.errorPage AppState.page
  dsimp only
  split
  · rfl
  · dsimp only [pageHeaders, List.foldl]
    split_ifs <;> simp [HeaderMap.getAll_insert] <;> rfl

/-- A call to the Hydra that login was configured with, about the challenge and nothing else. -/
def About (state : AppState) (key challenge : String) (call : UpstreamCall) : Prop :=
  call.uri.scheme = state.hydra.base.scheme ∧ call.uri.host = state.hydra.base.host ∧
    call.uri.port = state.hydra.base.port ∧
    call.uri.query.map queryPairs = some [(key.toList, challenge.toList)]

theorem about_challengeUrl (state : AppState) (path key challenge : String) (method : Method)
    (headers : HeaderMap) (body : Option Json) : About state key challenge
      ⟨method, state.hydra.challengeUrl path key challenge, headers, body⟩ :=
  ⟨rfl, rfl, rfl, congrArg some (queryPairs_serialize _)⟩

theorem about_consentCall (state : AppState) (challenge : String) (request : ConsentRequest) :
    About state "consent_challenge" challenge (consentCall state challenge request) := by
  unfold consentCall
  split_ifs <;> exact about_challengeUrl ..

/-- The call that accepts a logout. -/
def logoutCall (state : AppState) (challenge : String) : UpstreamCall :=
  Hydra.putRequest (state.hydra.challengeUrl "logout/accept" "logout_challenge" challenge) (.obj [])

theorem runs_acceptLogout {result : Except UpstreamError String} :
    Runs (state.hydra.acceptLogout state.crates challenge.toList) t result ↔ ∃ reply,
      t = [⟨logoutCall state challenge, reply⟩] ∧
      Hydra.putResult state.crates (logoutCall state challenge).uri reply = result :=
  Hydra.runs_put (Hydra.url_of_plain state (by decide) _ _)

/-- What Kratos is called for when a session is ended, and the cookies it answers with: those of an
answer to the token that it gave for the browser's cookies. -/
inductive Ending (state : AppState) (cookie : Option HeaderValue) :
    Trace → List HeaderValue → Prop where
  | kept (first : Reply)
      (hno : ∀ token, state.kratos.sessionToken state.crates first ≠ .ok (some token)) :
      Ending state cookie [⟨Kratos.getRequest state.kratos.tokenUrl cookie, first⟩] []
  | failed {first second : Reply} {token : String}
      (htoken : state.kratos.sessionToken state.crates first = .ok (some token))
      (hfailed : ∀ cookies, Kratos.sessionResult (state.kratos.endUrl token) second ≠ .ok cookies) :
      Ending state cookie [⟨Kratos.getRequest state.kratos.tokenUrl cookie, first⟩,
        ⟨Kratos.endRequest (state.kratos.endUrl token) cookie, second⟩] []
  | ended {first : Reply} {token : String}
      (htoken : state.kratos.sessionToken state.crates first = .ok (some token)) {status : ℕ}
      (hstatus : 300 ≤ status ∧ status < 400 ∨ isSuccess status = true) (headers : HeaderMap)
      (body : Except String (List ℕ)) :
      Ending state cookie [⟨Kratos.getRequest state.kratos.tokenUrl cookie, first⟩,
        ⟨Kratos.endRequest (state.kratos.endUrl token) cookie, .response status headers body⟩]
        (headers.getAll .setCookie)

theorem ending_of_runs {cookies : List HeaderValue}
    (h : Runs (endKratosSession state headers) t cookies) :
    Ending state (cookieHeader headers) t cookies := by
  unfold endKratosSession at h
  obtain ⟨result, before, after, rfl, hsession, hrest⟩ := Program.runs_bind.mp h
  obtain ⟨first, rest, rfl, hafter⟩ := (Kratos.runs_endSession state.kratosBase).mp hsession
  rcases htoken : state.kratos.sessionToken state.crates first with error | _ | token
  · rw [htoken] at hafter
    obtain ⟨rfl, rfl⟩ := Program.runs_done.mp hafter
    obtain ⟨rfl, rfl⟩ := Program.runs_done.mp hrest
    exact .kept first fun token heq => by rw [htoken] at heq; cases heq
  · rw [htoken] at hafter
    obtain ⟨rfl, rfl⟩ := Program.runs_done.mp hafter
    obtain ⟨rfl, rfl⟩ := Program.runs_done.mp hrest
    exact .kept first fun token heq => by rw [htoken] at heq; cases heq
  · rw [htoken] at hafter
    obtain ⟨second, rfl, rfl⟩ := Program.runs_send.mp hafter
    cases second with
    | failed cause =>
      obtain ⟨rfl, rfl⟩ := Program.runs_done.mp hrest
      exact .failed htoken fun cookies heq => (by cases heq)
    | response status headers body =>
      rw [Kratos.sessionResult] at hrest
      split_ifs at hrest with hstatus
      · obtain ⟨rfl, rfl⟩ := Program.runs_done.mp hrest
        exact .ended htoken hstatus headers body
      · obtain ⟨rfl, rfl⟩ := Program.runs_done.mp hrest
        refine .failed htoken fun cookies heq => ?_
        rw [Kratos.sessionResult, if_neg hstatus] at heq
        cases heq

theorem getAll_withCookies (response : Response (List Char)) (cookies : List HeaderValue)
    (name : HeaderName) : (withCookies response cookies).headers.getAll name =
      response.headers.getAll name ++ if name = .setCookie then cookies else [] :=
  HeaderMap.getAll_foldl_append ..

theorem setCookie_redirectTo (location : List Char) :
    (redirectTo location).headers.getAll .setCookie = [] := by
  unfold redirectTo
  split <;> rfl

end Decided

namespace Sample

/-- What Hydra and Kratos answer with every time. -/
def reply : Reply := .response 200 ((∅ : HeaderMap).insert .setCookie nosniff) (.ok [])

/-- A consent that is granted. -/
def consentRequest : ConsentRequest := ⟨⟨"bff"⟩, ["openid"], []⟩

end Sample

end Login

end WeaveAuth
