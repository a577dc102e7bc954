import WeaveAuth.Bff.ProxyHeaders
import WeaveAuth.Login.Proxy

/-!
# The way back from Kratos

The rest of `login/src/proxy.rs`: what Kratos' answer says about the attempt it answers, and what
the browser gets of it.

## Main results

* `outcome_cases`: an attempt succeeds only by a session cookie, and is given back only by an
  answer that says that Kratos did not look at it
* `getAll_intoResponse`: what is left of the answer's headers
* `answer_firewall`

## Scope

Every answer, with any status, headers and body. Which of them are answers of a Kratos that has
checked a password is the code's own judgement (`outcome`), and what it takes for one is what
`outcome_cases` says; whether Kratos has looked at the password is not known to login.
-/

namespace WeaveAuth

namespace Login

open Bff (headerValue nosniff noStore)

/-- Kratos' answer, read in full. -/
abbrev Answer := Response (List ℕ)

/-- What `outcome` reads of the state, and the code it calls. The own origin is one of a web
server, which is no opaque one. -/
structure AnswerEnv where
  rules : UrlRules
  ownOrigin : Url
  /-- `kratos_session_cookie`. -/
  sessionCookie : List Char

/-! ### What the answer says -/

/-- The name and the value of a `Set-Cookie`. -/
def setCookiePair (value : HeaderValue) : Option (List Char × List Char) := do
  let setCookie ← value.toStr
  splitOnce '=' (setCookie.takeWhile (· ≠ ';'))

/-- Whether the answer sets a non-empty Kratos session cookie called `cookie`. -/
def setsSession (headers : HeaderMap) (cookie : List Char) : Bool :=
  ((headers.getAll .setCookie).filterMap setCookiePair).any fun pair =>
    trim pair.1 = cookie && !(trim pair.2).isEmpty

/-- Login's own pages and Kratos' flow starts: where a failed submission is sent back to. -/
def isUiPath (path : List Char) : Bool :=
  ["/login", "/registration", "/recovery", "/verification", "/settings"].any
    (fun page => path = page.toList) || "/self-service/".toList.isPrefixOf path

section Outcome

variable (env : AnswerEnv) (answer : Answer)

def signedIn : Outcome :=
  if setsSession answer.headers env.sessionCookie then .succeeded else .failed

/-- Where the answer sends the browser. -/
def target : Option Url := do
  let value ← answer.headers.get .location
  let location ← value.toStr
  Url.parse env.rules (some env.ownOrigin) location

def outcome : Outcome :=
  -- Kratos' "go here next", once the credentials checked out.
  if answer.status = 422 then signedIn env answer
  else if answer.status = 403 ∨ answer.status = 429 ∨ 500 ≤ answer.status ∧ answer.status < 600 then
    .notAnAttempt
  else if 200 ≤ answer.status ∧ answer.status < 300 then signedIn env answer
  else if ¬(300 ≤ answer.status ∧ answer.status < 400) then .failed
  else
    match target env answer with
    | some target =>
      if Url.asciiOrigin env.rules target = Url.asciiOrigin env.rules env.ownOrigin then
        if target.pathText = "/error".toList then .notAnAttempt
        else if isUiPath target.pathText then .failed
        else signedIn env answer
      else signedIn env answer
    | none => .failed

end Outcome

/-! ### What the browser gets -/

/-- Kratos' own `Content-Security-Policy` and the like are not among them. -/
def forwardedResponseHeaders : List HeaderName :=
  [.contentType, .cacheControl, .location, .retryAfter, .contentDisposition]

def answerContentSecurityPolicy : HeaderValue :=
  headerValue "default-src 'none'; frame-ancestors 'none'; sandbox" (by decide +kernel)

def intoResponse (answer : Answer) : Response (List ℕ) :=
  let headers : HeaderMap := forwardedResponseHeaders.foldl (fun headers name =>
    (answer.headers.getAll name).foldl (fun headers value => headers.append name value) headers) ∅
  let headers := (answer.headers.getAll .setCookie).foldl
    (fun headers value => headers.append .setCookie value) headers
  let headers := headers.insert .xContentTypeOptions nosniff
  let headers := headers.insert .contentSecurityPolicy answerContentSecurityPolicy
  let headers := if headers.containsKey .cacheControl then headers
    else headers.insert .cacheControl noStore
  ⟨answer.status, headers, answer.body⟩

/-! ### Settling -/

variable {env : AnswerEnv} {answer answer' : Answer}

theorem setsSession_of_signedIn (h : signedIn env answer = .succeeded) :
    setsSession answer.headers env.sessionCookie = true := by
  unfold signedIn at h
  split_ifs at h with hsets
  exact hsets

theorem signedIn_ne_notAnAttempt : signedIn env answer ≠ .notAnAttempt := by
  unfold signedIn
  split_ifs <;> simp

/-- The answer says that Kratos has not looked at the password: it refused the request before, or
broke down, or sends the browser to login's error page. -/
def Unchecked (env : AnswerEnv) (answer : Answer) : Prop :=
  answer.status = 403 ∨ answer.status = 429 ∨ 500 ≤ answer.status ∧ answer.status < 600 ∨
    300 ≤ answer.status ∧ answer.status < 400 ∧ ∃ url ∈ target env answer,
      Url.asciiOrigin env.rules url = Url.asciiOrigin env.rules env.ownOrigin ∧
      url.pathText = "/error".toList

instance (env : AnswerEnv) (answer : Answer) : Decidable (Unchecked env answer) :=
  inferInstanceAs (Decidable (_ ∨ _ ∨ _ ∨ _))

/-- What a redirect says. -/
theorem outcome_redirect (h : 300 ≤ answer.status ∧ answer.status < 400) :
    (outcome env answer = .succeeded → signedIn env answer = .succeeded) ∧
    (outcome env answer = .notAnAttempt ↔ ∃ url ∈ target env answer,
      Url.asciiOrigin env.rules url = Url.asciiOrigin env.rules env.ownOrigin ∧
      url.pathText = "/error".toList) := by
  have hstatus : answer.status ≠ 422 ∧ ¬(answer.status = 403 ∨ answer.status = 429 ∨
      500 ≤ answer.status ∧ answer.status < 600) ∧
      ¬(200 ≤ answer.status ∧ answer.status < 300) := by
    omega
  rw [outcome, if_neg hstatus.1, if_neg hstatus.2.1, if_neg hstatus.2.2, if_neg (not_not.mpr h)]
  cases htarget : target env answer with
  | none => simp
  | some url =>
    simp only [Option.mem_some_iff, exists_eq_left']
    split_ifs with horigin herror hui
    · exact ⟨fun h => (by cases h), iff_of_true rfl ⟨horigin, herror⟩⟩
    · exact ⟨fun h => (by cases h), iff_of_false (by simp) fun h => herror h.2⟩
    · exact ⟨id, iff_of_false signedIn_ne_notAnAttempt fun h => herror h.2⟩
    · exact ⟨id, iff_of_false signedIn_ne_notAnAttempt fun h => horigin h.1⟩

/-- **What an attempt is settled with.** -/
theorem outcome_cases :
    (outcome env answer = .succeeded → setsSession answer.headers env.sessionCookie = true) ∧
    (outcome env answer = .notAnAttempt ↔ Unchecked env answer) := by
  by_cases hredirect : 300 ≤ answer.status ∧ answer.status < 400
  · obtain ⟨hsucceeded, hunchecked⟩ := @outcome_redirect env answer hredirect
    refine ⟨fun h => setsSession_of_signedIn (hsucceeded h), hunchecked.trans ⟨fun h =>
      .inr (.inr (.inr ⟨hredirect.1, hredirect.2, h⟩)), ?_⟩⟩
    rintro (hrefused | hrefused | hrefused | ⟨-, -, herror⟩)
    · omega
    · omega
    · omega
    · exact herror
  · have hunchecked : Unchecked env answer ↔ answer.status = 403 ∨ answer.status = 429 ∨
        500 ≤ answer.status ∧ answer.status < 600 := by
      refine ⟨?_, fun h => h.imp_right (.imp_right .inl)⟩
      rintro (hrefused | hrefused | hrefused | ⟨hfrom, hto, -⟩)
      · exact .inl hrefused
      · exact .inr (.inl hrefused)
      · exact .inr (.inr hrefused)
      · exact absurd ⟨hfrom, hto⟩ hredirect
    rw [hunchecked, outcome]
    split_ifs with hnext hrefused hok
    · exact ⟨setsSession_of_signedIn, iff_of_false signedIn_ne_notAnAttempt (by omega)⟩
    · exact ⟨fun h => (by cases h), iff_of_true rfl hrefused⟩
    · exact ⟨setsSession_of_signedIn, iff_of_false signedIn_ne_notAnAttempt hrefused⟩
    · exact ⟨fun h => (by cases h), iff_of_false (by simp) hrefused⟩

/-! ### The firewall -/

theorem nodup_forwardedResponseHeaders : forwardedResponseHeaders.Nodup := by decide

/-- The headers that are passed on. -/
theorem getAll_forwarded (headers : HeaderMap) (name : HeaderName) :
    ((headers.getAll .setCookie).foldl
      (fun (kept : HeaderMap) value => kept.append .setCookie value)
      (forwardedResponseHeaders.foldl (fun (kept : HeaderMap) name => (headers.getAll name).foldl
        (fun (kept : HeaderMap) value => kept.append name value) kept) ∅)).getAll name =
      if name ∈ .setCookie :: forwardedResponseHeaders then headers.getAll name else [] := by
  rw [HeaderMap.getAll_foldl_append,
    Bff.getAll_foldl_allowed headers ∅ nodup_forwardedResponseHeaders]
  by_cases hcookie : name = .setCookie
  · subst hcookie
    simp [forwardedResponseHeaders]
    rfl
  · simp only [hcookie, if_false, List.append_nil, List.mem_cons, false_or]
    rfl

/-- **What is left of the answer's headers.** -/
theorem getAll_intoResponse (answer : Answer) (name : HeaderName) :
    (intoResponse answer).headers.getAll name =
      if name = .cacheControl ∧ answer.headers.getAll .cacheControl = [] then [noStore]
      else if name = .contentSecurityPolicy then [answerContentSecurityPolicy]
      else if name = .xContentTypeOptions then [nosniff]
      else if name ∈ .setCookie :: forwardedResponseHeaders then answer.headers.getAll name
      else [] := by
  have hcontains : ∀ headers : HeaderMap, headers.containsKey .cacheControl = true ↔
      headers.getAll .cacheControl ≠ [] := fun headers => by
    rw [← Bool.not_eq_false, ne_eq, not_iff_not, HeaderMap.containsKey_eq_false]
  have hcache := getAll_forwarded answer.headers .cacheControl
  rw [if_pos (by decide)] at hcache
  simp only [intoResponse, hcontains]
  simp only [HeaderMap.getAll_insert, reduceCtorEq, if_false, hcache]
  split_ifs <;> simp_all [HeaderMap.getAll_insert, getAll_forwarded]

/-- **The browser gets no more than login means it to.** Of two answers of Kratos with the same
status and body, the same cookies and the same values of `forwardedResponseHeaders`, the browser
gets the same; whatever the answer, it gets every cookie that Kratos sets, one
`Content-Security-Policy`, which is login's own, one `nosniff`, and a `Cache-Control`. -/
theorem answer_firewall (answer : Answer) :
    (∀ answer' : Answer, answer.status = answer'.status → answer.body = answer'.body →
      (∀ name ∈ .setCookie :: forwardedResponseHeaders,
        answer.headers.getAll name = answer'.headers.getAll name) →
      intoResponse answer = intoResponse answer') ∧
    (intoResponse answer).headers.getAll .setCookie = answer.headers.getAll .setCookie ∧
    (intoResponse answer).headers.getAll .contentSecurityPolicy = [answerContentSecurityPolicy] ∧
    (intoResponse answer).headers.getAll .xContentTypeOptions = [nosniff] ∧
    (intoResponse answer).headers.getAll .cacheControl ≠ [] := by
  refine ⟨fun answer' hstatus hbody hheaders => ?_, ?_, ?_, ?_, ?_⟩
  · have hmap : (intoResponse answer).headers = (intoResponse answer').headers := by
      ext1
      funext name
      rw [getAll_intoResponse, getAll_intoResponse, hheaders .cacheControl (by decide)]
      split_ifs with _ _ _ hname
      · rfl
      · rfl
      · rfl
      · exact hheaders name hname
      · rfl
    calc intoResponse answer = ⟨answer.status, (intoResponse answer).headers, answer.body⟩ := rfl
      _ = ⟨answer'.status, (intoResponse answer').headers, answer'.body⟩ := by
        rw [hstatus, hmap, hbody]
      _ = intoResponse answer' := rfl
  · rw [getAll_intoResponse]
    rfl
  · rw [getAll_intoResponse]
    rfl
  · rw [getAll_intoResponse]
    rfl
  · rw [getAll_intoResponse]
    by_cases hnone : answer.headers.getAll .cacheControl = []
    · simp [hnone]
    · rw [if_neg fun h => hnone h.2]
      exact hnone

end Login

end WeaveAuth
