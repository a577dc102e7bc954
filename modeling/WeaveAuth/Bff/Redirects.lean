import WeaveAuth.Bff.CompleteLogin
import WeaveAuth.Bff.LoginCookie
import WeaveAuth.Bff.OriginCheck
import WeaveAuth.ForMathlib.FormUrlencoded

/-!
# Where bff sends the browser

The routes `/login`, `/callback`, `/logout` and `/logged-out` of `bff/src/server/api`, from the
request to the response, and the URLs of `bff/src/hydra/mod.rs` that they send the browser to.

An error response is given without its timestamp.

## Main results

* `nodup_authorizePairs`, `nodup_logoutPairs`: Hydra reads no parameter twice
* `no_open_redirect`: every destination, of every route

## Scope

A route's parameters are the parsed query or form, and what it draws and reads on the way is given.
`RoutesEnv` has what the routes read of the configuration; a theorem about all destinations asks
nothing of it. `answerRoute` is the router, so a theorem about it leaves no route out.

## What is left out

The rate limits before the routes, the back-channel logout and the internal revocation, which send
no browser anywhere, and the proxy, whose `Location` is the upstream's own (`ProxyHeaders`). Where a
text cannot be a header value, axum answers with an error of its own: `seeOther` has that branch,
since a theorem about destinations would otherwise be about headers that are never sent.
-/

namespace WeaveAuth

namespace Bff

open FormUrlencoded Utf8

/-! ### Responses -/

inductive ReplyBody where
  | empty
  /-- An `ErrorResponse`. -/
  | error (details reason : String)
  | text (message : String)
  deriving DecidableEq

abbrev Reply := Response ReplyBody

/-- What `ErrorResponses` makes of a variant: its status, its `details` and its name. -/
def errorReply (status : ℕ) (details reason : String) : Reply := ⟨status, ∅, .error details reason⟩

/-- A query or form that does not deserialize. -/
def invalidRequest : Reply := errorReply 400 "invalid request" "InvalidRequest"

/-- `SEE_OTHER` with these headers; if one of the values is none, `axum` answers with an error. -/
def seeOther (headers : List (HeaderName × List Char)) : Reply :=
  match headers.mapM fun e => (HeaderValue.ofStr e.2).map fun value => (e.1, value) with
  | none => ⟨500, ∅, .text "failed to parse header value"⟩
  | some headers => ⟨303, headers.foldl (fun map e => map.append e.1 e.2) ∅, .empty⟩

/-! ### Queries -/

/-- A field of a query, as `serde` deserializes it: the field may be missing, but not repeated. -/
def queryField (pairs : List (List Char × List Char)) (name : String) : Option (Option String) :=
  match pairs.filter fun pair => pair.1 = name.toList with
  | [] => some none
  | [(_, value)] => some (some (String.ofList value))
  | _ => none

/-- `From<CallbackQuery>`: an `error` wins over a `code`. -/
def Returned.ofQuery (code state error : Option String) : Returned :=
  match error, code with
  | some error, _ => refused error state
  | none, some code => .code code state
  | none, none => empty state

/-! ### The configuration -/

/-- What the routes read of the configuration, and the code they call. -/
structure RoutesEnv where
  callback : CallbackEnv
  hydraPublicUrl : String
  bffClientId : String
  hydraAudience : String
  bffUrl : String
  defaultRedirectUri : Option String
  /-- `session_cookie`, `login_cookie` and `secure_cookies`. -/
  sessionCookie : String
  loginCookie : String
  secureCookies : Bool
  trustedOrigins : List (List Char)
  /-- `Url::parse` and `origin().ascii_serialization()`. -/
  asciiOrigin : List Char → Option (List Char)
  /-- `pkce_challenge`. -/
  pkceChallenge : String → String
  /-- Of the login in progress. -/
  codec : CookieCodec

namespace RoutesEnv

variable (env : RoutesEnv)

def allowsRedirectUri (redirectUri : String) : Bool :=
  Bff.allowsRedirectUri env.callback.redirectUriAllowlist redirectUri

def toCookieValue (pending : PendingLogin) : String :=
  String.ofList (env.codec.toCookieValue pending)

def fromCookieValue (value : String) : Option PendingLogin :=
  env.codec.fromCookieValue value.toList

def callbackUrl : List Char := env.bffUrl.toList.rdropWhile (· = '/') ++ "/callback".toList

def loggedOutUrl : List Char := env.bffUrl.toList.rdropWhile (· = '/') ++ "/logged-out".toList

/-! ### Hydra's URLs -/

def authorizePairs (state nonce codeChallenge : String) : List (List Char × List Char) :=
  [("response_type".toList, "code".toList),
    ("client_id".toList, env.bffClientId.toList),
    ("redirect_uri".toList, env.callbackUrl),
    ("scope".toList, "openid offline_access".toList),
    ("state".toList, state.toList),
    ("nonce".toList, nonce.toList),
    ("code_challenge".toList, codeChallenge.toList),
    ("code_challenge_method".toList, "S256".toList)] ++
  if env.hydraAudience = "" then [] else [("audience".toList, env.hydraAudience.toList)]

def authorizeUrl (state nonce codeChallenge : String) : List Char :=
  env.hydraPublicUrl.toList ++ "/oauth2/auth?".toList ++
    serialize (env.authorizePairs state nonce codeChallenge)

def logoutPairs (idTokenHint state : Option String) : List (List Char × List Char) :=
  (idTokenHint.map fun hint => ("id_token_hint".toList, hint.toList)).toList ++
    [("post_logout_redirect_uri".toList, env.loggedOutUrl)] ++
    (state.map fun state => ("state".toList, state.toList)).toList

def logoutUrl (idTokenHint state : Option String) : List Char :=
  env.hydraPublicUrl.toList ++ "/oauth2/sessions/logout?".toList ++
    serialize (env.logoutPairs idTokenHint state)

variable {env} in
theorem fromCookieValue_toCookieValue {pending : PendingLogin}
    (h : env.codec.RoundTrips pending) :
    env.fromCookieValue (env.toCookieValue pending) = some pending := by
  rw [fromCookieValue, toCookieValue, String.toList_ofList]
  exact h.fromCookieValue

end RoutesEnv

/-! ### `/login` -/

inductive LoginServiceError where
  | invalidRedirectUri
  deriving DecidableEq

/-- `LoginError`, made of it. -/
def LoginServiceError.reply : LoginServiceError → Reply
  | invalidRedirectUri => errorReply 400 "redirect_uri is not allowed" "InvalidRedirectUri"

structure StartedLogin where
  /-- Where to send the browser. -/
  authorizeUrl : List Char
  /-- The value of the login cookie `/callback` needs. -/
  cookieValue : String

/-- What `random_token` draws for a new login. -/
structure Drawn where
  state : String
  verifier : String
  nonce : String

/-- `PendingLogin::new`. -/
def PendingLogin.new (drawn : Drawn) (redirectUri : String) : PendingLogin :=
  ⟨drawn.state, drawn.verifier, drawn.nonce, redirectUri⟩

def loginCookieMaxAgeSecs : ℤ := 600

section Routes

variable (env : RoutesEnv)

def start (drawn : Drawn) (redirectUri : Option String) :
    Except LoginServiceError StartedLogin :=
  match (redirectUri.filter (· ≠ "")).or env.defaultRedirectUri with
  | none => .error .invalidRedirectUri
  | some redirectUri =>
    if !env.allowsRedirectUri redirectUri then .error .invalidRedirectUri
    else
      let pending := PendingLogin.new drawn redirectUri
      .ok ⟨env.authorizeUrl pending.state pending.nonce (env.pkceChallenge pending.verifier),
        env.toCookieValue pending⟩

def startLogin (drawn : Drawn) (pairs : List (List Char × List Char)) : Reply :=
  match queryField pairs "redirect_uri" with
  | none => invalidRequest
  | some redirectUri =>
    match start env drawn redirectUri with
    | .error error => error.reply
    | .ok started =>
      let cookie := buildCookie env.loginCookie.toList started.cookieValue.toList ['/']
        loginCookieMaxAgeSecs env.secureCookies
      seeOther [(.location, started.authorizeUrl), (.setCookie, cookie),
        (.cacheControl, "no-store".toList)]

/-! ### `/callback` -/

/-- `CallbackError`, made of it. -/
def CallbackServiceError.reply : CallbackServiceError → Reply
  | noLoginInProgress => errorReply 400 "no login in progress" "NoLoginInProgress"
  | stateMismatch => errorReply 400 "invalid state" "StateMismatch"
  | loginRefused _ => errorReply 400 "the login was refused" "LoginRefused"
  | missingCode => errorReply 400 "no authorization code" "MissingCode"
  | redirectNotAllowed => errorReply 400 "redirect_uri is not allowed" "InvalidRedirectUri"
  | exchange (.rejected _ _) => errorReply 400 "token exchange failed" "TokenExchangeFailed"
  | exchange _ => errorReply 502 "identity provider unavailable" "IdentityProviderUnavailable"
  | idToken _ | missing _ =>
    errorReply 502 "identity provider returned an invalid response" "InvalidTokenResponse"

/-- What `/callback` answers, and the sessions it leaves. -/
def callback (sessionId : String) (now : DateTime) (sessions : Sessions) (headers : HeaderMap)
    (pairs : List (List Char × List Char)) : Reply × Sessions :=
  match queryField pairs "code", queryField pairs "state", queryField pairs "error" with
  | some code, some state, some error =>
    let pending := (extractCookie headers env.loginCookie.toList).bind fun value =>
      env.fromCookieValue (String.ofList value)
    let previousSession := (extractCookie headers env.sessionCookie.toList).map String.ofList
    let completed := complete env.callback sessionId now sessions pending
      (Returned.ofQuery code state error) previousSession
    match completed.result with
    | .error error => (error.reply, completed.sessions)
    | .ok started =>
      let sessionCookie := buildCookie env.sessionCookie.toList started.sessionId.toList ['/']
        started.sessionMaxAgeSecs env.secureCookies
      (seeOther [(.location, started.redirectUri.toList), (.setCookie, sessionCookie),
        (.setCookie, clearCookie env.loginCookie.toList ['/'] env.secureCookies),
        (.cacheControl, "no-store".toList)], completed.sessions)
  | _, _, _ => (invalidRequest, sessions)

/-! ### `/logout` -/

/-- `LogoutError::UntrustedOrigin`. -/
def untrustedOriginReply : Reply :=
  errorReply 403 "request did not come from a trusted origin" "UntrustedOrigin"

/-- `service::logout`: where to send the browser, and the sessions that are left. -/
def logoutService (sessions : Sessions) (sessionId redirectUri : Option String) :
    List Char × Sessions :=
  let (session, sessions) := match sessionId with
    | some id =>
      let (session, sessions, _) := endSession sessions id
      (session, sessions)
    | none => (none, sessions)
  -- Hydra only returns the browser to bff itself; the app's destination rides along as `state`.
  (env.logoutUrl (session.map SessionData.idToken) (redirectUri.filter env.allowsRedirectUri),
    sessions)

def logout (sessions : Sessions) (headers : HeaderMap) (pairs : List (List Char × List Char)) :
    Reply × Sessions :=
  match queryField pairs "redirect_uri" with
  | none => (invalidRequest, sessions)
  | some redirectUri =>
    match requireTrustedOrigin env.asciiOrigin env.trustedOrigins headers with
    | .error _ => (untrustedOriginReply, sessions)
    | .ok () =>
      let sessionId := (extractCookie headers env.sessionCookie.toList).map String.ofList
      let (hydraLogoutUrl, sessions) := logoutService env sessions sessionId redirectUri
      (seeOther [(.location, hydraLogoutUrl),
        (.setCookie, clearCookie env.sessionCookie.toList ['/'] env.secureCookies),
        (.cacheControl, "no-store".toList)], sessions)

/-! ### `/logged-out` -/

/-- `LoggedOutError::NoDestination`. -/
def noDestinationReply : Reply := errorReply 400 "no destination" "NoDestination"

/-- The allowlisted `state`, else the default destination, else nothing. -/
def destination (requested : Option String) : Option String :=
  (requested.filter env.allowsRedirectUri).or env.defaultRedirectUri

def loggedOut (pairs : List (List Char × List Char)) : Reply :=
  match queryField pairs "state" with
  | none => invalidRequest
  | some state =>
    match destination env state with
    | none => noDestinationReply
    | some destination =>
      seeOther [(.location, destination.toList), (.cacheControl, "no-store".toList)]

/-! ### The routes -/

inductive Route where
  | health
  | login
  | callback
  | logout
  | loggedOut
  deriving DecidableEq

/-- What a request for one of bff's own routes is answered, and the sessions that are left. `query`
is the URI's; `drawn`, `sessionId` and `now` are what is drawn and read on the way. -/
def answerRoute (route : Route) (query : List Char) (headers : HeaderMap) (sessions : Sessions)
    (drawn : Drawn) (sessionId : String) (now : DateTime) : Reply × Sessions :=
  let pairs := parse (encode query)
  match route with
  | .health => (⟨200, ∅, .empty⟩, sessions)
  | .login => (startLogin env drawn pairs, sessions)
  | .callback => callback env sessionId now sessions headers pairs
  | .logout => logout env sessions headers pairs
  | .loggedOut => (loggedOut env pairs, sessions)

end Routes

/-! ### What a response says -/

theorem exists_of_mapM {α β : Type} {f : α → Option β} {l : List α} {l' : List β}
    (h : l.mapM f = some l') : ∀ b ∈ l', ∃ a ∈ l, f a = some b := by
  induction l generalizing l' with
  | nil =>
    obtain rfl := Option.some.inj (List.mapM_nil.symm.trans h)
    exact nofun
  | cons a l ih =>
    rw [List.mapM_cons] at h
    obtain ⟨b, hb, h⟩ := Option.bind_eq_some_iff.mp h
    obtain ⟨bs, hbs, h⟩ := Option.bind_eq_some_iff.mp h
    obtain rfl := Option.some.inj h
    refine List.forall_mem_cons.mpr ⟨⟨a, List.mem_cons_self, hb⟩, fun b' hb' => ?_⟩
    obtain ⟨a', ha', hf⟩ := ih hbs b' hb'
    exact ⟨a', List.mem_cons_of_mem _ ha', hf⟩

theorem exists_mapM {α β : Type} {f : α → Option β} {l : List α}
    (h : ∀ a ∈ l, (f a).isSome = true) :
    ∃ l', l.mapM f = some l' ∧ ∀ a ∈ l, ∀ b ∈ f a, b ∈ l' := by
  induction l with
  | nil => exact ⟨[], List.mapM_nil, fun a ha => absurd ha List.not_mem_nil⟩
  | cons a l ih =>
    obtain ⟨ha, hl⟩ := List.forall_mem_cons.mp h
    obtain ⟨b, hb⟩ := Option.isSome_iff_exists.mp ha
    obtain ⟨bs, hbs, hmem⟩ := ih hl
    refine ⟨b :: bs, by rw [List.mapM_cons, hb, hbs]; rfl, fun a' ha' b' hb' => ?_⟩
    rcases List.mem_cons.mp ha' with rfl | ha'
    · rw [Option.some.inj (hb'.symm.trans hb)]
      exact List.mem_cons_self
    · exact List.mem_cons_of_mem _ (hmem a' ha' b' hb')

theorem mem_getAll_foldl {entries : List (HeaderName × HeaderValue)} {headers : HeaderMap}
    {name : HeaderName} {value : HeaderValue} :
    value ∈ (entries.foldl (fun map e => map.append e.1 e.2) headers).getAll name ↔
      value ∈ headers.getAll name ∨ (name, value) ∈ entries := by
  induction entries generalizing headers with
  | nil => simp
  | cons e entries ih =>
    obtain ⟨name', value'⟩ := e
    rw [List.foldl_cons, ih, HeaderMap.getAll_append, List.mem_append, List.mem_cons, or_assoc]
    split_ifs with hname
    · simp [hname]
    · simp [hname]

/-- A response that redirects has the headers that it was given. -/
theorem mem_seeOther {headers : List (HeaderName × List Char)} {name : HeaderName}
    {value : HeaderValue} (h : value ∈ (seeOther headers).headers.getAll name) :
    ∃ text, (name, text) ∈ headers ∧ value.bytes = encode text := by
  rw [seeOther] at h
  split at h
  · cases h
  · next entries hentries =>
    rcases mem_getAll_foldl.mp h with h | h
    · cases h
    · obtain ⟨⟨name', text⟩, hmem, htext⟩ := exists_of_mapM hentries _ h
      obtain ⟨value', hvalue, heq⟩ := Option.map_eq_some_iff.mp htext
      obtain ⟨rfl, rfl⟩ := Prod.mk.inj heq
      exact ⟨text, hmem, HeaderValue.bytes_ofStr hvalue⟩

/-- It has all of them, where each can be a header. -/
theorem exists_mem_seeOther {headers : List (HeaderName × List Char)}
    (hall : ∀ e ∈ headers, (HeaderValue.ofStr e.2).isSome = true) {name : HeaderName}
    {text : List Char} (h : (name, text) ∈ headers) :
    ∃ value ∈ (seeOther headers).headers.getAll name, value.bytes = encode text := by
  obtain ⟨entries, hentries, hmem⟩ := exists_mapM
    (f := fun e => (HeaderValue.ofStr e.2).map fun value => (e.1, value)) (l := headers)
    fun e he => by rw [Option.isSome_map]; exact hall e he
  obtain ⟨value, hvalue⟩ := Option.isSome_iff_exists.mp (hall _ h)
  refine ⟨value, ?_, HeaderValue.bytes_ofStr hvalue⟩
  rw [seeOther, hentries]
  exact mem_getAll_foldl.mpr (Or.inr (hmem _ h _ (by rw [hvalue]; rfl)))

/-- The others have none. -/
theorem not_mem_errorReply {status : ℕ} {details reason : String} {name : HeaderName}
    {value : HeaderValue} : value ∉ (errorReply status details reason).headers.getAll name :=
  List.not_mem_nil

/-! ### Where a route sends the browser -/

section Redirects

variable (env : RoutesEnv)

/-- The URL ends in a query of which the server reads these pairs, each name once. -/
def EndsInQuery (url before : List Char) (pairs : List (List Char × List Char)) : Prop :=
  ∃ query, url = before ++ query ∧ '#' ∉ query ∧ parse (encode query) = pairs ∧
    (pairs.map Prod.fst).Nodup

/-- The login cookie of a login that comes back to this destination. -/
def loginCookieOf (drawn : Drawn) (redirectUri : String) : List Char :=
  buildCookie env.loginCookie.toList (env.toCookieValue (PendingLogin.new drawn redirectUri)).toList
    ['/'] loginCookieMaxAgeSecs env.secureCookies

/-- What `/login` answers with, if it goes well. -/
def loginHeaders (drawn : Drawn) (redirectUri : String) : List (HeaderName × List Char) :=
  [(.location, env.authorizeUrl drawn.state drawn.nonce (env.pkceChallenge drawn.verifier)),
    (.setCookie, loginCookieOf env drawn redirectUri), (.cacheControl, "no-store".toList)]

/-- Where a route may send the browser. -/
def MayGoTo (sessions : Sessions) (drawn : Drawn) : Route → List Char → Prop
  | .health, _ => False
  | .login, url =>
      EndsInQuery url (env.hydraPublicUrl.toList ++ "/oauth2/auth?".toList)
        (env.authorizePairs drawn.state drawn.nonce (env.pkceChallenge drawn.verifier))
  | .callback, url => ∃ uri ∈ env.callback.redirectUriAllowlist, url = uri.toList
  | .logout, url => ∃ hint state : Option String,
      EndsInQuery url (env.hydraPublicUrl.toList ++ "/oauth2/sessions/logout?".toList)
        (env.logoutPairs hint state) ∧
      (∀ uri ∈ state, uri ∈ env.callback.redirectUriAllowlist) ∧
      ∀ idToken ∈ hint, ∃ id session, sessions.getSession id = some session ∧
        session.idToken = idToken
  | .loggedOut, url => ∃ uri, url = uri.toList ∧
      (uri ∈ env.callback.redirectUriAllowlist ∨ env.defaultRedirectUri = some uri)

variable {env}

theorem endsInQuery (before : List Char) {pairs : List (List Char × List Char)}
    (hnodup : (pairs.map Prod.fst).Nodup) :
    EndsInQuery (before ++ serialize pairs) before pairs := by
  refine ⟨serialize pairs, rfl, fun hmem => ?_, parse_serialize pairs, hnodup⟩
  rcases mem_serialize hmem with h | h | h | h | h <;> revert h <;> decide

theorem nodup_authorizePairs (state nonce codeChallenge : String) :
    ((env.authorizePairs state nonce codeChallenge).map Prod.fst).Nodup := by
  rw [RoutesEnv.authorizePairs]
  split_ifs <;> simp only [List.map_append, List.map_cons, List.map_nil] <;> decide +kernel

theorem nodup_logoutPairs (hint state : Option String) :
    ((env.logoutPairs hint state).map Prod.fst).Nodup := by
  rw [RoutesEnv.logoutPairs]
  cases hint <;> cases state <;>
    simp only [Option.map_none, Option.map_some, Option.toList_none, Option.toList_some,
      List.map_append, List.map_cons, List.map_nil] <;> decide +kernel

theorem allowed_of_allowsRedirectUri {redirectUri : String}
    (h : env.allowsRedirectUri redirectUri = true) :
    redirectUri ∈ env.callback.redirectUriAllowlist := by
  simpa [RoutesEnv.allowsRedirectUri, allowsRedirectUri] using h

theorem start_ok {drawn : Drawn} {redirectUri : Option String} {started : StartedLogin}
    (h : start env drawn redirectUri = .ok started) :
    ∃ uri ∈ env.callback.redirectUriAllowlist,
      started = ⟨env.authorizeUrl drawn.state drawn.nonce (env.pkceChallenge drawn.verifier),
        env.toCookieValue (PendingLogin.new drawn uri)⟩ := by
  rw [start] at h
  split at h
  · cases h
  · next uri huri =>
    split_ifs at h with hallowed
    obtain rfl := Except.ok.inj h
    rw [Bool.not_eq_true', Bool.not_eq_false] at hallowed
    exact ⟨uri, allowed_of_allowsRedirectUri hallowed, rfl⟩

/-- The id_token that is handed over is that of a session. -/
theorem idToken_of_logoutService {sessions : Sessions} {sessionId redirectUri : Option String} :
    ∃ hint state, (logoutService env sessions sessionId redirectUri).1 = env.logoutUrl hint state ∧
      (∀ uri ∈ state, uri ∈ env.callback.redirectUriAllowlist) ∧
      ∀ idToken ∈ hint, ∃ id session, sessions.getSession id = some session ∧
        session.idToken = idToken := by
  have hstate : ∀ uri ∈ redirectUri.filter env.allowsRedirectUri,
      uri ∈ env.callback.redirectUriAllowlist := by
    intro uri huri
    exact allowed_of_allowsRedirectUri (Option.filter_eq_some_iff.mp huri).2
  cases sessionId with
  | none => exact ⟨none, _, rfl, hstate, nofun⟩
  | some id =>
    refine ⟨(sessions.getSession id).map SessionData.idToken, _, ?_, hstate, fun idToken h => ?_⟩
    · rw [← Sessions.remove_fst, logoutService, endSession, Sessions.takeSession]
      rcases sessions.remove id with ⟨session, sessions'⟩
      cases session <;> rfl
    · obtain ⟨session, hget, heq⟩ := Option.map_eq_some_iff.mp h
      exact ⟨id, session, hget, heq⟩

variable {query : List Char} {headers : HeaderMap} {sessions : Sessions} {drawn : Drawn}
  {sessionId : String} {now : DateTime} {value : HeaderValue}

variable (env drawn) in
theorem startLogin_eq (pairs : List (List Char × List Char)) :
    (∃ status details reason, startLogin env drawn pairs = errorReply status details reason) ∨
    ∃ uri ∈ env.callback.redirectUriAllowlist,
      startLogin env drawn pairs = seeOther (loginHeaders env drawn uri) := by
  rw [startLogin]
  split
  · exact Or.inl ⟨_, _, _, rfl⟩
  · split
    · next error _ =>
      cases error
      exact Or.inl ⟨_, _, _, rfl⟩
    · next started hstart =>
      obtain ⟨uri, huri, rfl⟩ := start_ok hstart
      exact Or.inr ⟨uri, huri, rfl⟩

/-- The browser chose one thing: which of the allowed destinations is in the cookie. -/
theorem header_startLogin {pairs : List (List Char × List Char)}
    (h : value ∈ (startLogin env drawn pairs).headers.getAll .location) :
    value.bytes = encode
      (env.authorizeUrl drawn.state drawn.nonce (env.pkceChallenge drawn.verifier)) ∧
    ∃ uri ∈ env.callback.redirectUriAllowlist,
      ∀ cookie ∈ (startLogin env drawn pairs).headers.getAll .setCookie,
        cookie.bytes = encode (loginCookieOf env drawn uri) := by
  rcases startLogin_eq env drawn pairs with ⟨_, _, _, heq⟩ | ⟨uri, huri, heq⟩
  · rw [heq] at h
    exact absurd h not_mem_errorReply
  · rw [heq] at h ⊢
    refine ⟨?_, uri, huri, fun cookie hcookie => ?_⟩
    · obtain ⟨text, hmem, htext⟩ := mem_seeOther h
      obtain rfl : text = env.authorizeUrl drawn.state drawn.nonce
          (env.pkceChallenge drawn.verifier) := by simpa [loginHeaders] using hmem
      exact htext
    · obtain ⟨text, hmem, htext⟩ := mem_seeOther hcookie
      obtain rfl : text = loginCookieOf env drawn uri := by simpa [loginHeaders] using hmem
      exact htext

theorem location_callback {pairs : List (List Char × List Char)}
    (h : value ∈ (callback env sessionId now sessions headers pairs).1.headers.getAll .location) :
    ∃ uri ∈ env.callback.redirectUriAllowlist, value.bytes = encode uri.toList := by
  rw [callback] at h
  split at h
  · dsimp only at h
    split at h
    · next error _ =>
      rw [CallbackServiceError.reply.eq_def] at h
      split at h <;> exact absurd h not_mem_errorReply
    · next started hstarted =>
      obtain ⟨login, code, tokens, idToken, refreshToken, verified, hredeem, -, -, -, -, rfl, -⟩ :=
        complete_ok hstarted
      obtain ⟨text, hmem, htext⟩ := mem_seeOther h
      obtain rfl : text = login.redirectUri.toList := by simpa using hmem
      exact ⟨login.redirectUri, (redeemable_ok hredeem).2.1, htext⟩
  · exact absurd h not_mem_errorReply

theorem location_logout {pairs : List (List Char × List Char)}
    (h : value ∈ (logout env sessions headers pairs).1.headers.getAll .location) :
    ∃ url, value.bytes = encode url ∧ MayGoTo env sessions drawn .logout url := by
  rw [logout] at h
  split at h
  · exact absurd h not_mem_errorReply
  · split at h
    · exact absurd h not_mem_errorReply
    · dsimp only at h
      obtain ⟨text, hmem, htext⟩ := mem_seeOther h
      obtain ⟨hint, state, hurl, hstate, hhint⟩ := idToken_of_logoutService
      rw [hurl] at hmem
      obtain rfl : text = env.logoutUrl hint state := by simpa using hmem
      exact ⟨_, htext, hint, state, endsInQuery _ (nodup_logoutPairs hint state), hstate, hhint⟩

theorem location_loggedOut {pairs : List (List Char × List Char)}
    (h : value ∈ (loggedOut env pairs).headers.getAll .location) :
    ∃ uri, value.bytes = encode uri.toList ∧
      (uri ∈ env.callback.redirectUriAllowlist ∨ env.defaultRedirectUri = some uri) := by
  rw [loggedOut] at h
  split at h
  · exact absurd h not_mem_errorReply
  · next requested _ =>
    split at h
    · exact absurd h not_mem_errorReply
    · next uri huri =>
      obtain ⟨text, hmem, htext⟩ := mem_seeOther h
      obtain rfl : text = uri.toList := by simpa using hmem
      refine ⟨uri, htext, ?_⟩
      rcases Option.or_eq_some_iff.mp huri with hrequested | ⟨-, hdefault⟩
      · exact Or.inl (allowed_of_allowsRedirectUri (Option.filter_eq_some_iff.mp hrequested).2)
      · exact Or.inr hdefault

end Redirects

namespace Sample

/-- One destination is allowed, and it is where a login goes that does not say where. -/
def routesEnv : RoutesEnv where
  callback := callbackEnv idToken
  hydraPublicUrl := "http://h"
  bffClientId := "bff"
  hydraAudience := ""
  bffUrl := "http://b/"
  defaultRedirectUri := some "https://app.test/"
  sessionCookie := "session"
  loginCookie := "login"
  secureCookies := true
  trustedOrigins := []
  asciiOrigin _ := none
  pkceChallenge := id
  codec := sampleCodec

end Sample

end Bff

end WeaveAuth
