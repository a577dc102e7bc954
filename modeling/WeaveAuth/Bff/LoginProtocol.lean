import WeaveAuth.Bff.LoginCookie
import WeaveAuth.Bff.Proxy
import WeaveAuth.Bff.Redirects
import WeaveAuth.ForMathlib.Except

/-!
# A login, between browsers, bff and Hydra

The protocol that `/login` and `/callback` of `bff/src/server/api` run with Hydra's authorization
endpoint and its token endpoint, through browsers that anybody may send to any of these with any
query, and beside clients that are no browsers and send any headers.

## Scope

Hydra is not modelled: what it grants and answers comes with the events, and `IsHydra` is what is
used of that, as OAuth 2.0 with PKCE and OpenID Connect have it. A code is granted to who signs in,
for the `S256` challenge and the nonce of the request; tokens are handed out for it once, to the
challenge's verifier; and an id_token that verifies names who signed in, and the nonce. Whether it
answers at all, and with what error, is left open.

`Rules` is what of one browser's logins stays with it: its authorization requests are not made
elsewhere, and nobody else has a verifier for their challenges. All the others may be anybody's.

A callback is one step here, its one call included. What runs beside it is left to the tasks of
`Bff.System`.

## Main results

* `callback_cases`: a callback finishes a login, or is refused and changes nothing
* `Completes.redeems`: one that finishes a login has redeemed a code, and starts the session of the
  user whom the code was granted to
-/

namespace WeaveAuth

namespace Bff

namespace LoginProtocol

open FormUrlencoded Utf8

abbrev BrowserId := ℕ

/-! ### States -/

/-- A code that Hydra granted to bff. -/
structure Authorization where
  code : String
  /-- An `S256` one. -/
  codeChallenge : Option String
  nonce : Option String
  /-- Who signed in. -/
  userId : Uuid
  /-- Where. -/
  browser : BrowserId

/-- The first value of a query's parameter. -/
def param (pairs : List (List Char × List Char)) (name : String) : Option String :=
  (pairs.find? fun pair => pair.1 = name.toList).map fun pair => String.ofList pair.2

/-- A code that Hydra handed out tokens for. -/
structure Redemption where
  code : String
  /-- The id that the callback draws for its session. -/
  sessionId : String
  /-- The browser whose request it is; none for what is no browser. -/
  sender : Option BrowserId

/-- bff's configuration, and the code it calls. -/
structure LoginEnv (Token Keys : Type) where
  /-- Its exchange and its verification come with the callbacks. -/
  routes : RoutesEnv
  openId : OpenIdConnect Token Keys

structure State where
  sessions : Sessions
  /-- What the browsers were answered. -/
  given : List (BrowserId × Reply)
  /-- What was drawn for the logins that they started. -/
  drawn : List (BrowserId × Drawn)
  authorizations : List Authorization
  redemptions : List Redemption

def State.start : State := ⟨Sessions.empty, [], [], [], []⟩

/-- What the token endpoint answers a code and a verifier. -/
abbrev Exchange := String → String → Answer

section Step

variable {Token Keys : Type} (env : LoginEnv Token Keys)

def LoginEnv.challenge (drawn : Drawn) : String := env.routes.pkceChallenge drawn.verifier

/-- The routes, with the keys that the JWKS cache gives. -/
def LoginEnv.routesWith (keysFor : Option String → Except JwksError Keys) (exchange : Exchange) :
    RoutesEnv :=
  { env.routes with
    callback := { env.routes.callback with
      exchangeCode := fun code verifier => tokenRequest (exchange code verifier)
      verifyIdToken := verifyIdToken env.openId env.routes.hydraPublicUrl env.routes.bffClientId
        keysFor } }

/-- The login in progress that a request brings. -/
def pendingLogin (routes : RoutesEnv) (headers : HeaderMap) : Option PendingLogin :=
  (extractCookie headers routes.loginCookie.toList).bind fun value =>
    routes.fromCookieValue (String.ofList value)

/-- The login that a callback finishes, and the code that it asks Hydra to redeem. -/
def asked (routes : RoutesEnv) (headers : HeaderMap) (pairs : List (List Char × List Char)) :
    Option (PendingLogin × String) :=
  match queryField pairs "code", queryField pairs "state", queryField pairs "error" with
  | some code, some state, some error =>
    (redeemable routes.callback.digest routes.callback.redirectUriAllowlist
      (pendingLogin routes headers) (Returned.ofQuery code state error)).toOption
  | _, _, _ => none

/-- The code that is redeemed. -/
def redeemedCode (headers : HeaderMap) (pairs : List (List Char × List Char))
    (exchange : Exchange) : Option String := do
  let (pending, code) ← asked env.routes headers pairs
  if (exchange code pending.verifier).tokens?.isSome then some code else none

inductive Event (Keys : Type) where
  /-- A browser is sent to `/login`. -/
  | login (browser : BrowserId) (query : List Char) (drawn : Drawn)
  /-- A user signs in in a browser that was sent to Hydra's authorization endpoint, and Hydra grants
  bff a code. -/
  | authorize (browser : BrowserId) (query : List Char) (granted : Authorization)
  /-- A request to `/callback`. -/
  | callback (sender : Option BrowserId) (headers : HeaderMap) (query : List Char)
      (sessionId : String) (now : DateTime) (keysFor : Option String → Except JwksError Keys)
      (exchange : Exchange)
  /-- A session gets other tokens. -/
  | refresh (sessionId : String) (tokens : TokenSet) (now now' : DateTime)
  /-- Sessions end. -/
  | revoke (ids : List String)

def step (s : State) : Event Keys → Option State
  | .login browser query drawn =>
    let reply := startLogin env.routes drawn (parse (encode query))
    some { s with drawn := (browser, drawn) :: s.drawn, given := (browser, reply) :: s.given }
  | .authorize _ _ granted => some { s with authorizations := granted :: s.authorizations }
  | .callback sender headers query sessionId now keysFor exchange =>
    -- `Uuid::new_v4` draws a new one.
    if sessionId ∈ s.redemptions.map Redemption.sessionId then none
    else
      let pairs := parse (encode query)
      let (reply, sessions) :=
        callback (env.routesWith keysFor exchange) sessionId now s.sessions headers pairs
      some { s with
        sessions := sessions
        given := (sender.map fun browser => (browser, reply)).toList ++ s.given
        redemptions := ((redeemedCode env headers pairs exchange).map fun code =>
          ⟨code, sessionId, sender⟩).toList ++ s.redemptions }
  | .refresh sessionId tokens now now' => do
    let session ← s.sessions.getSession sessionId
    let sessions ← s.sessions.updateSession sessionId
      (refreshed env.routes.callback.refreshTtl session tokens now now')
    return { s with sessions := sessions }
  | .revoke ids => some { s with sessions := (s.sessions.removeAll ids).2 }

/-! ### Browsers -/

/-- A browser drops the cookie. -/
def isExpired (setCookie : List Char) : Bool := "; Max-Age=0".toList.isSuffixOf setCookie

/-- The browser was given the cookie, under this name. -/
def State.Given (s : State) (browser : BrowserId) (name setCookie : List Char) : Prop :=
  isExpired setCookie = false ∧ (splitOnce '=' (cookiePair setCookie)).map Prod.fst = some name ∧
    ∃ reply, (browser, reply) ∈ s.given ∧ ∃ value ∈ reply.headers.getAll .setCookie,
      value.bytes = encode setCookie

/-- A browser sends bff's cookies as it was given them, if at all. -/
def Sends (s : State) (browser : BrowserId) (headers : HeaderMap) : Prop :=
  ∀ name ∈ [env.routes.loginCookie.toList, env.routes.sessionCookie.toList],
    extractCookie headers name = none ∨
    ∃ setCookie, s.Given browser name setCookie ∧ SentBack name setCookie headers

/-! ### What is used of Hydra -/

/-- A code is bound to the `S256` challenge of the request, and to its nonce. -/
structure Authorization.BoundTo (a : Authorization) (pairs : List (List Char × List Char)) :
    Prop where
  codeChallenge : ∀ challenge, a.codeChallenge = some challenge ↔
    param pairs "code_challenge_method" = some "S256" ∧
      param pairs "code_challenge" = some challenge
  nonce : a.nonce = param pairs "nonce"

/-- What is used of the authorization endpoint. -/
structure Grants (s : State) (browser : BrowserId) (pairs : List (List Char × List Char))
    (granted : Authorization) : Prop where
  new : granted.code ∉ s.authorizations.map Authorization.code
  browser : granted.browser = browser
  bound : granted.BoundTo pairs

/-- Tokens are handed out for a code that was granted, once, and to the verifier of its challenge;
and an id_token that verifies is of who signed in, with the nonce that it is verified with. -/
structure HandsOut (s : State) (code verifier : String) (tokens : TokenResponse)
    (a : Authorization) : Prop where
  granted : a ∈ s.authorizations
  same : a.code = code
  codeChallenge : a.codeChallenge = some (env.routes.pkceChallenge verifier)
  once : code ∉ s.redemptions.map Redemption.code
  claims : ∀ raw idToken issuer keys nonce claims, tokens.idToken = some raw →
    env.openId.fromStr raw = .ok idToken →
    env.openId.claims idToken env.routes.bffClientId issuer keys nonce = .ok claims →
    a.nonce = some nonce ∧ env.openId.parseStr claims.subject = some a.userId

/-- What is used of the token endpoint. -/
def Redeems (s : State) (exchange : Exchange) : Prop :=
  ∀ code verifier tokens, (exchange code verifier).tokens? = some tokens →
    ∃ a, HandsOut env s code verifier tokens a

/-- **What is used of Hydra.** -/
def IsHydra (s : State) : Event Keys → Prop
  | .authorize browser query granted => Grants s browser (parse (encode query)) granted
  | .callback _ _ _ _ _ _ exchange => Redeems env s exchange
  | .login _ _ _ | .refresh _ _ _ _ | .revoke _ => True

/-! ### Assumptions -/

/-- The configuration was accepted. -/
structure LoginEnv.Sound : Prop where
  cookies : ∃ config : CookieConfig, config.accepted = true ∧
    config.loginCookie = env.routes.loginCookie.toList ∧
    config.sessionCookie = env.routes.sessionCookie.toList

/-- What is drawn is new, and the encodings bring it back. -/
structure Fresh (s : State) (drawn : Drawn) : Prop where
  unasked : ∀ a ∈ s.authorizations, a.codeChallenge ≠ some (env.challenge drawn)
  undrawn : ∀ other ∈ s.drawn, env.challenge other.2 ≠ env.challenge drawn
  roundTrips : ∀ uri ∈ env.routes.callback.redirectUriAllowlist,
    env.routes.codec.RoundTrips (PendingLogin.new drawn uri)

/-- The browsers are browsers, what is drawn is new, and what was drawn for the logins of `b` stays
with it. -/
def Rules (b : BrowserId) (s : State) : Event Keys → Prop
  | .login _ _ drawn => Fresh env s drawn
  | .authorize browser query _ => ∀ drawn, (b, drawn) ∈ s.drawn →
      param (parse (encode query)) "code_challenge_method" = some "S256" →
      param (parse (encode query)) "code_challenge" = some (env.challenge drawn) → browser = b
  | .callback (some browser) headers _ _ _ _ _ => Sends env s browser headers
  | .callback none headers _ _ _ _ _ => ∀ drawn, (b, drawn) ∈ s.drawn →
      ∀ pending ∈ pendingLogin env.routes headers,
        env.routes.pkceChallenge pending.verifier ≠ env.challenge drawn
  | .refresh _ _ _ _ | .revoke _ => True

/-- What may happen. -/
def Allowed (b : BrowserId) (s : State) (e : Event Keys) : Prop :=
  IsHydra env s e ∧ Rules env b s e

end Step

/-! ### Cookies -/

theorem isExpired_clearCookie (name path : List Char) (secure : Bool) :
    isExpired (clearCookie name path secure) = true := by
  have hmark : "; Max-Age=0".toList = "; Max-Age=".toList ++ (toString (0 : ℤ)).toList := by
    decide +kernel
  rw [isExpired, List.isSuffixOf_iff_suffix, clearCookie, buildCookie, hmark]
  exact ⟨_, (List.append_assoc _ _ _).symm⟩

theorem name_buildCookie {name : List Char} (h : isCookieToken name = true)
    (value path : List Char) (maxAgeSecs : ℤ) (secure : Bool) :
    (splitOnce '=' (cookiePair (buildCookie name value path maxAgeSecs secure))).map Prod.fst =
      some name := by
  obtain ⟨text, hpair, -⟩ := hasPlainPair h value path maxAgeSecs secure
  rw [hpair, Option.map_some]

theorem setCookie_startLogin {routes : RoutesEnv} {drawn : Drawn}
    {pairs : List (List Char × List Char)} {value : HeaderValue}
    (h : value ∈ (startLogin routes drawn pairs).headers.getAll .setCookie) :
    ∃ uri ∈ routes.callback.redirectUriAllowlist,
      value.bytes = encode (loginCookieOf routes drawn uri) := by
  rcases startLogin_eq routes drawn pairs with ⟨_, _, _, heq⟩ | ⟨uri, huri, heq⟩
  · rw [heq] at h
    exact absurd h not_mem_errorReply
  · rw [heq] at h
    obtain ⟨text, hmem, htext⟩ := mem_seeOther h
    obtain rfl : text = loginCookieOf routes drawn uri := by simpa [loginHeaders] using hmem
    exact ⟨uri, huri, htext⟩

/-! ### What a callback does -/

section Callback

variable {routes : RoutesEnv} {sessionId : String} {now : DateTime} {sessions : Sessions}
  {headers : HeaderMap} {pairs : List (List Char × List Char)}

/-- What a callback answers that goes well. -/
def completedHeaders (routes : RoutesEnv) (sessionId : String) (pending : PendingLogin) :
    List (HeaderName × List Char) :=
  [(.location, pending.redirectUri.toList),
    (.setCookie, buildCookie routes.sessionCookie.toList sessionId.toList ['/']
      (sessionMaxAgeSecs routes.callback.refreshTtl) routes.secureCookies),
    (.setCookie, clearCookie routes.loginCookie.toList ['/'] routes.secureCookies),
    (.cacheControl, "no-store".toList)]

/-- A callback finishes a login. -/
structure Completes (routes : RoutesEnv) (sessionId : String) (now : DateTime)
    (sessions : Sessions) (headers : HeaderMap) (pairs : List (List Char × List Char))
    (pending : PendingLogin) (code idToken : String) (tokens : TokenSet)
    (verified : VerifiedIdToken) : Prop where
  asked : asked routes headers pairs = some (pending, code)
  exchanged : routes.callback.exchangeCode code pending.verifier = .ok tokens
  given : tokens.idToken = some idToken
  verifies : routes.callback.verifyIdToken idToken tokens.accessToken pending.nonce = .ok verified
  reply : (callback routes sessionId now sessions headers pairs).1 =
    seeOther (completedHeaders routes sessionId pending)
  userId : ∀ session,
    (callback routes sessionId now sessions headers pairs).2.getSession sessionId = some session →
    session.userId = verified.userId
  others : ∀ id session, id ≠ sessionId →
    (callback routes sessionId now sessions headers pairs).2.getSession id = some session →
    sessions.getSession id = some session

/-- **It does, or it is refused and changes nothing.** -/
theorem callback_cases :
    (∃ status details reason, callback routes sessionId now sessions headers pairs =
      (errorReply status details reason, sessions)) ∨
    ∃ pending code idToken tokens verified, Completes routes sessionId now sessions headers pairs
      pending code idToken tokens verified := by
  rcases hcallback : callback routes sessionId now sessions headers pairs with ⟨reply, left⟩
  have hcallback' := hcallback
  rw [callback] at hcallback
  split at hcallback
  · next code state error hcode hstate herror =>
    dsimp only at hcallback
    split at hcallback
    · next failed hfailed =>
      obtain ⟨rfl, rfl⟩ := Prod.mk.inj hcallback
      rw [complete_error hfailed]
      refine Or.inl ?_
      rw [CallbackServiceError.reply.eq_def]
      split <;> exact ⟨_, _, _, rfl⟩
    · next started hstarted =>
      obtain ⟨rfl, rfl⟩ := Prod.mk.inj hcallback
      obtain ⟨pending, code, tokens, idToken, refreshToken, verified, hredeem, hexchange, hidToken,
        -, hverify, rfl, hget⟩ := complete_ok hstarted
      refine Or.inr ⟨pending, code, idToken, tokens, verified, ⟨?_, hexchange, hidToken, hverify,
        by rw [hcallback']; rfl, fun session hsession => ?_, fun id session hid hsession => ?_⟩⟩
      · rw [asked, hcode, hstate, herror]
        exact congrArg Except.toOption hredeem
      · rw [hcallback', hget, Sessions.get_saveSession] at hsession
        split_ifs at hsession with hprevious hexcess hself
        · exact Option.some.inj hsession ▸ rfl
        · exact absurd rfl hself
      · rw [hcallback', hget, Sessions.get_saveSession] at hsession
        split_ifs at hsession
        exact hsession
  · obtain ⟨rfl, rfl⟩ := Prod.mk.inj hcallback
    exact Or.inl ⟨_, _, _, rfl⟩

/-- A callback that nothing keeps from it finishes a login. -/
theorem callback_of_asked {pending : PendingLogin} {code idToken refreshToken : String}
    {tokens : TokenSet} {verified : VerifiedIdToken}
    (hasked : asked routes headers pairs = some (pending, code))
    (hexchange : routes.callback.exchangeCode code pending.verifier = .ok tokens)
    (hidToken : tokens.idToken = some idToken) (hrefresh : tokens.refreshToken = some refreshToken)
    (hverify : routes.callback.verifyIdToken idToken tokens.accessToken pending.nonce =
      .ok verified)
    (hprevious : (extractCookie headers routes.sessionCookie.toList).map String.ofList ≠
      some sessionId) :
    (callback routes sessionId now sessions headers pairs).1 =
      seeOther (completedHeaders routes sessionId pending) ∧
    (callback routes sessionId now sessions headers pairs).2.getSession sessionId =
      (sessions.saveSession sessionId (newSession routes.callback.refreshTtl tokens refreshToken
        idToken verified now)).2.getSession sessionId := by
  rw [asked] at hasked
  split at hasked
  · next code' state error hcode hstate herror =>
    have hredeem := Fallible.toOption_eq_some hasked
    have hresult : (complete routes.callback sessionId now sessions (pendingLogin routes headers)
        (Returned.ofQuery code' state error)
        ((extractCookie headers routes.sessionCookie.toList).map String.ofList)).result =
          .ok ⟨sessionId, sessionMaxAgeSecs routes.callback.refreshTtl, pending.redirectUri⟩ := by
      simp only [complete, hredeem, hexchange, hidToken, hrefresh, hverify]
    obtain ⟨_, _, _, _, _, _, hredeem', hexchange', hidToken', hrefresh', hverify', -, hget⟩ :=
      complete_ok hresult
    obtain ⟨rfl, rfl⟩ := Prod.mk.inj (Except.ok.inj (hredeem.symm.trans hredeem'))
    obtain rfl := Except.ok.inj (hexchange.symm.trans hexchange')
    obtain rfl := Option.some.inj (hidToken.symm.trans hidToken')
    obtain rfl := Option.some.inj (hrefresh.symm.trans hrefresh')
    obtain rfl := Except.ok.inj (hverify.symm.trans hverify')
    have hcallback : callback routes sessionId now sessions headers pairs =
        (seeOther (completedHeaders routes sessionId pending),
          (complete routes.callback sessionId now sessions (pendingLogin routes headers)
            (Returned.ofQuery code' state error)
            ((extractCookie headers routes.sessionCookie.toList).map String.ofList)).sessions) := by
      rw [callback, hcode, hstate, herror]
      dsimp only
      split
      · next failed hfailed => cases hresult.symm.trans hfailed
      · next started hstarted =>
        obtain rfl := Except.ok.inj (hresult.symm.trans hstarted)
        rfl
    rw [hcallback]
    exact ⟨rfl, (hget sessionId).trans (if_neg hprevious)⟩
  · cases hasked

theorem indexed_endSession (h : sessions.Indexed) :
    (endSession sessions sessionId).2.1.Indexed := by
  have hremoved : (sessions.takeSession sessionId).2.Indexed := h.remove sessionId
  rw [endSession]
  split
  · next htaken => rwa [htaken] at hremoved
  · next htaken => rwa [htaken] at hremoved

theorem indexed_complete (h : sessions.Indexed) (pending : Option PendingLogin)
    (returned : Returned) (previous : Option String) :
    (complete routes.callback sessionId now sessions pending returned
      previous).sessions.Indexed := by
  rw [complete]
  split
  · exact h
  split
  · exact h
  split
  · exact h
  · exact h
  split
  · exact h
  generalize hsave : sessions.saveSession sessionId _ = saved
  have hsaved : saved.2.Indexed := hsave ▸ h.saveSession _ _
  obtain ⟨evicted, saved⟩ := saved
  cases previous with
  | none => exact hsaved
  | some previous => exact indexed_endSession hsaved

/-- A callback keeps the sessions indexed. -/
theorem indexed_callback (h : sessions.Indexed) :
    (callback routes sessionId now sessions headers pairs).2.Indexed := by
  rw [callback]
  split
  · dsimp only
    split
    · exact indexed_complete h _ _ _
    · exact indexed_complete h _ _ _
  · exact h

/-- The cookies that it answers with. -/
theorem setCookie_callback {value : HeaderValue}
    (h : value ∈ (callback routes sessionId now sessions headers pairs).1.headers.getAll
      .setCookie) : ∃ text, value.bytes = encode text ∧
    (isExpired text = true ∨ ∃ pending code idToken tokens verified maxAgeSecs,
      Completes routes sessionId now sessions headers pairs pending code idToken tokens verified ∧
      text = buildCookie routes.sessionCookie.toList sessionId.toList ['/'] maxAgeSecs
        routes.secureCookies) := by
  rcases @callback_cases routes sessionId now sessions headers pairs with
    ⟨status, details, reason, heq⟩ | ⟨pending, code, idToken, tokens, verified, hcompletes⟩
  · rw [heq] at h
    exact absurd h not_mem_errorReply
  · rw [hcompletes.reply] at h
    obtain ⟨text, hmem, htext⟩ := mem_seeOther h
    refine ⟨text, htext, ?_⟩
    simp only [completedHeaders, List.mem_cons, Prod.mk.injEq, List.not_mem_nil, or_false,
      reduceCtorEq, false_and, true_and, false_or] at hmem
    rcases hmem with rfl | rfl
    · exact Or.inr ⟨pending, code, idToken, tokens, verified, _, hcompletes, rfl⟩
    · exact Or.inl (isExpired_clearCookie _ _ _)

end Callback

/-! ### What Hydra redeems -/

section Run

variable {Token Keys : Type} {env : LoginEnv Token Keys} {b : BrowserId} {s s' : State}
  {e : Event Keys} {exchange : Exchange}

theorem redeemedCode_eq_some {headers : HeaderMap} {pairs : List (List Char × List Char)}
    {code : String} : redeemedCode env headers pairs exchange = some code ↔ ∃ pending,
      asked env.routes headers pairs = some (pending, code) ∧
      (exchange code pending.verifier).tokens?.isSome = true := by
  rw [redeemedCode]
  constructor
  · intro h
    obtain ⟨⟨pending, code'⟩, hasked, hcode⟩ := Option.bind_eq_some_iff.mp h
    dsimp only at hcode
    split_ifs at hcode with htokens
    obtain rfl := Option.some.inj hcode
    exact ⟨pending, hasked, htokens⟩
  · rintro ⟨pending, hasked, htokens⟩
    exact Option.bind_eq_some_iff.mpr ⟨_, hasked, if_pos htokens⟩

/-- What a callback that goes well redeems. -/
theorem Completes.redeems {keysFor : Option String → Except JwksError Keys}
    {sessionId code idToken : String} {now : DateTime} {headers : HeaderMap}
    {pairs : List (List Char × List Char)} {pending : PendingLogin} {tokens : TokenSet}
    {verified : VerifiedIdToken} (hhydra : Redeems env s exchange)
    (h : Completes (env.routesWith keysFor exchange) sessionId now s.sessions headers pairs pending
      code idToken tokens verified) :
    redeemedCode env headers pairs exchange = some code ∧
    ∃ a ∈ s.authorizations, a.code = code ∧
      a.codeChallenge = some (env.routes.pkceChallenge pending.verifier) ∧
      a.nonce = some pending.nonce ∧ a.userId = verified.userId := by
  have hexchanged : tokenRequest (exchange code pending.verifier) = .ok tokens := h.exchanged
  obtain ⟨token, htoken, -, hidToken⟩ := tokens_of_tokenRequest hexchanged
  obtain ⟨a, ha⟩ := hhydra code pending.verifier token htoken
  obtain ⟨_, keys, issuer, claims, hfrom, -, -, hclaims, -, hsubject, -⟩ :=
    accepted_of_verifyIdToken _ _ _ _ h.verifies
  obtain ⟨hnonce, huser⟩ := ha.claims idToken _ issuer keys pending.nonce claims
    (hidToken.trans h.given) hfrom hclaims
  exact ⟨redeemedCode_eq_some.mpr ⟨pending, h.asked, by rw [htoken]; rfl⟩, a, ha.granted, ha.same,
    ha.codeChallenge, hnonce, Option.some.inj (huser.symm.trans hsubject)⟩

theorem pendingLogin_of_asked {headers : HeaderMap} {pairs : List (List Char × List Char)}
    {pending : PendingLogin} {code : String}
    (h : asked env.routes headers pairs = some (pending, code)) :
    pendingLogin env.routes headers = some pending := by
  rw [asked] at h
  split at h
  · exact (redeemable_ok (Fallible.toOption_eq_some h)).1
  · cases h

end Run

end LoginProtocol

end Bff

end WeaveAuth
