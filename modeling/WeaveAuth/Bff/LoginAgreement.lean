import WeaveAuth.Bff.CookieLines
import WeaveAuth.Bff.LoginProtocol
import WeaveAuth.Bff.ProxyHeaders
import WeaveAuth.ForMathlib.Transition

/-!
# A session is of the browser's own login

What holds at any time of the login protocol, whoever sends what, and what follows from it for the
sessions.

## Main results

* `signed_in_here`: the session that a browser's cookie is for is of the user who signed in in that
  browser, for a login that it had started
* `session_of_login`: a session is of one code, which was granted for a login of the browser just
  where that browser's request started the session
* `login_completes`: a login that is left alone ends with a session

## How it goes

`Inv` is about everything that bff and Hydra ever drew, granted, redeemed and stored, and has no
assumption about who sends what. What a browser's own logins need is added by `Rules`, in the runs
that the theorems are about, and only for that one browser: the others may be the attacker's.

The run at the end of the module is a login from its first request to its session, with an id_token
and cookies that the functions themselves have written. It is there for the hypotheses: they can be
met, all at once, by functions that behave as the real ones do.

## Implementation notes

A state only ever grows in what was drawn, granted, redeemed and given (`State.Extends`), so what
the invariant says of the past has to be looked at again only for the newest entry of each. The
store is the exception, since sessions go. One that is stored is always backed by a redemption with
its id, and no later callback has that id, which `step` has for `Uuid::new_v4`.
-/

namespace WeaveAuth

namespace Bff

namespace LoginProtocol

open FormUrlencoded Transition Utf8

section Run

variable {Token Keys : Type} {env : LoginEnv Token Keys} {b : BrowserId} {s s' : State}
  {e : Event Keys}

/-! ### What holds at any time -/

/-- The authorization was requested for a login that the browser had started. -/
def State.RequestedIn (s : State) (env : LoginEnv Token Keys) (browser : BrowserId)
    (a : Authorization) : Prop :=
  ∃ drawn, (browser, drawn) ∈ s.drawn ∧ a.codeChallenge = some (env.challenge drawn)

/-- A cookie that a browser was given. -/
def State.GaveCookie (s : State) (env : LoginEnv Token Keys) (browser : BrowserId)
    (setCookie : List Char) : Prop :=
  isExpired setCookie = true ∨
  (∃ drawn uri, (browser, drawn) ∈ s.drawn ∧ uri ∈ env.routes.callback.redirectUriAllowlist ∧
    setCookie = loginCookieOf env.routes drawn uri) ∨
  ∃ r ∈ s.redemptions, r.sender = some browser ∧ ∃ maxAgeSecs, setCookie =
    buildCookie env.routes.sessionCookie.toList r.sessionId.toList ['/'] maxAgeSecs
      env.routes.secureCookies

/-- The session was started with a code that was redeemed for it, as the user who signed in for
that code; where a browser's request started it, for a login that the browser had started. -/
def State.Backs (s : State) (env : LoginEnv Token Keys) (id : String) (session : SessionData) :
    Prop :=
  ∃ r ∈ s.redemptions, r.sessionId = id ∧ ∃ a ∈ s.authorizations, a.code = r.code ∧
    a.userId = session.userId ∧ ∀ browser, r.sender = some browser →
      ∃ drawn, (browser, drawn) ∈ s.drawn ∧ a.codeChallenge = some (env.challenge drawn) ∧
        a.nonce = some drawn.nonce

structure Inv (env : LoginEnv Token Keys) (b : BrowserId) (s : State) : Prop where
  given : ∀ browser reply, (browser, reply) ∈ s.given → ∀ value ∈ reply.headers.getAll .setCookie,
    ∃ setCookie, value.bytes = encode setCookie ∧ s.GaveCookie env browser setCookie
  roundTrips : ∀ browser drawn, (browser, drawn) ∈ s.drawn →
    ∀ uri ∈ env.routes.callback.redirectUriAllowlist,
      env.routes.codec.RoundTrips (PendingLogin.new drawn uri)
  drawn : (s.drawn.map fun d => env.challenge d.2).Nodup
  codes : (s.authorizations.map Authorization.code).Nodup
  redeemedOnce : (s.redemptions.map Redemption.code).Nodup
  sessionIds : (s.redemptions.map Redemption.sessionId).Nodup
  /-- What was requested for a login of `b` was granted in `b`. -/
  here : ∀ a ∈ s.authorizations, s.RequestedIn env b a → a.browser = b
  redeemed : ∀ r ∈ s.redemptions, ∃ a ∈ s.authorizations, a.code = r.code ∧
    (∀ browser, r.sender = some browser → s.RequestedIn env browser a) ∧
    (s.RequestedIn env b a → r.sender = some b)
  stored : ∀ id session, s.sessions.getSession id = some session → s.Backs env id session
  indexed : s.sessions.Indexed

theorem inv_start (env : LoginEnv Token Keys) (b : BrowserId) : Inv env b State.start where
  given _ _ h := absurd h List.not_mem_nil
  roundTrips _ _ h := absurd h List.not_mem_nil
  drawn := List.nodup_nil
  codes := List.nodup_nil
  redeemedOnce := List.nodup_nil
  sessionIds := List.nodup_nil
  here _ h := absurd h List.not_mem_nil
  redeemed _ h := absurd h List.not_mem_nil
  stored _ _ h := by cases h
  indexed := Sessions.indexed_empty

/-! ### What a request of a browser brings -/

theorem LoginEnv.Sound.cookieNames (henv : env.Sound) :
    isCookieToken env.routes.loginCookie.toList = true ∧
    isCookieToken env.routes.sessionCookie.toList = true ∧
    env.routes.sessionCookie.toList ≠ env.routes.loginCookie.toList := by
  obtain ⟨config, haccepted, hlogin, hsession⟩ := henv.cookies
  rw [← hlogin, ← hsession]
  refine ⟨CookieConfig.isCookieToken_of_accepted haccepted (by simp),
    CookieConfig.isCookieToken_of_accepted haccepted (by simp), ?_⟩
  exact bne_iff_ne.mp (Bool.and_eq_true_iff.mp (Bool.and_eq_true_iff.mp haccepted).1).2

/-- A cookie that a browser sends is one that it was given. -/
theorem Inv.gave (hinv : Inv env b s) {browser : BrowserId} {name setCookie : List Char}
    (h : s.Given browser name setCookie) : s.GaveCookie env browser setCookie := by
  obtain ⟨-, -, reply, hreply, value, hvalue, hbytes⟩ := h
  obtain ⟨setCookie', hbytes', hgave⟩ := hinv.given browser reply hreply value hvalue
  rwa [encode_injective (hbytes.symm.trans hbytes')]

/-- The login in progress that a browser brings is one that it had started. -/
theorem Inv.pending_of_sends (henv : env.Sound) (hinv : Inv env b s) {browser : BrowserId}
    {headers : HeaderMap} {pending : PendingLogin} (hsends : Sends env s browser headers)
    (h : pendingLogin env.routes headers = some pending) :
    ∃ drawn uri, (browser, drawn) ∈ s.drawn ∧ pending = PendingLogin.new drawn uri := by
  obtain ⟨hlogin, hsession, hne⟩ := henv.cookieNames
  obtain ⟨text, htext, hpending⟩ := Option.bind_eq_some_iff.mp h
  rcases hsends _ List.mem_cons_self with hnone | ⟨setCookie, hgiven, hsent⟩
  · rw [hnone] at htext
    cases htext
  · rcases hinv.gave hgiven with hexpired | ⟨drawn, uri, hdrawn, huri, rfl⟩ | ⟨r, -, -, _, rfl⟩
    · rw [hgiven.1] at hexpired
      cases hexpired
    · rw [loginCookieOf] at hsent
      rw [extractCookie_of_sentBack hlogin hsent] at htext
      obtain rfl := Option.some.inj htext
      have hroundTrips := hinv.roundTrips browser drawn hdrawn uri huri
      rw [String.ofList_toList, RoutesEnv.fromCookieValue_toCookieValue hroundTrips] at hpending
      exact ⟨drawn, uri, hdrawn, (Option.some.inj hpending).symm⟩
    · rw [State.Given, name_buildCookie hsession] at hgiven
      exact absurd (Option.some.inj hgiven.2.1) hne

/-- So is the session. -/
theorem Inv.session_of_sends (henv : env.Sound) (hinv : Inv env b s) {browser : BrowserId}
    {headers : HeaderMap} {id : List Char} (hsends : Sends env s browser headers)
    (h : extractCookie headers env.routes.sessionCookie.toList = some id) :
    ∃ r ∈ s.redemptions, r.sender = some browser ∧ String.ofList id = r.sessionId := by
  obtain ⟨hlogin, hsession, hne⟩ := henv.cookieNames
  rcases hsends _ (List.mem_cons_of_mem _ List.mem_cons_self) with hnone |
    ⟨setCookie, hgiven, hsent⟩
  · rw [hnone] at h
    cases h
  · rcases hinv.gave hgiven with hexpired | ⟨drawn, uri, -, -, rfl⟩ | ⟨r, hr, hsender, _, rfl⟩
    · rw [hgiven.1] at hexpired
      cases hexpired
    · rw [State.Given, loginCookieOf, name_buildCookie hlogin] at hgiven
      exact absurd (Option.some.inj hgiven.2.1).symm hne
    · rw [extractCookie_of_sentBack hsession hsent] at h
      exact ⟨r, hr, hsender, by rw [← Option.some.inj h, String.ofList_toList]⟩

/-! ### What a step keeps -/

/-- What was so stays so. -/
structure State.Extends (s s' : State) : Prop where
  drawn : ∀ d ∈ s.drawn, d ∈ s'.drawn
  authorizations : ∀ a ∈ s.authorizations, a ∈ s'.authorizations
  redemptions : ∀ r ∈ s.redemptions, r ∈ s'.redemptions

theorem State.GaveCookie.mono {browser : BrowserId} {setCookie : List Char} (hext : s.Extends s')
    (h : s.GaveCookie env browser setCookie) : s'.GaveCookie env browser setCookie := by
  rcases h with hexpired | ⟨drawn, uri, hdrawn, hrest⟩ | ⟨r, hr, hrest⟩
  · exact Or.inl hexpired
  · exact Or.inr (Or.inl ⟨drawn, uri, hext.drawn _ hdrawn, hrest⟩)
  · exact Or.inr (Or.inr ⟨r, hext.redemptions r hr, hrest⟩)

theorem State.RequestedIn.mono {browser : BrowserId} {a : Authorization} (hext : s.Extends s')
    (h : s.RequestedIn env browser a) : s'.RequestedIn env browser a := by
  obtain ⟨drawn, hdrawn, hchallenge⟩ := h
  exact ⟨drawn, hext.drawn _ hdrawn, hchallenge⟩

theorem State.Backs.mono {id : String} {session : SessionData} (hext : s.Extends s')
    (h : s.Backs env id session) : s'.Backs env id session := by
  obtain ⟨r, hr, hid, a, ha, hcode, huser, hdrawn⟩ := h
  refine ⟨r, hext.redemptions r hr, hid, a, hext.authorizations a ha, hcode, huser,
    fun browser hsender => ?_⟩
  obtain ⟨drawn, hmem, hrest⟩ := hdrawn browser hsender
  exact ⟨drawn, hext.drawn _ hmem, hrest⟩

theorem inv_login {browser : BrowserId} {query : List Char} {drawn : Drawn} (hinv : Inv env b s)
    (hok : Allowed env b s (.login browser query drawn))
    (hs : step env s (.login browser query drawn) = some s') : Inv env b s' := by
  obtain rfl := Option.some.inj hs
  have hfresh : Fresh env s drawn := hok.2
  have hext : s.Extends { s with
      drawn := (browser, drawn) :: s.drawn
      given := (browser, startLogin env.routes drawn (parse (encode query))) :: s.given } :=
    ⟨fun _ => List.mem_cons_of_mem _, fun _ => id, fun _ => id⟩
  -- No authorization was requested for what is drawn only now.
  have hold : ∀ a ∈ s.authorizations, ∀ other drawn',
      (other, drawn') ∈ (browser, drawn) :: s.drawn →
      a.codeChallenge = some (env.challenge drawn') → s.RequestedIn env other a := by
    intro a ha other drawn' hdrawn' hchallenge
    rcases List.mem_cons.mp hdrawn' with heq | hdrawn'
    · obtain ⟨-, rfl⟩ := Prod.mk.inj heq
      exact absurd hchallenge (hfresh.unasked a ha)
    · exact ⟨drawn', hdrawn', hchallenge⟩
  refine { hinv with
    given := fun other reply hreply value hvalue => ?_
    roundTrips := fun other drawn' hdrawn' => ?_
    drawn := ?_
    here := fun a ha ⟨drawn', hdrawn', h⟩ => hinv.here a ha (hold a ha b drawn' hdrawn' h)
    redeemed := fun r hr => ?_
    stored := fun id session hget => (hinv.stored id session hget).mono hext }
  · rcases List.mem_cons.mp hreply with heq | hreply
    · obtain ⟨rfl, rfl⟩ := Prod.mk.inj heq
      obtain ⟨uri, huri, hbytes⟩ := setCookie_startLogin hvalue
      exact ⟨_, hbytes, Or.inr (Or.inl ⟨drawn, uri, List.mem_cons_self, huri, rfl⟩)⟩
    · obtain ⟨setCookie, hbytes, hgave⟩ := hinv.given other reply hreply value hvalue
      exact ⟨setCookie, hbytes, hgave.mono hext⟩
  · rcases List.mem_cons.mp hdrawn' with heq | hdrawn'
    · obtain ⟨-, rfl⟩ := Prod.mk.inj heq
      exact hfresh.roundTrips
    · exact hinv.roundTrips other drawn' hdrawn'
  · refine List.nodup_cons.mpr ⟨fun hmem => ?_, hinv.drawn⟩
    obtain ⟨other, hother, heq⟩ := List.mem_map.mp hmem
    exact hfresh.undrawn other hother heq
  · obtain ⟨a, ha, hcode, hsender, hback⟩ := hinv.redeemed r hr
    exact ⟨a, ha, hcode, fun other h => (hsender other h).mono hext,
      fun ⟨drawn', hdrawn', h⟩ => hback (hold a ha b drawn' hdrawn' h)⟩

theorem inv_authorize {browser : BrowserId} {query : List Char} {granted : Authorization}
    (hinv : Inv env b s) (hok : Allowed env b s (.authorize browser query granted))
    (hs : step env s (.authorize browser query granted) = some s') : Inv env b s' := by
  obtain rfl := Option.some.inj hs
  have hgrants : Grants s browser (parse (encode query)) granted := hok.1
  have hext : s.Extends { s with authorizations := granted :: s.authorizations } :=
    ⟨fun _ => id, fun _ => List.mem_cons_of_mem _, fun _ => id⟩
  refine { hinv with
    given := fun other reply hreply value hvalue => ?_
    codes := List.nodup_cons.mpr ⟨hgrants.new, hinv.codes⟩
    here := fun a ha hrequested => ?_
    redeemed := fun r hr => ?_
    stored := fun id session hget => (hinv.stored id session hget).mono hext }
  · obtain ⟨setCookie, hbytes, hgave⟩ := hinv.given other reply hreply value hvalue
    exact ⟨setCookie, hbytes, hgave.mono hext⟩
  · rcases List.mem_cons.mp ha with rfl | ha
    · -- The challenge of a login of `b` is that of the request.
      obtain ⟨drawn, hdrawn, hchallenge⟩ := hrequested
      obtain ⟨hmethod, hsame⟩ := (hgrants.bound.codeChallenge _).mp hchallenge
      exact hgrants.browser.trans (hok.2 drawn hdrawn hmethod hsame)
    · exact hinv.here a ha hrequested
  · obtain ⟨a, ha, hrest⟩ := hinv.redeemed r hr
    exact ⟨a, List.mem_cons_of_mem _ ha, hrest⟩

section Callback

variable {sender : Option BrowserId} {headers : HeaderMap} {query : List Char} {sessionId : String}
  {now : DateTime} {keysFor : Option String → Except JwksError Keys} {exchange : Exchange}

/-- What is left of a callback. -/
theorem step_callback (hnew : sessionId ∉ s.redemptions.map Redemption.sessionId) :
    step env s (.callback sender headers query sessionId now keysFor exchange) = some { s with
      sessions := (callback (env.routesWith keysFor exchange) sessionId now s.sessions headers
        (parse (encode query))).2
      given := (sender.map fun browser => (browser, (callback (env.routesWith keysFor exchange)
        sessionId now s.sessions headers (parse (encode query))).1)).toList ++ s.given
      redemptions := ((redeemedCode env headers (parse (encode query)) exchange).map fun code =>
        ⟨code, sessionId, sender⟩).toList ++ s.redemptions } :=
  if_neg hnew

/-- Whoever has a login redeemed is the browser that started it; for `b` nobody else can. -/
theorem Inv.redeemed_new (henv : env.Sound) (hinv : Inv env b s)
    (hok : Allowed env b s (.callback sender headers query sessionId now keysFor exchange))
    {code : String} (h : redeemedCode env headers (parse (encode query)) exchange = some code) :
    code ∉ s.redemptions.map Redemption.code ∧ ∃ a ∈ s.authorizations, a.code = code ∧
      (∀ browser, sender = some browser → s.RequestedIn env browser a) ∧
      (s.RequestedIn env b a → sender = some b) := by
  obtain ⟨pending, hasked, htokens⟩ := redeemedCode_eq_some.mp h
  obtain ⟨tokens, htokens⟩ := Option.isSome_iff_exists.mp htokens
  obtain ⟨a, ha⟩ := hok.1 code pending.verifier tokens htokens
  have hpending := pendingLogin_of_asked hasked
  refine ⟨ha.once, a, ha.granted, ha.same, fun browser hsender => ?_,
    fun ⟨drawn, hdrawn, hrequested⟩ => ?_⟩
  · subst hsender
    obtain ⟨drawn, uri, hdrawn, rfl⟩ := hinv.pending_of_sends henv hok.2 hpending
    exact ⟨drawn, hdrawn, ha.codeChallenge⟩
  · have hsame := Option.some.inj (ha.codeChallenge.symm.trans hrequested)
    cases sender with
    | none => exact absurd hsame (hok.2 drawn hdrawn pending hpending)
    | some browser =>
      obtain ⟨drawn', uri, hdrawn', rfl⟩ := hinv.pending_of_sends henv hok.2 hpending
      -- Nothing is drawn twice.
      obtain ⟨rfl, -⟩ := Prod.mk.inj (List.inj_on_of_nodup_map hinv.drawn hdrawn' hdrawn hsame)
      rfl

theorem inv_callback (henv : env.Sound) (hinv : Inv env b s)
    (hok : Allowed env b s (.callback sender headers query sessionId now keysFor exchange))
    (hs : step env s (.callback sender headers query sessionId now keysFor exchange) = some s') :
    Inv env b s' := by
  have hfresh : sessionId ∉ s.redemptions.map Redemption.sessionId := by
    intro hdrawn
    rw [step, if_pos hdrawn] at hs
    cases hs
  rw [step_callback hfresh] at hs
  obtain rfl := Option.some.inj hs
  have hext : s.Extends { s with
      sessions := (callback (env.routesWith keysFor exchange) sessionId now s.sessions headers
        (parse (encode query))).2
      given := (sender.map fun browser => (browser, (callback (env.routesWith keysFor exchange)
        sessionId now s.sessions headers (parse (encode query))).1)).toList ++ s.given
      redemptions := ((redeemedCode env headers (parse (encode query)) exchange).map fun code =>
        ⟨code, sessionId, sender⟩).toList ++ s.redemptions } :=
    ⟨fun _ => id, fun _ => id, fun _ => List.mem_append_right _⟩
  -- What a login that goes well has redeemed is among the redemptions.
  have hredeemed : ∀ {code : String},
      redeemedCode env headers (parse (encode query)) exchange = some code →
      Redemption.mk code sessionId sender ∈ ((redeemedCode env headers (parse (encode query))
        exchange).map fun code => Redemption.mk code sessionId sender).toList ++ s.redemptions :=
    fun hcode => List.mem_append_left _ (Option.mem_toList.mpr (by rw [hcode]; rfl))
  refine { hinv with
    given := fun browser reply hreply value hvalue => ?_
    redeemedOnce := ?_
    sessionIds := ?_
    redeemed := fun r hr => ?_
    stored := fun id session hget => ?_
    indexed := indexed_callback hinv.indexed }
  · rcases List.mem_append.mp hreply with hreply | hreply
    · obtain ⟨_, hsender, heq⟩ := Option.map_eq_some_iff.mp (Option.mem_toList.mp hreply)
      obtain ⟨rfl, rfl⟩ := Prod.mk.inj heq
      obtain ⟨text, hbytes, hexpired | ⟨pending, code, idToken, tokens, verified, maxAgeSecs,
        hcompletes, rfl⟩⟩ := setCookie_callback hvalue
      · exact ⟨text, hbytes, Or.inl hexpired⟩
      · obtain ⟨hcode, -⟩ := hcompletes.redeems hok.1
        exact ⟨_, hbytes, Or.inr (Or.inr ⟨_, hredeemed hcode, hsender, maxAgeSecs, rfl⟩)⟩
    · obtain ⟨setCookie, hbytes, hgave⟩ := hinv.given browser reply hreply value hvalue
      exact ⟨setCookie, hbytes, hgave.mono hext⟩
  · cases hcode : redeemedCode env headers (parse (encode query)) exchange with
    | none => exact hinv.redeemedOnce
    | some code => exact List.nodup_cons.mpr ⟨(hinv.redeemed_new henv hok hcode).1,
        hinv.redeemedOnce⟩
  · cases redeemedCode env headers (parse (encode query)) exchange with
    | none => exact hinv.sessionIds
    | some code => exact List.nodup_cons.mpr ⟨hfresh, hinv.sessionIds⟩
  · rcases List.mem_append.mp hr with hr | hr
    · obtain ⟨code, hcode, rfl⟩ := Option.map_eq_some_iff.mp (Option.mem_toList.mp hr)
      exact (hinv.redeemed_new henv hok hcode).2
    · exact hinv.redeemed r hr
  · rcases @callback_cases (env.routesWith keysFor exchange) sessionId now s.sessions headers
      (parse (encode query)) with ⟨_, _, _, heq⟩ | ⟨pending, code, idToken, tokens, verified,
        hcompletes⟩
    · simp only [heq] at hget
      exact (hinv.stored id session hget).mono hext
    · by_cases hid : id = sessionId
      · subst hid
        obtain ⟨hcode, a, ha, hsame, hchallenge, hnonce, huser⟩ := hcompletes.redeems hok.1
        refine ⟨_, hredeemed hcode, rfl, a, ha, hsame, huser.trans
          (hcompletes.userId session hget).symm, fun browser hsender => ?_⟩
        obtain rfl : sender = some browser := hsender
        obtain ⟨drawn, uri, hdrawn, rfl⟩ :=
          hinv.pending_of_sends henv hok.2 (pendingLogin_of_asked hcompletes.asked)
        exact ⟨drawn, hdrawn, hchallenge, hnonce⟩
      · exact (hinv.stored id session (hcompletes.others id session hid hget)).mono hext

end Callback

/-- Where only the store changes, and no session of another user gets in. -/
theorem Inv.withSessions (hinv : Inv env b s) {sessions : Sessions} (hindexed : sessions.Indexed)
    (h : ∀ id session, sessions.getSession id = some session → ∃ session',
      s.sessions.getSession id = some session' ∧ session.userId = session'.userId) :
    Inv env b { s with sessions := sessions } where
  __ := hinv
  indexed := hindexed
  stored id session hget := by
    obtain ⟨session', hget', huser⟩ := h id session hget
    obtain ⟨r, hr, hid, a, ha, hcode, huser', hrest⟩ := hinv.stored id session' hget'
    exact ⟨r, hr, hid, a, ha, hcode, huser'.trans huser.symm, hrest⟩

/-- **Every event keeps the invariant.** -/
theorem inv_step (henv : env.Sound) (hinv : Inv env b s) (hok : Allowed env b s e)
    (hs : step env s e = some s') : Inv env b s' := by
  cases e with
  | login => exact inv_login hinv hok hs
  | authorize => exact inv_authorize hinv hok hs
  | callback => exact inv_callback henv hinv hok hs
  | refresh sessionId tokens now now' =>
    obtain ⟨session, hget, hs⟩ := Option.bind_eq_some_iff.mp hs
    obtain ⟨sessions, hupdate, hs⟩ := Option.bind_eq_some_iff.mp hs
    obtain rfl := Option.some.inj hs
    refine hinv.withSessions (hinv.indexed.updateSession hupdate) fun id session' hget' => ?_
    rw [(Sessions.get_updateSession hupdate).2] at hget'
    split_ifs at hget' with hid
    · exact ⟨session, hid ▸ hget, (Option.some.inj hget') ▸ rfl⟩
    · exact ⟨session', hget', rfl⟩
  | revoke ids =>
    obtain rfl := Option.some.inj hs
    refine hinv.withSessions (hinv.indexed.removeAll ids) fun id session hget => ?_
    rw [Sessions.get_removeAll] at hget
    split_ifs at hget
    exact ⟨session, hget, rfl⟩

theorem inv_of_reaches (henv : env.Sound)
    (h : Reaches (step env) (Allowed env b) State.start s) : Inv env b s :=
  h.invariant (inv_start env b) fun _ _ _ hinv hok hs => inv_step henv hinv hok hs

/-- **A browser is only signed in as who signed in in it.** Whatever a browser is sent to, and
whatever others do: where one of its requests brings a session that is stored, the session is of a
user who signed in in this browser at Hydra, for the challenge and the nonce that bff drew for a
login which this browser had started. -/
theorem signed_in_here (henv : env.Sound)
    (h : Reaches (step env) (Allowed env b) State.start s) {headers : HeaderMap} {id : List Char}
    {session : SessionData} (hsends : Sends env s b headers)
    (hid : extractCookie headers env.routes.sessionCookie.toList = some id)
    (hget : s.sessions.getSession (String.ofList id) = some session) :
    ∃ a ∈ s.authorizations, a.browser = b ∧ a.userId = session.userId ∧
      ∃ drawn, (b, drawn) ∈ s.drawn ∧ a.codeChallenge = some (env.challenge drawn) ∧
        a.nonce = some drawn.nonce := by
  have hinv := inv_of_reaches henv h
  obtain ⟨r, hr, hsender, hsame⟩ := hinv.session_of_sends henv hsends hid
  obtain ⟨r', hr', hid', a, ha, hcode, huser, hdrawn⟩ := hinv.stored _ session hget
  -- The id was drawn for one callback.
  obtain rfl : r' = r := List.inj_on_of_nodup_map hinv.sessionIds hr' hr (hid'.trans hsame)
  obtain ⟨drawn, hmem, hchallenge, hnonce⟩ := hdrawn b hsender
  exact ⟨a, ha, hinv.here a ha ⟨drawn, hmem, hchallenge⟩, huser, drawn, hmem, hchallenge, hnonce⟩

/-- **A session is of one login.** A stored session was started with one code, which was redeemed
for nothing else, as the user whom the code was granted to. It was granted for a login that `b` had
started just where it was `b`'s request that started the session, and then in `b`: a code of `b`'s
that anybody gets hold of signs nobody else in, and nobody else's signs `b` in. -/
theorem session_of_login (henv : env.Sound)
    (h : Reaches (step env) (Allowed env b) State.start s) {id : String} {session : SessionData}
    (hget : s.sessions.getSession id = some session) :
    ∃ r ∈ s.redemptions, ∃ a ∈ s.authorizations, r.sessionId = id ∧ a.code = r.code ∧
      a.userId = session.userId ∧ (s.RequestedIn env b a ↔ r.sender = some b) ∧
      (r.sender = some b → a.browser = b) ∧
      ∀ r' ∈ s.redemptions, r'.code = r.code ∨ r'.sessionId = id → r' = r := by
  have hinv := inv_of_reaches henv h
  obtain ⟨r, hr, hid, a, ha, hcode, huser, -⟩ := hinv.stored id session hget
  obtain ⟨a', ha', hcode', hforth, hback⟩ := hinv.redeemed r hr
  obtain rfl : a' = a := List.inj_on_of_nodup_map hinv.codes ha' ha (hcode'.trans hcode.symm)
  refine ⟨r, hr, a', ha, hid, hcode, huser, ⟨hback, hforth b⟩,
    fun hsender => hinv.here a' ha (hforth b hsender), fun r' hr' hsame => ?_⟩
  rcases hsame with hsame | hsame
  · exact List.inj_on_of_nodup_map hinv.redeemedOnce hr' hr hsame
  · exact List.inj_on_of_nodup_map hinv.sessionIds hr' hr (hsame.trans hid.symm)

/-! ### A login that goes well -/

/-- Hydra sends the browser back with the code, and with the state of the request. -/
structure SentOn (pairs : List (List Char × List Char)) (code : String) (query : List Char) :
    Prop where
  code : queryField (parse (encode query)) "code" = some (some code)
  state : queryField (parse (encode query)) "state" = some (param pairs "state")
  error : queryField (parse (encode query)) "error" = some none

/-- What Hydra reads of the URL that bff sends a browser to. -/
theorem param_authorizePairs {drawn : Drawn} {query : List Char} (h : query = serialize
      (env.routes.authorizePairs drawn.state drawn.nonce (env.challenge drawn))) :
    param (parse (encode query)) "code_challenge_method" = some "S256" ∧
    param (parse (encode query)) "code_challenge" = some (env.challenge drawn) ∧
    param (parse (encode query)) "nonce" = some drawn.nonce ∧
    param (parse (encode query)) "state" = some drawn.state := by
  subst h
  have hvalue : ∀ {pairs : List (List Char × List Char)} {name : String} (value : String),
      pairs.find? (fun pair => pair.1 = name.toList) = some (name.toList, value.toList) →
      param pairs name = some value := by
    intro pairs name value hfind
    rw [param, hfind, Option.map_some, String.ofList_toList]
  rw [parse_serialize]
  exact ⟨hvalue _ rfl, hvalue _ rfl, hvalue _ rfl, hvalue _ rfl⟩

/-- What is granted for it. -/
theorem boundTo_authorizePairs {a : Authorization} {drawn : Drawn} {query : List Char}
    (h : query = serialize
      (env.routes.authorizePairs drawn.state drawn.nonce (env.challenge drawn))) :
    a.BoundTo (parse (encode query)) ↔
      a.codeChallenge = some (env.challenge drawn) ∧ a.nonce = some drawn.nonce := by
  obtain ⟨hmethod, hchallenge, hnonce, -⟩ := param_authorizePairs h
  constructor
  · intro hbound
    exact ⟨(hbound.codeChallenge _).mpr ⟨hmethod, hchallenge⟩, hbound.nonce.trans hnonce⟩
  · rintro ⟨hchallenge', hnonce'⟩
    refine ⟨fun challenge => ?_, hnonce'.trans hnonce.symm⟩
    rw [hmethod, hchallenge, hchallenge', eq_self_iff_true, true_and]

/-- Where a callback goes well and the cap leaves room, the session is there. -/
theorem Inv.step_of_asked (hinv : Inv env b s) {browser : BrowserId} {headers : HeaderMap}
    {query : List Char} {sessionId code idToken refreshToken : String} {now : DateTime}
    {keysFor : Option String → Except JwksError Keys} {exchange : Exchange} {pending : PendingLogin}
    {tokens : TokenSet} {verified : VerifiedIdToken}
    (hasked : asked env.routes headers (parse (encode query)) = some (pending, code))
    (hexchange : tokenRequest (exchange code pending.verifier) = .ok tokens)
    (hidToken : tokens.idToken = some idToken) (hrefresh : tokens.refreshToken = some refreshToken)
    (hverify : verifyIdToken env.openId env.routes.hydraPublicUrl env.routes.bffClientId keysFor
      idToken tokens.accessToken pending.nonce = .ok verified)
    (hprevious : (extractCookie headers env.routes.sessionCookie.toList).map String.ofList ≠
      some sessionId)
    (hnew : sessionId ∉ s.redemptions.map Redemption.sessionId)
    (hroom : (s.sessions.later verified.userId now).length < maxSessionsPerUser) : ∃ s',
    step env s (.callback (some browser) headers query sessionId now keysFor exchange) = some s' ∧
    (browser, seeOther (completedHeaders env.routes sessionId pending)) ∈ s'.given ∧
    s'.sessions.getSession sessionId = some (newSession env.routes.callback.refreshTtl tokens
      refreshToken idToken verified now) := by
  obtain ⟨hreply, hstored⟩ := @callback_of_asked (env.routesWith keysFor exchange) sessionId now
    s.sessions headers (parse (encode query)) _ _ _ _ _ _ hasked hexchange hidToken hrefresh hverify
    hprevious
  have hstep := @step_callback _ _ env s (some browser) headers query sessionId now keysFor exchange
    hnew
  rw [hreply] at hstep
  refine ⟨_, hstep, List.mem_cons_self, hstored.trans ?_⟩
  -- Nothing is stored under an id that is drawn only now.
  have hnone : s.sessions.getSession sessionId = none := by
    refine Option.eq_none_iff_forall_ne_some.mpr fun session hget => ?_
    obtain ⟨r, hr, hid, -⟩ := hinv.stored sessionId session hget
    exact hnew (List.mem_map.mpr ⟨r, hr, hid⟩)
  rw [Sessions.get_saveSession, if_neg, if_pos rfl]
  · rfl
  · exact fun hmem => absurd ((hinv.indexed.capTakes _ hnone).new.mp hmem) (not_le.mpr hroom)

/-- Whom the tokens for a code are of. -/
theorem Inv.userId_of_verify (hinv : Inv env b s) {a : Authorization} {exchange : Exchange}
    {verifier idToken : String} {tokens : TokenSet} {verified : VerifiedIdToken} {nonce : String}
    {keysFor : Option String → Except JwksError Keys} (hhydra : Redeems env s exchange)
    (ha : a ∈ s.authorizations) (hexchange : tokenRequest (exchange a.code verifier) = .ok tokens)
    (hidToken : tokens.idToken = some idToken)
    (hverify : verifyIdToken env.openId env.routes.hydraPublicUrl env.routes.bffClientId keysFor
      idToken tokens.accessToken nonce = .ok verified) : verified.userId = a.userId := by
  obtain ⟨token, htoken, -, hsame⟩ := tokens_of_tokenRequest hexchange
  obtain ⟨a', ha'⟩ := hhydra a.code verifier token htoken
  obtain rfl : a' = a := List.inj_on_of_nodup_map hinv.codes ha'.granted ha ha'.same
  obtain ⟨_, keys, issuer, claims, hfrom, -, -, hclaims, -, hsubject, -⟩ :=
    accepted_of_verifyIdToken _ _ _ _ hverify
  obtain ⟨-, huser⟩ :=
    ha'.claims idToken _ issuer keys nonce claims (hsame.trans hidToken) hfrom hclaims
  exact Option.some.inj (hsubject.symm.trans huser)

/-- The browser was sent to Hydra, and comes back with what was drawn. -/
theorem Inv.asked_of_sentOn (henv : env.Sound) (hinv : Inv env b s) {browser : BrowserId}
    {drawn : Drawn} {uri code : String} {headers : HeaderMap} {query : List Char}
    {pairs : List (List Char × List Char)} (hdrawn : (browser, drawn) ∈ s.drawn)
    (huri : uri ∈ env.routes.callback.redirectUriAllowlist)
    (hsent : SentBack env.routes.loginCookie.toList (loginCookieOf env.routes drawn uri) headers)
    (hback : SentOn pairs code query) (hstate : param pairs "state" = some drawn.state) :
    asked env.routes headers (parse (encode query)) = some (PendingLogin.new drawn uri, code) := by
  have hpending : pendingLogin env.routes headers = some (PendingLogin.new drawn uri) := by
    rw [pendingLogin, extractCookie_of_sentBack henv.cookieNames.1 hsent, Option.bind_some,
      String.ofList_toList]
    exact RoutesEnv.fromCookieValue_toCookieValue (hinv.roundTrips browser drawn hdrawn uri huri)
  have hsame : constantTimeEq env.routes.callback.digest drawn.state drawn.state = true :=
    (constantTimeEq_iff rfl).mpr rfl
  have hallowed : allowsRedirectUri env.routes.callback.redirectUriAllowlist uri = true := by
    simpa [allowsRedirectUri] using huri
  rw [asked, hback.code, hback.state, hstate, hback.error]
  dsimp only
  rw [hpending, redeemable.eq_def]
  simp [Returned.ofQuery, Returned.state, PendingLogin.new, hsame, hallowed, Except.toOption]

/-- **A login that is left alone ends with a session.** A browser is sent to Hydra, its user signs
in, and Hydra sends it back with the code: where Hydra still redeems that for its verifier, and the
user has no `maxSessionsPerUser` sessions of a later time, the browser has the cookie of a session
of that user, whatever has happened up to then. -/
theorem login_completes {d : State} {browser : BrowserId} {drawn : Drawn}
    {query more query' setCookie : List Char} {location cookie : HeaderValue} {headers : HeaderMap}
    {a : Authorization} {exchange : Exchange} {token : TokenResponse}
    {sessionId idToken refreshToken : String} {now : DateTime}
    {keysFor : Option String → Except JwksError Keys} {tokens : TokenSet}
    {verified : VerifiedIdToken} (henv : env.Sound)
    (h : Reaches (step env) (Allowed env b) State.start d) (hdrawn : (browser, drawn) ∈ d.drawn)
    -- bff sends the browser to Hydra, with a cookie.
    (hlocation : location ∈
      (startLogin env.routes drawn (parse (encode query))).headers.getAll .location)
    (hurl : location.bytes =
      encode (env.routes.hydraPublicUrl.toList ++ "/oauth2/auth?".toList ++ more))
    (hcookie : cookie ∈
      (startLogin env.routes drawn (parse (encode query))).headers.getAll .setCookie)
    (hbytes : cookie.bytes = encode setCookie)
    -- The user signs in, and Hydra sends the browser back.
    (ha : a ∈ d.authorizations) (hbound : a.BoundTo (parse (encode more)))
    (hback : SentOn (parse (encode more)) a.code query')
    (hsends : Sends env d browser headers)
    (hsent : SentBack env.routes.loginCookie.toList setCookie headers)
    -- Hydra redeems the code for the verifier of its challenge.
    (hhydra : Redeems env d exchange)
    (hredeems : ∀ verifier, a.codeChallenge = some (env.routes.pkceChallenge verifier) →
      exchange a.code verifier = .ok ⟨200, none, .ok token⟩)
    -- It hands out tokens that bff can use, and an id_token that verifies.
    (htokens : tokenRequest (.ok ⟨200, none, .ok token⟩) = .ok tokens)
    (hidToken : tokens.idToken = some idToken) (hrefresh : tokens.refreshToken = some refreshToken)
    (hverify : verifyIdToken env.openId env.routes.hydraPublicUrl env.routes.bffClientId keysFor
      idToken tokens.accessToken drawn.nonce = .ok verified)
    (hnew : sessionId ∉ d.redemptions.map Redemption.sessionId)
    (hroom : (d.sessions.later a.userId now).length < maxSessionsPerUser) : ∃ d' uri,
    step env d (.callback (some browser) headers query' sessionId now keysFor exchange) =
      some d' ∧
    uri ∈ env.routes.callback.redirectUriAllowlist ∧
    (browser, seeOther (completedHeaders env.routes sessionId (PendingLogin.new drawn uri))) ∈
      d'.given ∧
    d'.sessions.getSession sessionId = some (newSession env.routes.callback.refreshTtl tokens
      refreshToken idToken verified now) ∧ verified.userId = a.userId := by
  have hinv := inv_of_reaches henv h
  -- The browser was sent to Hydra with what was drawn, and has that in its cookie.
  obtain ⟨hto, uri, huri, hkept⟩ := header_startLogin hlocation
  have hmore : more = serialize
      (env.routes.authorizePairs drawn.state drawn.nonce (env.challenge drawn)) :=
    List.append_cancel_left (encode_injective (hurl.symm.trans hto))
  obtain rfl : setCookie = loginCookieOf env.routes drawn uri :=
    encode_injective (hbytes.symm.trans (hkept cookie hcookie))
  obtain ⟨hchallenge, -⟩ := (boundTo_authorizePairs hmore).mp hbound
  obtain ⟨-, -, -, hstate⟩ := param_authorizePairs hmore
  have hasked := hinv.asked_of_sentOn henv hdrawn huri hsent hback hstate
  have hexchange : tokenRequest (exchange a.code drawn.verifier) = .ok tokens := by
    rw [hredeems drawn.verifier hchallenge, htokens]
  have huser := hinv.userId_of_verify hhydra ha hexchange hidToken hverify
  -- No request brings an id that is drawn only now.
  have hprevious : (extractCookie headers env.routes.sessionCookie.toList).map String.ofList ≠
      some sessionId := by
    intro heq
    obtain ⟨id, hid, rfl⟩ := Option.map_eq_some_iff.mp heq
    obtain ⟨r, hr, -, hsame⟩ := hinv.session_of_sends henv hsends hid
    exact hnew (List.mem_map.mpr ⟨r, hr, hsame.symm⟩)
  obtain ⟨d', hstep, hgiven, hstored⟩ := @Inv.step_of_asked _ _ env b d hinv browser headers query'
    sessionId a.code idToken refreshToken now keysFor exchange (PendingLogin.new drawn uri) tokens
    verified hasked hexchange hidToken hrefresh hverify hprevious hnew (by rwa [huser])
  exact ⟨d', uri, hstep, huri, hgiven, hstored, huser⟩

end Run

/-! ### One login -/

namespace Sample

open Bff.Sample

def json : List ℕ :=
  encode ("\x7b\"state\":\"s\",\"verifier\":\"v\",\"nonce\":\"n\"," ++
    "\"redirect_uri\":\"https://app.test/\"\x7d").toList

def cookieValue : String :=
  "eyJzdGF0ZSI6InMiLCJ2ZXJpZmllciI6InYiLCJub25jZSI6Im4iLCJyZWRpcmVjdF91cmkiOiJodHRwczovL2FwcC50ZXN0LyJ9"

def loginEnv : LoginEnv Unit Unit where
  routes := { routesEnv with
    hydraPublicUrl := "https://h"
    sessionCookie := "__Host-wa_session"
    loginCookie := "__Host-wa_login"
    pkceChallenge := fun verifier =>
      if verifier = "v" then "TJRIXgwhrmxBzh3-e2v6zupato5AokdvUCCOUm9QYIA" else ""
    codec := codecOf pending json cookieValue.toList }
  openId := openId idToken

def drawn : Drawn := ⟨"s", "v", "n"⟩

/-- The browser 0 is sent to Hydra. -/
def started : State :=
  { State.start with
    drawn := [(0, drawn)]
    given := [(0, startLogin loginEnv.routes drawn (parse (encode [])))] }

def hydraQuery : List Char :=
  serialize (loginEnv.routes.authorizePairs "s" "n" (loginEnv.challenge drawn))

/-- The user 1 signs in. -/
def authorization : Authorization := ⟨"c", some (loginEnv.challenge drawn), some "n", 1, 0⟩

def signedIn : State := { started with authorizations := [authorization] }

def token : TokenResponse := ⟨"access", some "refresh", some idToken, some 900⟩

def exchange : Exchange := fun code verifier =>
  if code = "c" ∧ verifier = "v" then .ok ⟨200, none, .ok token⟩
  else .ok ⟨400, some "invalid_grant", .error "no token response"⟩

/-- What the browser sends. -/
def loginLine : String :=
  "__Host-wa_login=eyJzdGF0ZSI6InMiLCJ2ZXJpZmllciI6InYiLCJub25jZSI6Im4iLCJyZWRpcmVjdF91cmkiOiJodHRwczovL2FwcC50ZXN0LyJ9"

/-- What it was given. -/
def loginCookie : List Char :=
  loginLine.toList ++ "; HttpOnly; Path=/; SameSite=Lax; Secure; Max-Age=600".toList

def loginValue : HeaderValue :=
  headerValue loginLine (by
    rw [show loginLine.toList = _ from String.toList_ofList]
    decide +kernel)

theorem ofStr_loginLine : HeaderValue.ofStr loginLine.toList = some loginValue :=
  ofStr_eq_headerValue _

def loginHeader : HeaderMap := (∅ : HeaderMap).insert .cookie loginValue

def hydraAnswer : List Char := "code=c&scope=openid&state=s".toList

theorem sound_loginEnv : loginEnv.Sound where
  cookies := ⟨⟨"wa_session".toList, true⟩, by decide, by decide, by decide⟩

theorem fresh_drawn : Fresh loginEnv State.start drawn where
  unasked _ h := absurd h List.not_mem_nil
  undrawn _ h := absurd h List.not_mem_nil
  roundTrips uri huri := by
    obtain rfl := List.mem_singleton.mp huri
    exact roundTrips_codecOf pending json cookieValue.toList

theorem boundTo_hydraQuery : authorization.BoundTo (parse (encode hydraQuery)) :=
  (@boundTo_authorizePairs _ _ loginEnv authorization drawn hydraQuery rfl).mpr ⟨rfl, rfl⟩

theorem redeems_exchange : Redeems loginEnv signedIn exchange := by
  intro code verifier tokens h
  rw [exchange] at h
  split_ifs at h with hgranted
  · obtain ⟨rfl, rfl⟩ := hgranted
    obtain rfl : token = tokens := Option.some.inj h
    refine ⟨authorization, List.mem_singleton_self _, rfl, rfl, List.not_mem_nil, ?_⟩
    intro raw _ issuer keys nonce claims hraw _ hclaims
    simp only [loginEnv, openId] at hclaims
    split_ifs at hclaims with hverifies
    obtain rfl := Except.ok.inj hclaims
    exact ⟨congrArg some hverifies.2.2.symm, rfl⟩
  · cases h

theorem reaches_signedIn : Reaches (step loginEnv) (Allowed loginEnv 0) State.start signedIn := by
  have hstarted : Reaches (step loginEnv) (Allowed loginEnv 0) State.start started :=
    Reaches.refl.tail (e := .login 0 [] drawn) ⟨trivial, fresh_drawn⟩ rfl
  exact hstarted.tail (e := .authorize 0 hydraQuery authorization)
    ⟨⟨List.not_mem_nil, rfl, boundTo_hydraQuery⟩, fun _ _ _ _ => rfl⟩ rfl

theorem loginCookie_kept : isExpired loginCookie = false ∧
    cookieLine [cookiePair loginCookie] = loginLine.toList := by
  rw [loginCookie, show loginLine.toList = _ from String.toList_ofList,
    show "; HttpOnly; Path=/; SameSite=Lax; Secure; Max-Age=600".toList = _
      from String.toList_ofList]
  decide

theorem loginCookieOf_drawn :
    loginCookieOf loginEnv.routes drawn "https://app.test/" = loginCookie := by
  have hvalue : loginEnv.routes.codec.toCookieValue pending = cookieValue.toList := by
    simp [loginEnv, codecOf, CookieCodec.toCookieValue]
  have hpending : PendingLogin.new drawn "https://app.test/" = pending := rfl
  rw [loginCookieOf, hpending, RoutesEnv.toCookieValue, String.toList_ofList, hvalue, buildCookie,
    loginCookie, show cookieValue.toList = _ from String.toList_ofList,
    show loginLine.toList = _ from String.toList_ofList,
    show "; HttpOnly; Path=".toList = _ from String.toList_ofList,
    show "; SameSite=Lax".toList = _ from String.toList_ofList,
    show "; Max-Age=".toList = _ from String.toList_ofList,
    show "; HttpOnly; Path=/; SameSite=Lax; Secure; Max-Age=600".toList = _
      from String.toList_ofList]
  decide +kernel

theorem sentBack_loginHeader : SentBack loginEnv.routes.loginCookie.toList
    (loginCookieOf loginEnv.routes drawn "https://app.test/") loginHeader := by
  refine ⟨[], [], by simp, by simp, ?_⟩
  rw [loginCookieOf_drawn, List.nil_append, loginCookie_kept.2, ofStr_loginLine]
  rfl

theorem visible_location : ∀ c ∈ loginEnv.routes.authorizeUrl "s" "n" (loginEnv.challenge drawn),
    c = '\t' ∨ 0x20 ≤ c.toNat ∧ c.toNat < 0x7F := by
  have hbefore : ∀ c ∈ "https://h".toList ++ "/oauth2/auth?".toList,
      c = '\t' ∨ 0x20 ≤ c.toNat ∧ c.toNat < 0x7F :=
    visible_of_all (by decide)
  intro c hc
  rcases List.mem_append.mp hc with hc | hc
  · exact hbefore c hc
  · exact Or.inr (visible_of_mem_serialize hc)

/-- What `/login` answers with. -/
theorem startLogin_drawn : startLogin loginEnv.routes drawn (parse (encode [])) =
    seeOther (loginHeaders loginEnv.routes drawn "https://app.test/") :=
  rfl

theorem header_startLogin_drawn {name : HeaderName} {text : List Char}
    (h : (name, text) ∈ loginHeaders loginEnv.routes drawn "https://app.test/") :
    ∃ value ∈ (startLogin loginEnv.routes drawn (parse (encode []))).headers.getAll name,
      value.bytes = encode text := by
  rw [startLogin_drawn]
  refine exists_mem_seeOther (fun e he => ?_) h
  simp only [loginHeaders, List.mem_cons, List.not_mem_nil, or_false] at he
  rcases he with rfl | rfl | rfl
  · obtain ⟨value, hvalue, -⟩ := HeaderValue.toStr_ofStr visible_location
    exact Option.isSome_iff_exists.mpr ⟨value, hvalue⟩
  · exact isSome_ofStr_buildCookie sound_loginEnv.cookieNames.1 _ _ _
  · decide

theorem extractCookie_loginHeader :
    extractCookie loginHeader loginEnv.routes.sessionCookie.toList = none := by
  have hvisible : ∀ c ∈ loginLine.toList, c = '\t' ∨ 0x20 ≤ c.toNat ∧ c.toNat < 0x7F := by
    rw [show loginLine.toList = _ from String.toList_ofList]
    exact visible_of_all (by decide)
  rw [extractCookie_eq rfl (toStr_headerValue _ hvisible),
    show loginLine.toList = _ from String.toList_ofList]
  decide

theorem sends_loginHeader : Sends loginEnv signedIn 0 loginHeader := by
  obtain ⟨value, hvalue, hbytes⟩ :=
    header_startLogin_drawn (List.mem_cons_of_mem _ List.mem_cons_self)
  intro name hname
  rcases List.mem_cons.mp hname with rfl | hname
  · refine Or.inr ⟨_, ⟨?_, ?_, _, List.mem_singleton_self _, value, hvalue, hbytes⟩,
      sentBack_loginHeader⟩
    · rw [loginCookieOf_drawn, loginCookie_kept.1]
    · exact name_buildCookie sound_loginEnv.cookieNames.1 _ _ _ _
  · obtain rfl := List.mem_singleton.mp hname
    exact Or.inl extractCookie_loginHeader

theorem queryField_hydraAnswer : queryField (parse (encode hydraAnswer)) "code" = some (some "c") ∧
    queryField (parse (encode hydraAnswer)) "state" = some (some "s") ∧
    queryField (parse (encode hydraAnswer)) "error" = some none := by
  have hanswer : hydraAnswer = _ := String.toList_ofList
  rw [hanswer]
  decide

theorem sentOn_hydraAnswer : SentOn (parse (encode hydraQuery)) "c" hydraAnswer := by
  obtain ⟨-, -, -, hstate⟩ := @param_authorizePairs _ _ loginEnv drawn hydraQuery rfl
  obtain ⟨hcode, hstate', herror⟩ := queryField_hydraAnswer
  exact ⟨hcode, hstate'.trans (congrArg some hstate.symm), herror⟩

/-- What the browser sends once it is signed in. -/
def sessionLine : String := "__Host-wa_session=id"

def sessionValue : HeaderValue :=
  headerValue sessionLine (by
    rw [show sessionLine.toList = _ from String.toList_ofList]
    decide +kernel)

theorem ofStr_sessionLine : HeaderValue.ofStr sessionLine.toList = some sessionValue :=
  ofStr_eq_headerValue _

def sessionHeader : HeaderMap := (∅ : HeaderMap).insert .cookie sessionValue

def sessionCookie : List Char :=
  sessionLine.toList ++ "; HttpOnly; Path=/; SameSite=Lax; Secure; Max-Age=2592000".toList

theorem extractCookie_sessionHeader :
    extractCookie sessionHeader loginEnv.routes.loginCookie.toList = none := by
  have hvisible : ∀ c ∈ sessionLine.toList, c = '\t' ∨ 0x20 ≤ c.toNat ∧ c.toNat < 0x7F := by
    rw [show sessionLine.toList = _ from String.toList_ofList]
    exact visible_of_all (by decide)
  rw [extractCookie_eq rfl (toStr_headerValue _ hvisible),
    show sessionLine.toList = _ from String.toList_ofList]
  decide

theorem sessionCookie_kept : isExpired sessionCookie = false ∧
    cookieLine [cookiePair sessionCookie] = sessionLine.toList ∧
    buildCookie loginEnv.routes.sessionCookie.toList "id".toList ['/']
      (sessionMaxAgeSecs loginEnv.routes.callback.refreshTtl) true = sessionCookie := by
  rw [sessionCookie, buildCookie, show sessionLine.toList = _ from String.toList_ofList,
    show "; HttpOnly; Path=".toList = _ from String.toList_ofList,
    show "; SameSite=Lax".toList = _ from String.toList_ofList,
    show "; Max-Age=".toList = _ from String.toList_ofList,
    show "; HttpOnly; Path=/; SameSite=Lax; Secure; Max-Age=2592000".toList = _
      from String.toList_ofList]
  decide

theorem verifyIdToken_signed (a b : String) : verifyIdToken (openId (a ++ "." ++ b)) "https://h"
    "bff" (fun _ => .ok ()) (a ++ "." ++ b) "access" "n" = .ok ⟨1, some "login"⟩ :=
  verifyIdToken_openId a b

theorem verifyIdToken_loginEnv : verifyIdToken loginEnv.openId loginEnv.routes.hydraPublicUrl
    loginEnv.routes.bffClientId (fun _ => .ok ()) idToken "access" "n" = .ok ⟨1, some "login"⟩ :=
  verifyIdToken_signed header signed

theorem tokenRequest_token : tokenRequest (.ok ⟨200, none, .ok token⟩) =
    .ok ⟨"access", some "refresh", some idToken, Duration.seconds 900⟩ :=
  rfl

theorem sentBack_sessionHeader : SentBack loginEnv.routes.sessionCookie.toList sessionCookie
    sessionHeader := by
  refine ⟨[], [], by simp, by simp, ?_⟩
  rw [List.nil_append, sessionCookie_kept.2.1, ofStr_sessionLine]
  rfl

theorem sends_sessionHeader {s : State}
    (h : (0, seeOther (completedHeaders loginEnv.routes "id" pending)) ∈ s.given) :
    Sends loginEnv s 0 sessionHeader := by
  obtain ⟨hlogin, hsession, -⟩ := sound_loginEnv.cookieNames
  have hall : ∀ e ∈ completedHeaders loginEnv.routes "id" pending,
      (HeaderValue.ofStr e.2).isSome = true := by
    intro e he
    simp only [completedHeaders, List.mem_cons, List.not_mem_nil, or_false] at he
    rcases he with rfl | rfl | rfl | rfl
    · decide
    · exact isSome_ofStr_buildCookie hsession _ _ _
    · exact isSome_ofStr_buildCookie hlogin _ _ _
    · decide
  obtain ⟨value, hvalue, hbytes⟩ := exists_mem_seeOther hall
    (List.mem_cons_of_mem _ List.mem_cons_self)
  intro name hname
  rcases List.mem_cons.mp hname with rfl | hname
  · exact Or.inl extractCookie_sessionHeader
  · obtain rfl := List.mem_singleton.mp hname
    refine Or.inr ⟨sessionCookie, ⟨sessionCookie_kept.1, ?_, _, h, value, hvalue, ?_⟩,
      sentBack_sessionHeader⟩
    · rw [← sessionCookie_kept.2.2]
      exact name_buildCookie hsession _ _ _ _
    · rw [hbytes, ← sessionCookie_kept.2.2]
      rfl

/-- What the callback comes to. -/
theorem exists_done : ∃ s session, Reaches (step loginEnv) (Allowed loginEnv 0) State.start s ∧
    Sends loginEnv s 0 sessionHeader ∧ s.sessions.getSession "id" = some session := by
  have hinv := inv_of_reaches sound_loginEnv reaches_signedIn
  obtain ⟨-, -, -, hstate⟩ := @param_authorizePairs _ _ loginEnv drawn hydraQuery rfl
  have hasked := hinv.asked_of_sentOn sound_loginEnv (List.mem_singleton_self (0, drawn))
    (List.mem_singleton_self "https://app.test/") sentBack_loginHeader sentOn_hydraAnswer hstate
  have hprevious : (extractCookie loginHeader loginEnv.routes.sessionCookie.toList).map
      String.ofList ≠ some "id" := by
    rw [extractCookie_loginHeader]
    exact (Option.some_ne_none _).symm
  obtain ⟨s, hstep, hgiven, hstored⟩ := @Inv.step_of_asked _ _ loginEnv 0 signedIn hinv 0
    loginHeader hydraAnswer "id" "c" idToken "refresh" 0 (fun _ => .ok ()) exchange pending _ _
    hasked tokenRequest_token rfl rfl verifyIdToken_loginEnv hprevious List.not_mem_nil (by decide)
  exact ⟨s, _, reaches_signedIn.tail (e := .callback (some 0) loginHeader hydraAnswer "id" 0
    (fun _ => .ok ()) exchange) ⟨redeems_exchange, sends_loginHeader⟩ hstep,
    sends_sessionHeader hgiven, hstored⟩

end Sample

open Bff.Sample Sample

/-- The session of the user 1, who signed in in the browser 0. -/
theorem signed_in_here_first : ∃ (s : State) (session : SessionData),
    s.sessions.getSession "id" = some session ∧
    ∃ a ∈ s.authorizations, a.browser = 0 ∧ a.userId = session.userId ∧ ∃ drawn,
      (0, drawn) ∈ s.drawn ∧ a.codeChallenge = some (loginEnv.challenge drawn) ∧
      a.nonce = some drawn.nonce := by
  obtain ⟨s, session, hreaches, hsends, hget⟩ := exists_done
  have hsent := sentBack_sessionHeader
  rw [← sessionCookie_kept.2.2] at hsent
  have hid := extractCookie_of_sentBack sound_loginEnv.cookieNames.2.1 hsent
  exact ⟨s, session, hget, signed_in_here sound_loginEnv hreaches hsends hid
    ((congrArg s.sessions.getSession String.ofList_toList).trans hget)⟩

theorem session_of_login_first : ∃ (s : State) (session : SessionData),
    s.sessions.getSession "id" = some session ∧
    ∃ r ∈ s.redemptions, ∃ a ∈ s.authorizations, r.sessionId = "id" ∧ a.code = r.code ∧
      a.userId = session.userId ∧ (s.RequestedIn loginEnv 0 a ↔ r.sender = some 0) ∧
      (r.sender = some 0 → a.browser = 0) ∧
      ∀ r' ∈ s.redemptions, r'.code = r.code ∨ r'.sessionId = "id" → r' = r := by
  obtain ⟨s, session, hreaches, -, hget⟩ := exists_done
  exact ⟨s, session, hget, session_of_login sound_loginEnv hreaches hget⟩

theorem login_completes_first : ∃ s' session,
    step loginEnv signedIn (.callback (some 0) loginHeader hydraAnswer "id" 0 (fun _ => .ok ())
      exchange) = some s' ∧
    s'.sessions.getSession "id" = some session ∧ session.userId = 1 := by
  obtain ⟨location, hlocation, hurl⟩ := header_startLogin_drawn List.mem_cons_self
  obtain ⟨cookie, hcookie, hbytes⟩ :=
    header_startLogin_drawn (List.mem_cons_of_mem _ List.mem_cons_self)
  have hredeems : ∀ verifier, authorization.codeChallenge =
      some (loginEnv.routes.pkceChallenge verifier) →
      exchange "c" verifier = .ok ⟨200, none, .ok token⟩ := by
    intro verifier hchallenge
    by_cases hverifier : verifier = "v"
    · rw [exchange, if_pos ⟨rfl, hverifier⟩]
    · have hempty : loginEnv.routes.pkceChallenge verifier = "" := if_neg hverifier
      rw [hempty] at hchallenge
      exact absurd (Option.some.inj hchallenge) (by decide)
  obtain ⟨s', -, hstep, -, -, hstored, -⟩ := @login_completes _ _ loginEnv 0 signedIn 0 drawn []
    hydraQuery hydraAnswer (loginCookieOf loginEnv.routes drawn "https://app.test/") location cookie
    loginHeader authorization exchange token "id" idToken "refresh" 0 (fun _ => .ok ()) _ _
    sound_loginEnv reaches_signedIn (List.mem_singleton_self _) hlocation hurl hcookie hbytes
    (List.mem_singleton_self _) boundTo_hydraQuery sentOn_hydraAnswer sends_loginHeader
    sentBack_loginHeader redeems_exchange hredeems tokenRequest_token rfl rfl verifyIdToken_loginEnv
    List.not_mem_nil (by decide)
  exact ⟨s', _, hstep, hstored, rfl⟩

end LoginProtocol

end Bff

end WeaveAuth
