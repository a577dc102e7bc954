import WeaveAuth.Bff.System
import WeaveAuth.ForMathlib.Transition

/-!
# What a task can do between two awaits

`Task.resume` branch by branch: `Resumes` has one constructor for each way through the code from
one await to the next, with what the branch was taken on. A proof about a step is a case analysis
on it, and never unfolds a service.

`Starts`, `Drops` and `Steps` are the same for a request that arrives, for one that is dropped, and
for an event of the system.

## Main results

* `resumes_of_resume`, `steps_of_step`: the branches are all there is

## Implementation notes

The constructors carry everything that a branch was taken on, guards and readings included, so that
no proof has to go back to `Task.resume` for what a step meant. A service that is called from two
places, as `end_session` is from the logout and from the callback, has its branches once, under the
name of its own place in the code.
-/

namespace WeaveAuth

namespace Bff

/-- Task `t` runs from `task` in `w` to the last two arguments. -/
inductive Resumes (env : Env) (t : TaskId) (i : Input) (w : World) :
    Task → World → Task → Prop where
  -- resolve_bearer_token
  | noSession {id : String} (hget : w.sessions.getSession id = none) :
      Resumes env t i w (.proxied id .getSession) w
        (.answered (.proxied (.error .unauthenticated)))
  | ended {id : String} {session : SessionData} (hget : w.sessions.getSession id = some session)
      (hended : session.endsAt ≤ i.now) :
      Resumes env t i w (.proxied id .getSession) { w with clock := i.now }
        (.answered (.proxied (.error .unauthenticated)))
  | fresh {id : String} {session : SessionData} (hget : w.sessions.getSession id = some session)
      (hlive : i.now < session.endsAt) (hfresh : isFresh session i.now' = true) :
      Resumes env t i w (.proxied id .getSession) { w with clock := i.now' }
        (.answered (.proxied (.ok session.accessToken)))
  | acquire {id : String} {session : SessionData} (hget : w.sessions.getSession id = some session)
      (hlive : i.now < session.endsAt) (hstale : isFresh session i.now' = false) :
      Resumes env t i w (.proxied id .getSession)
        { w with clock := i.now', refreshLocks := w.refreshLocks.acquire t id }
        (.proxied id .acquire)
  | lockOwned {id : String} {locks : RefreshLocks}
      (hlock : w.refreshLocks.lockOwned t = some locks) :
      Resumes env t i w (.proxied id .acquire) { w with refreshLocks := locks }
        (.proxied id .getSessionAgain)
  | noSessionAgain {id : String} (hget : w.sessions.getSession id = none) :
      Resumes env t i w (.proxied id .getSessionAgain) (w.release t)
        (.answered (.proxied (.error .unauthenticated)))
  | freshAgain {id : String} {session : SessionData}
      (hget : w.sessions.getSession id = some session) (hfresh : isFresh session i.now = true) :
      Resumes env t i w (.proxied id .getSessionAgain) ({ w with clock := i.now }.release t)
        (.answered (.proxied (.ok session.accessToken)))
  | refresh {id : String} {session : SessionData} (hget : w.sessions.getSession id = some session)
      (hstale : isFresh session i.now = false) :
      Resumes env t i w (.proxied id .getSessionAgain)
        ({ w with clock := i.now }.call t (.refreshToken session.refreshToken))
        (.proxied id (.refresh session))
  -- refresh_session
  | tokens {id : String} {session : SessionData} {answer : Answer} {tokens : TokenSet}
      (hanswer : w.hydra.answer? t = some answer) (htokens : tokenRequest answer = .ok tokens) :
      Resumes env t i w (.proxied id (.refresh session)) { w with clock := i.now' }
        (.proxied id (.updateSession (refreshed env.refreshTtl session tokens i.now i.now')))
  | rejected {id : String} {session : SessionData} {answer : Answer} {endpoint : String}
      {status : ℕ} (hanswer : w.hydra.answer? t = some answer)
      (htokens : tokenRequest answer = .error (.rejected endpoint status)) :
      Resumes env t i w (.proxied id (.refresh session)) w
        (.proxied id (.takeSession endpoint status))
  | unavailable {id : String} {session : SessionData} {answer : Answer} {error : HydraError}
      (hanswer : w.hydra.answer? t = some answer) (htokens : tokenRequest answer = .error error)
      (herror : ∀ endpoint status, error ≠ .rejected endpoint status) :
      Resumes env t i w (.proxied id (.refresh session)) (w.release t)
        (.answered (.proxied (.error (.refreshUnavailable error))))
  | sessionGone {id : String} {data : SessionData}
      (hupdate : w.sessions.updateSession id data = none) :
      Resumes env t i w (.proxied id (.updateSession data)) w
        (.proxied id (.revoke data.refreshToken))
  | updateSession {id : String} {data : SessionData} {sessions : Sessions}
      (hupdate : w.sessions.updateSession id data = some sessions) :
      Resumes env t i w (.proxied id (.updateSession data))
        ({ w with sessions := sessions }.release t)
        (.answered (.proxied (.ok data.accessToken)))
  | takeRefused {id endpoint : String} {status : ℕ} :
      Resumes env t i w (.proxied id (.takeSession endpoint status))
        ({ w with sessions := (w.sessions.takeSession id).2 }.release t)
        (.answered (.proxied (.error (.refreshRefused endpoint status))))
  | revokeLate {id refreshToken : String} :
      Resumes env t i w (.proxied id (.revoke refreshToken))
        ((w.revoke refreshToken).release t) (.answered (.proxied (.error .unauthenticated)))
  -- complete
  | exchangeFailed {pending : PendingLogin} {previous : Option String} {answer : Answer}
      {error : HydraError} (hanswer : w.hydra.answer? t = some answer)
      (htokens : tokenRequest answer = .error error) :
      Resumes env t i w (.callback (.exchangeCode pending previous)) w
        (.answered (.callback (.error (.exchange error))))
  | noIdToken {pending : PendingLogin} {previous : Option String} {answer : Answer}
      {tokens : TokenSet} (hanswer : w.hydra.answer? t = some answer)
      (htokens : tokenRequest answer = .ok tokens) (hid : tokens.idToken = none) :
      Resumes env t i w (.callback (.exchangeCode pending previous)) w
        (.answered (.callback (.error (.missing "id_token"))))
  | noRefreshToken {pending : PendingLogin} {previous : Option String} {answer : Answer}
      {tokens : TokenSet} (hanswer : w.hydra.answer? t = some answer)
      (htokens : tokenRequest answer = .ok tokens) (hrefresh : tokens.refreshToken = none) :
      Resumes env t i w (.callback (.exchangeCode pending previous)) w
        (.answered (.callback (.error (.missing "refresh_token"))))
  | exchanged {pending : PendingLogin} {previous : Option String} {answer : Answer}
      {tokens : TokenSet} {idToken refreshToken : String}
      (hanswer : w.hydra.answer? t = some answer) (htokens : tokenRequest answer = .ok tokens)
      (hid : tokens.idToken = some idToken) (hrefresh : tokens.refreshToken = some refreshToken) :
      Resumes env t i w (.callback (.exchangeCode pending previous)) w
        (.callback (.verifyIdToken pending previous tokens idToken refreshToken))
  | idTokenRejected {pending : PendingLogin} {previous : Option String} {tokens : TokenSet}
      {idToken refreshToken : String} {error : IdTokenError} (hid : i.idTokenError = some error) :
      Resumes env t i w (.callback (.verifyIdToken pending previous tokens idToken refreshToken))
        w (.answered (.callback (.error (.idToken error))))
  | verified {pending : PendingLogin} {previous : Option String} {tokens : TokenSet}
      {idToken refreshToken : String} {verified : VerifiedIdToken}
      (hid : env.identity idToken = some verified) (hdraw : ∀ e ∈ w.drawn, e.1 ≠ i.sessionId) :
      Resumes env t i w (.callback (.verifyIdToken pending previous tokens idToken refreshToken))
        { w with clock := i.now, drawn := (i.sessionId, t) :: w.drawn }
        (.callback (.saveSession pending previous i.sessionId
          (newSession env.refreshTtl tokens refreshToken idToken verified i.now)))
  | saveSession {pending : PendingLogin} {previous : Option String} {id : String}
      {data : SessionData} :
      Resumes env t i w (.callback (.saveSession pending previous id data))
        ({ w with
          sessions := (w.sessions.saveSession id data).2
          saved := (id, t) :: w.saved }.spawn t (w.sessions.saveSession id data).1)
        (.callback (.revokeEvicted pending previous id))
  | loggedIn {pending : PendingLogin} {id : String} (hjoin : w.spawned t = []) :
      Resumes env t i w (.callback (.revokeEvicted pending none id)) w
        (.answered (started env pending id))
  | endPrevious {pending : PendingLogin} {previous id : String} (hjoin : w.spawned t = []) :
      Resumes env t i w (.callback (.revokeEvicted pending (some previous) id)) w
        (.callback (.endSession pending id (.takeSession previous)))
  | noPrevious {pending : PendingLogin} {previous id : String}
      (hget : w.sessions.getSession previous = none) :
      Resumes env t i w (.callback (.endSession pending id (.takeSession previous)))
        { w with sessions := (w.sessions.takeSession previous).2 }
        (.answered (started env pending id))
  | takePrevious {pending : PendingLogin} {previous id : String} {session : SessionData}
      (hget : w.sessions.getSession previous = some session) :
      Resumes env t i w (.callback (.endSession pending id (.takeSession previous)))
        { w with sessions := (w.sessions.takeSession previous).2 }
        (.callback (.endSession pending id (.revoke session)))
  | revokePrevious {pending : PendingLogin} {id : String} {session : SessionData} :
      Resumes env t i w (.callback (.endSession pending id (.revoke session)))
        (w.revoke session.refreshToken) (.answered (started env pending id))
  -- logout
  | noLogout {redirectUri : Option String} {id : String}
      (hget : w.sessions.getSession id = none) :
      Resumes env t i w (.logout redirectUri (.takeSession id))
        { w with sessions := (w.sessions.takeSession id).2 }
        (.answered (.logout none (redirectUri.filter (allowsRedirectUri env.redirectUriAllowlist))))
  | takeLogout {redirectUri : Option String} {id : String} {session : SessionData}
      (hget : w.sessions.getSession id = some session) :
      Resumes env t i w (.logout redirectUri (.takeSession id))
        { w with sessions := (w.sessions.takeSession id).2 } (.logout redirectUri (.revoke session))
  | revokeLogout {redirectUri : Option String} {session : SessionData} :
      Resumes env t i w (.logout redirectUri (.revoke session)) (w.revoke session.refreshToken)
        (.answered (.logout (some session.idToken)
          (redirectUri.filter (allowsRedirectUri env.redirectUriAllowlist))))
  -- back-channel logout
  | undecoded {error : LogoutTokenError} (hdecoded : i.decoded = .error error) :
      Resumes env t i w (.backchannelLogout .verifyLogoutToken) w
        (.answered (.backchannelLogout (.error (.ofLogoutTokenError error))))
  | invalid {raw : Json} {error : LogoutTokenError} (hdecoded : i.decoded = .ok raw)
      (hcheck : LogoutToken.checkClaims env.parseStr raw i.now = .error error) :
      Resumes env t i w (.backchannelLogout .verifyLogoutToken) { w with clock := i.now }
        (.answered (.backchannelLogout (.error (.ofLogoutTokenError error))))
  | valid {raw : Json} {claims : LogoutClaims} (hdecoded : i.decoded = .ok raw)
      (hcheck : LogoutToken.checkClaims env.parseStr raw i.now = .ok claims) :
      Resumes env t i w (.backchannelLogout .verifyLogoutToken) { w with clock := i.now' }
        (.backchannelLogout (.record claims i.now'))
  | replayed {claims : LogoutClaims} {now : DateTime}
      (hrecord : w.logoutJtis.record now claims.jti claims.replayUntil = none) :
      Resumes env t i w (.backchannelLogout (.record claims now)) w
        (.answered (.backchannelLogout (.error .replayed)))
  | recorded {claims : LogoutClaims} {now : DateTime} {jtis : JtiStorage}
      (hrecord : w.logoutJtis.record now claims.jti claims.replayUntil = some jtis) :
      Resumes env t i w (.backchannelLogout (.record claims now)) { w with logoutJtis := jtis }
        (.backchannelLogout (.endSessions (.revoke claims.target)))
  | endBackchannel {selector : SessionSelector} :
      Resumes env t i w (.backchannelLogout (.endSessions (.revoke selector)))
        ({ w with sessions := (w.sessions.revoke selector).2 }.spawn t
          (w.sessions.revoke selector).1)
        (.backchannelLogout (.endSessions .join))
  | joinBackchannel (hjoin : w.spawned t = []) :
      Resumes env t i w (.backchannelLogout (.endSessions .join)) w
        (.answered (.backchannelLogout (.ok ())))
  -- internal revocation
  | endInternal {selector : SessionSelector} :
      Resumes env t i w (.internalRevoke (.revoke selector))
        ({ w with sessions := (w.sessions.revoke selector).2 }.spawn t
          (w.sessions.revoke selector).1)
        (.internalRevoke .join)
  | joinInternal (hjoin : w.spawned t = []) :
      Resumes env t i w (.internalRevoke .join) w (.answered .internalRevoke)
  -- sweep
  | sweepSessions {now : DateTime} :
      Resumes env t i w (.sweep (.sessions now))
        { w with clock := i.now, sessions := w.sessions.sweepExpired now }
        (.sweep (.logoutJtis i.now))
  | sweepJtis {now : DateTime} :
      Resumes env t i w (.sweep (.logoutJtis now))
        { w with
          logoutJtis := w.logoutJtis.sweepExpired now
          refreshLocks := w.refreshLocks.prune } (.answered .sweep)

section Branches

variable {env : Env} {t : TaskId} {i : Input} {w w' : World} {task : Task}

theorem Resolve.resumes {id : String} {here : Resolve}
    (h : here.resume env t i id w = some (w', task)) :
    Resumes env t i w (.proxied id here) w' task := by
  cases here with
  | getSession =>
    simp only [resume] at h
    split at h
    · next hget =>
      cases h
      exact .noSession hget
    · next session hget =>
      split at h
      · next hended =>
        cases h
        exact .ended hget hended
      · next hlive =>
        split at h
        · next hfresh =>
          cases h
          exact .fresh hget (not_le.mp hlive) hfresh
        · next hstale =>
          cases h
          exact .acquire hget (not_le.mp hlive) (by simpa using hstale)
  | acquire =>
    simp only [resume] at h
    obtain ⟨locks, hlock, heq⟩ := Option.map_eq_some_iff.mp h
    cases heq
    exact .lockOwned hlock
  | getSessionAgain =>
    simp only [resume] at h
    split at h
    · next hget =>
      cases h
      exact .noSessionAgain hget
    · next session hget =>
      split at h
      · next hfresh =>
        cases h
        exact .freshAgain hget hfresh
      · next hstale =>
        cases h
        exact .refresh hget (by simpa using hstale)
  | refresh session =>
    simp only [resume] at h
    obtain ⟨answer, hanswer, heq⟩ := Option.map_eq_some_iff.mp h
    split at heq
    · next htokens =>
      cases heq
      exact .tokens hanswer htokens
    · next htokens =>
      cases heq
      exact .rejected hanswer htokens
    · next error hrejected htokens =>
      cases heq
      exact .unavailable hanswer htokens hrejected
  | updateSession data =>
    simp only [resume] at h
    split at h
    · next hupdate =>
      cases h
      exact .sessionGone hupdate
    · next sessions hupdate =>
      cases h
      exact .updateSession hupdate
  | takeSession endpoint status =>
    cases h
    exact .takeRefused
  | revoke refreshToken =>
    cases h
    exact .revokeLate

/-- What `end_session` does, as the callback and the logout go on with it. -/
theorem EndSession.resume_cases {here : EndSession} {next : EndSession ⊕ Option SessionData}
    (h : here.resume w = (w', next)) :
    (∃ id, here = .takeSession id ∧ w.sessions.getSession id = none ∧
      w' = { w with sessions := (w.sessions.takeSession id).2 } ∧ next = .inr none) ∨
    (∃ id session, here = .takeSession id ∧ w.sessions.getSession id = some session ∧
      w' = { w with sessions := (w.sessions.takeSession id).2 } ∧ next = .inl (.revoke session)) ∨
    ∃ session, here = .revoke session ∧ w' = w.revoke session.refreshToken ∧
      next = .inr (some session) := by
  cases here with
  | takeSession id =>
    simp only [resume] at h
    have htaken : (w.sessions.takeSession id).1 = w.sessions.getSession id :=
      Sessions.remove_fst _ _
    split at h
    · next hnone =>
      cases h
      exact Or.inl ⟨id, rfl, by rw [← htaken, hnone], rfl, rfl⟩
    · next session hsome =>
      cases h
      exact Or.inr (Or.inl ⟨id, session, rfl, by rw [← htaken, hsome], rfl, rfl⟩)
  | revoke session =>
    cases h
    exact Or.inr (Or.inr ⟨session, rfl, rfl, rfl⟩)

theorem Complete.resumes {here : Complete} (h : here.resume env t i w = some (w', task)) :
    Resumes env t i w (.callback here) w' task := by
  cases here with
  | exchangeCode pending previous =>
    simp only [resume] at h
    obtain ⟨answer, hanswer, heq⟩ := Option.map_eq_some_iff.mp h
    split at heq
    · next htokens =>
      cases heq
      exact .exchangeFailed hanswer htokens
    · next tokens htokens =>
      split at heq
      · next hid =>
        cases heq
        exact .noIdToken hanswer htokens hid
      · next hid hrefresh =>
        cases heq
        exact .noRefreshToken hanswer htokens hrefresh
      · next hid hrefresh =>
        cases heq
        exact .exchanged hanswer htokens hid hrefresh
  | verifyIdToken pending previous tokens idToken refreshToken =>
    simp only [resume] at h
    split at h
    · next herror =>
      cases h
      exact .idTokenRejected herror
    · cases h
    · next verified _ hid =>
      split at h
      · cases h
      · next hdraw =>
        cases h
        refine .verified hid fun e he heq => hdraw (List.mem_map.mpr ⟨e, he, heq⟩)
  | saveSession pending previous id data =>
    cases h
    exact .saveSession
  | revokeEvicted pending previous id =>
    simp only [resume] at h
    split at h
    · cases h
    · next hjoin =>
      split at h
      · cases h
        exact .loggedIn (not_not.mp hjoin)
      · cases h
        exact .endPrevious (not_not.mp hjoin)
  | endSession pending id here =>
    simp only [Complete.resume] at h
    split at h
    · next hres =>
      cases h
      rcases EndSession.resume_cases hres with ⟨_, rfl, _, rfl, hnext⟩ |
        ⟨previous, session, rfl, hget, rfl, hnext⟩ | ⟨session, rfl, rfl, hnext⟩ <;> cases hnext
      exact .takePrevious hget
    · next hres =>
      cases h
      rcases EndSession.resume_cases hres with ⟨previous, rfl, hget, rfl, hnext⟩ |
        ⟨_, _, rfl, _, rfl, hnext⟩ | ⟨session, rfl, rfl, hnext⟩ <;> cases hnext
      · exact .noPrevious hget
      · exact .revokePrevious

theorem logoutResume_resumes {redirectUri : Option String} {here : EndSession}
    (h : logoutResume env redirectUri w here = (w', task)) :
    Resumes env t i w (.logout redirectUri here) w' task := by
  rw [logoutResume] at h
  split at h
  · next hres =>
    cases h
    rcases EndSession.resume_cases hres with ⟨_, rfl, _, rfl, hnext⟩ |
      ⟨id, session, rfl, hget, rfl, hnext⟩ | ⟨session, rfl, rfl, hnext⟩ <;> cases hnext
    exact .takeLogout hget
  · next hres =>
    cases h
    rcases EndSession.resume_cases hres with ⟨id, rfl, hget, rfl, hnext⟩ |
      ⟨_, _, rfl, _, rfl, hnext⟩ | ⟨session, rfl, rfl, hnext⟩ <;> cases hnext
    · exact .noLogout hget
    · exact .revokeLogout

/-- What `end_sessions` does, as the back-channel and the internal revocation go on with it. -/
theorem EndSessions.resume_cases {here : EndSessions} {next : Option EndSessions}
    (h : here.resume t w = some (w', next)) :
    (∃ selector, here = .revoke selector ∧ w' =
      { w with sessions := (w.sessions.revoke selector).2 }.spawn t
        (w.sessions.revoke selector).1 ∧ next = some .join) ∨
    here = .join ∧ w.spawned t = [] ∧ w' = w ∧ next = none := by
  cases here with
  | revoke selector =>
    cases h
    exact Or.inl ⟨selector, rfl, rfl, rfl⟩
  | join =>
    simp only [resume] at h
    split at h
    · cases h
    · next hjoin =>
      cases h
      exact Or.inr ⟨rfl, not_not.mp hjoin, rfl, rfl⟩

theorem Backchannel.resumes {here : Backchannel} (h : here.resume env t i w = some (w', task)) :
    Resumes env t i w (.backchannelLogout here) w' task := by
  cases here with
  | verifyLogoutToken =>
    simp only [resume] at h
    split at h
    · next error hdecoded =>
      cases h
      exact .undecoded hdecoded
    · next raw hdecoded =>
      split at h
      · next error hcheck =>
        cases h
        exact .invalid hdecoded hcheck
      · next claims hcheck =>
        cases h
        exact .valid hdecoded hcheck
  | record claims now =>
    simp only [resume] at h
    split at h
    · next hrecord =>
      cases h
      exact .replayed hrecord
    · next jtis hrecord =>
      cases h
      exact .recorded hrecord
  | endSessions here =>
    simp only [Backchannel.resume] at h
    obtain ⟨⟨w₁, next⟩, hres, heq⟩ := Option.map_eq_some_iff.mp h
    rcases EndSessions.resume_cases hres with ⟨selector, rfl, rfl, rfl⟩ | ⟨rfl, hjoin, rfl, rfl⟩
    · cases heq
      exact .endBackchannel
    · cases heq
      exact .joinBackchannel hjoin

theorem internalRevokeResume_resumes {here : EndSessions}
    (h : internalRevokeResume t w here = some (w', task)) :
    Resumes env t i w (.internalRevoke here) w' task := by
  rw [internalRevokeResume] at h
  obtain ⟨⟨w₁, next⟩, hres, heq⟩ := Option.map_eq_some_iff.mp h
  rcases EndSessions.resume_cases hres with ⟨selector, rfl, rfl, rfl⟩ | ⟨rfl, hjoin, rfl, rfl⟩
  · cases heq
    exact .endInternal
  · cases heq
    exact .joinInternal hjoin

theorem Sweep.resumes {here : Sweep} (h : here.resume i w = (w', task)) :
    Resumes env t i w (.sweep here) w' task := by
  cases here with
  | sessions now =>
    cases h
    exact .sweepSessions
  | logoutJtis now =>
    cases h
    exact .sweepJtis

/-- **The branches are all there is.** -/
theorem resumes_of_resume {from' : Task} (h : from'.resume env t i w = some (w', task)) :
    Resumes env t i w from' w' task := by
  cases from' with
  | proxied id here => exact Resolve.resumes h
  | callback here => exact Complete.resumes h
  | logout redirectUri here => exact logoutResume_resumes (Option.some.inj h)
  | backchannelLogout here => exact Backchannel.resumes h
  | internalRevoke here => exact internalRevokeResume_resumes h
  | sweep here => exact Sweep.resumes (Option.some.inj h)
  | answered outcome => cases h
  | dropped => cases h

end Branches

/-! ### The other events -/

/-- A request's code up to its first await. -/
inductive Starts (env : Env) (t : TaskId) (now : DateTime) (w : World) :
    Request → World → Task → Prop where
  | proxied (id : String) : Starts env t now w (.proxied id) w (.proxied id .getSession)
  | refused {pending : Option PendingLogin} {returned : Returned} {previous : Option String}
      {error : CallbackServiceError} : Starts env t now w (.callback pending returned previous) w
        (.answered (.callback (.error error)))
  | exchange {cookie : Option PendingLogin} {returned : Returned} {previous : Option String}
      {pending : PendingLogin} {code : String} :
      Starts env t now w (.callback cookie returned previous)
        (w.call t (.authorizationCode code pending.verifier))
        (.callback (.exchangeCode pending previous))
  | nobody {redirectUri : Option String} : Starts env t now w (.logout none redirectUri) w
      (.answered (.logout none (redirectUri.filter (allowsRedirectUri env.redirectUriAllowlist))))
  | logout {id : String} {redirectUri : Option String} :
      Starts env t now w (.logout (some id) redirectUri) w (.logout redirectUri (.takeSession id))
  | backchannelLogout :
      Starts env t now w .backchannelLogout w (.backchannelLogout .verifyLogoutToken)
  | internalRevoke (userId : Uuid) :
      Starts env t now w (.internalRevoke userId) w (.internalRevoke (.revoke (.user userId)))
  | sweep : Starts env t now w .sweep { w with clock := now } (.sweep (.sessions now))

theorem starts_of_start {env : Env} {t : TaskId} {now : DateTime} {w w' : World} {task : Task}
    {request : Request} (h : request.start env t now w = (w', task)) :
    Starts env t now w request w' task := by
  cases request with
  | proxied id =>
    cases h
    exact .proxied id
  | callback pending returned previous =>
    simp only [Request.start] at h
    split at h
    · cases h
      exact .refused
    · cases h
      exact .exchange
  | logout id redirectUri =>
    cases id <;> cases h
    · exact .nobody
    · exact .logout
  | backchannelLogout =>
    cases h
    exact .backchannelLogout
  | internalRevoke userId =>
    cases h
    exact .internalRevoke userId
  | sweep =>
    cases h
    exact .sweep

theorem Starts.sessions {env : Env} {t : TaskId} {now : DateTime} {w w' : World} {task : Task}
    {request : Request} (h : Starts env t now w request w' task) : w'.sessions = w.sessions := by
  cases h <;> rfl

/-- The task has its session's turn. -/
def Task.hasTurn : Task → Bool
  | .proxied _ .getSession | .proxied _ .acquire => false
  | .proxied _ _ => true
  | _ => false

/-- What a dropped request gives back. -/
inductive Drops (t : TaskId) (w : World) : Task → World → Prop where
  | cancel {id : String} : Drops t w (.proxied id .acquire)
      { w with refreshLocks := w.refreshLocks.cancel t }
  | release {task : Task} (hturn : task.hasTurn = true) : Drops t w task (w.release t)
  | nothing {task : Task} (hturn : task.hasTurn = false)
      (hwaits : ∀ id, task ≠ .proxied id .acquire) : Drops t w task w

theorem drops_of_drop {t : TaskId} {w w' : World} {task : Task} (h : task.drop t w = some w') :
    Drops t w task w' := by
  cases task with
  | proxied id here =>
    cases here with
    | getSession =>
      cases h
      exact .nothing rfl (by simp)
    | acquire =>
      cases h
      exact .cancel
    | _ =>
      cases h
      exact .release rfl
  | callback here =>
    cases h
    exact .nothing rfl (by simp)
  | logout redirectUri here =>
    cases h
    exact .nothing rfl (by simp)
  | backchannelLogout here =>
    cases h
    exact .nothing rfl (by simp)
  | internalRevoke here =>
    cases h
    exact .nothing rfl (by simp)
  | sweep here => cases h
  | answered outcome => cases h
  | dropped => cases h

theorem Drops.sessions {t : TaskId} {w w' : World} {task : Task} (h : Drops t w task w') :
    w'.sessions = w.sessions := by
  cases h <;> rfl

theorem Drops.hydra {t : TaskId} {w w' : World} {task : Task} (h : Drops t w task w') :
    w'.hydra = w.hydra := by
  cases h <;> rfl

/-- One event of the system. -/
inductive Steps (env : Env) (c : State) : Event → State → Prop where
  | start {t : TaskId} {request : Request} {now : DateTime} {w : World} {task : Task}
      (hthread : c.thread t = none) (htimely : c.shared.Timely now)
      (h : Starts env t now c.shared request w task) :
      Steps env c (.start t request now) (c.move t w (some task))
  | resume {t : TaskId} {i : Input} {task task' : Task} {w : World}
      (hthread : c.thread t = some task) (htimely : c.shared.Timely i.now) (hnow : i.now ≤ i.now')
      (h : Resumes env t i c.shared task w task') :
      Steps env c (.resume t i) (c.move t w (some task'))
  | drop {t : TaskId} {task : Task} {w : World} (hthread : c.thread t = some task)
      (h : Drops t c.shared task w) : Steps env c (.drop t) (c.move t w (some .dropped))
  | hydra {t : TaskId} {now : DateTime} {effect : Effect} {answer : Answer} {hydra : HydraServer}
      (hnow : c.shared.clock ≤ now) (h : c.shared.hydra.serve t now effect answer = some hydra) :
      Steps env c (.hydra t now effect answer) ⟨{ c.shared with hydra := hydra }, c.thread⟩
  | spawned {t : TaskId} :
      Steps env c (.spawned t) ⟨c.shared.runSpawned t, c.thread⟩

theorem steps_of_step {env : Env} {c c' : State} {e : Event} (h : step env c e = some c') :
    Steps env c e c' := by
  cases e with
  | start t request now =>
    simp only [step] at h
    split at h
    · next hguard =>
      cases h
      exact .start hguard.1 hguard.2 (starts_of_start rfl)
    · cases h
  | resume t i =>
    simp only [step] at h
    split at h
    · cases h
    · next task hthread =>
      split at h
      · next hguard =>
        obtain ⟨⟨w, task'⟩, hresume, rfl⟩ := Option.map_eq_some_iff.mp h
        exact .resume hthread hguard.1 hguard.2 (resumes_of_resume hresume)
      · cases h
  | drop t =>
    simp only [step] at h
    split at h
    · cases h
    · next task hthread =>
      obtain ⟨w, hdrop, rfl⟩ := Option.map_eq_some_iff.mp h
      exact .drop hthread (drops_of_drop hdrop)
  | hydra t now effect answer =>
    simp only [step] at h
    split at h
    · next hnow =>
      obtain ⟨hydra, hserve, rfl⟩ := Option.map_eq_some_iff.mp h
      exact .hydra hnow hserve
    · cases h
  | spawned t =>
    simp only [step] at h
    split at h
    · cases h
    · cases h
      exact .spawned

/-- A task only moves by its own events. -/
theorem thread_step {env : Env} {c c' : State} {e : Event} {t : TaskId} (ht : e.task ≠ t)
    (hs : step env c e = some c') : c'.thread t = c.thread t := by
  cases steps_of_step hs with
  | start | resume | drop => exact c.thread_move_ne (Ne.symm ht) _ _
  | hydra | spawned => rfl

open Transition in
theorem thread_run {env : Env} {t : TaskId} : ∀ {es : List Event} {c c' : State},
    (∀ e ∈ es, e.task ≠ t) → run (step env) c es = some c' → c'.thread t = c.thread t := by
  intro es
  induction es with
  | nil =>
    intro c c' _ hrun
    rw [Option.some.inj hrun]
  | cons e es ih =>
    intro c c' hes hrun
    obtain ⟨d, hs, hrest⟩ := Option.bind_eq_some_iff.mp hrun
    obtain ⟨he, hes⟩ := List.forall_mem_cons.mp hes
    rw [ih hes hrest, thread_step he hs]

end Bff

end WeaveAuth
