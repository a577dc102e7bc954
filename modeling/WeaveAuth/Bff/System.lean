import WeaveAuth.Bff.Callback
import WeaveAuth.Bff.HydraServer
import WeaveAuth.Bff.JtiStorage
import WeaveAuth.Bff.Proxy
import WeaveAuth.Bff.RefreshLock
import WeaveAuth.Bff.SessionStorage
import WeaveAuth.ForMathlib.Interleaving

/-!
# bff at work

Every request and the expiry sweep as a task that runs from one `await` to the next, over the
state they share. A `Task` says where a task stands: what it awaits, with the locals it needs
afterwards. `Task.resume` is the code from that await to the following one, and runs without
interruption, since the store and the lock map are only touched under a mutex that is not held
across an await. What a task reads from outside on the way is its `Input`.

Between two such runs anything else may happen: another task runs, Hydra takes up a call, a
revocation task of its own runs, or a request is dropped at the await it stands at.

The cookies, headers and status codes around the services are left out, and so are the rate
limits, whose entries the sweep also forgets: they decide whether a request gets here, and none of
what happens then.

## Main definitions

* `World`: the shared state, with Hydra's side of it
* `Resolve.resume`, `Complete.resume`, `EndSession.resume`, `EndSessions.resume`,
  `Backchannel.resume`, `Sweep.resume`: the services
* `step`: one event of the system

## The clock

There is one wall clock, `World.clock`, the last reading that anybody took, and `World.Timely` lets
no later reading be earlier: every theorem about a run of bff is about runs in which the clock is
not set back. The theorems about time need that. `SessionCap` and `CompleteLogin` are about a single
store and a single callback, and say what a clock that was set back does there.

A task that reads the clock twice in one stretch has two readings, `now` and `now'`, in this order.

## What is left out

The order in which waiting tasks get a mutex: any of them may, and every theorem is about each
choice. What a restart forgets: a run begins with an empty store.
-/

namespace WeaveAuth

namespace Bff

/-- bff's configuration, and the code of other crates it calls. -/
structure Env where
  refreshTtl : Duration
  redirectUriAllowlist : List String
  /-- SHA-256. -/
  digest : String → List (BitVec 8)
  /-- Whom a raw id_token names, if it verifies. -/
  identity : String → Option VerifiedIdToken
  /-- `Uuid::parse_str`. -/
  parseStr : String → Option Uuid

/-! ### The shared state -/

structure World where
  /-- The last reading of the clock. -/
  clock : DateTime
  sessions : Sessions
  logoutJtis : JtiStorage
  refreshLocks : RefreshLocks
  /-- The refresh tokens in a task's `tokio::spawn`ed revocation, until it has run. -/
  spawned : TaskId → List String
  hydra : HydraServer
  /-- The session ids `Uuid::new_v4` returned, and to whom. -/
  drawn : List (String × TaskId)
  /-- The session ids stored by a login. Nobody reads this; it is for what is said of a run. -/
  saved : List (String × TaskId)

namespace World

/-- Nothing stored, nothing asked of Hydra. -/
def start (now : DateTime) : World where
  clock := now
  sessions := .empty
  logoutJtis := .empty
  refreshLocks := .empty
  spawned _ := []
  hydra := .start now
  drawn := []
  saved := []

/-- The task lets go of its turn. -/
def release (w : World) (t : TaskId) : World :=
  { w with refreshLocks := w.refreshLocks.dropGuard t }

/-- The task sends a request to the token endpoint. -/
def call (w : World) (t : TaskId) (grant : Grant) : World :=
  { w with hydra := w.hydra.call t grant }

/-- `Hydra::revoke` has returned; bff does nothing else about a failed revocation than log it. -/
def revoke (w : World) (refreshToken : String) : World :=
  { w with hydra := { w.hydra with revoked := [refreshToken] ++ w.hydra.revoked } }

/-- The `tokio::spawn` of `revoke_refresh_tokens`. -/
def spawn (w : World) (t : TaskId) (ended : List SessionData) : World :=
  { w with
    spawned := Function.update w.spawned t (w.spawned t ++ ended.map SessionData.refreshToken) }

/-- The spawned task calls `Hydra::revoke` for all its tokens. -/
def runSpawned (w : World) (t : TaskId) : World :=
  { w with
    spawned := Function.update w.spawned t []
    hydra := { w.hydra with revoked := w.spawned t ++ w.hydra.revoked } }

end World

/-! ### Where a task stands -/

/-- `resolve_bearer_token`, and `refresh_session` from `refresh` on. -/
inductive Resolve where
  | getSession
  | acquire
  | getSessionAgain
  | refresh (session : SessionData)
  | updateSession (data : SessionData)
  /-- Hydra refused the refresh token. -/
  | takeSession (endpoint : String) (status : ℕ)
  /-- The session was gone when the new tokens came. -/
  | revoke (refreshToken : String)
  deriving DecidableEq

/-- `AppState::end_session`. -/
inductive EndSession where
  | takeSession (sessionId : String)
  | revoke (session : SessionData)
  deriving DecidableEq

/-- `AppState::end_sessions`, and its `revoke_refresh_tokens`. -/
inductive EndSessions where
  | revoke (selector : SessionSelector)
  | join
  deriving DecidableEq

/-- The callback's `complete`. -/
inductive Complete where
  | exchangeCode (pending : PendingLogin) (previous : Option String)
  | verifyIdToken (pending : PendingLogin) (previous : Option String) (tokens : TokenSet)
      (idToken refreshToken : String)
  | saveSession (pending : PendingLogin) (previous : Option String) (sessionId : String)
      (data : SessionData)
  | revokeEvicted (pending : PendingLogin) (previous : Option String) (sessionId : String)
  | endSession (pending : PendingLogin) (sessionId : String) (here : EndSession)
  deriving DecidableEq

/-- The back-channel's `logout`. -/
inductive Backchannel where
  | verifyLogoutToken
  | record (claims : LogoutClaims) (now : DateTime)
  | endSessions (here : EndSessions)
  deriving DecidableEq

/-- One round of `spawn_expiry_sweep`. -/
inductive Sweep where
  | sessions (now : DateTime)
  | logoutJtis (now : DateTime)
  deriving DecidableEq

/-- What a service returned. -/
inductive Outcome where
  | proxied (result : Except ProxyServiceError String)
  | callback (result : Except CallbackServiceError StartedSession)
  /-- The hint and the destination that `logout_url` is made of. -/
  | logout (hint redirectUri : Option String)
  | backchannelLogout (result : Except BackchannelServiceError Unit)
  | internalRevoke
  | sweep
  deriving DecidableEq

inductive Task where
  | proxied (sessionId : String) (here : Resolve)
  | callback (here : Complete)
  | logout (redirectUri : Option String) (here : EndSession)
  | backchannelLogout (here : Backchannel)
  | internalRevoke (here : EndSessions)
  | sweep (here : Sweep)
  | answered (outcome : Outcome)
  | dropped
  deriving DecidableEq

/-- What a task is given when it runs: two readings of the clock, which not every run makes, and
what it awaited or draws. -/
structure Input where
  now : DateTime
  now' : DateTime
  /-- What `Uuid::new_v4` returns. -/
  sessionId : String := ""
  /-- Why `verify_id_token` failed, if it did. -/
  idTokenError : Option IdTokenError := none
  /-- What decoding and verifying a logout token came to. -/
  decoded : Except LogoutTokenError Json := .error .noKeyId

/-! ### The services -/

section Services

variable (env : Env) (t : TaskId) (i : Input)

def Resolve.resume (sessionId : String) (w : World) : Resolve → Option (World × Task)
  | .getSession =>
    match w.sessions.getSession sessionId with
    | none => some (w, .answered (.proxied (.error .unauthenticated)))
    | some session =>
      if session.endsAt ≤ i.now then
        some ({ w with clock := i.now }, .answered (.proxied (.error .unauthenticated)))
      else if isFresh session i.now' then
        some ({ w with clock := i.now' }, .answered (.proxied (.ok session.accessToken)))
      else
        some ({ w with clock := i.now', refreshLocks := w.refreshLocks.acquire t sessionId },
          .proxied sessionId .acquire)
  | .acquire =>
    (w.refreshLocks.lockOwned t).map fun locks =>
      ({ w with refreshLocks := locks }, .proxied sessionId .getSessionAgain)
  | .getSessionAgain =>
    -- Whoever held the turn before may have refreshed already (or logged the user out).
    match w.sessions.getSession sessionId with
    | none => some (w.release t, .answered (.proxied (.error .unauthenticated)))
    | some session =>
      if isFresh session i.now then
        some ({ w with clock := i.now }.release t,
          .answered (.proxied (.ok session.accessToken)))
      else
        some ({ w with clock := i.now }.call t (.refreshToken session.refreshToken),
          .proxied sessionId (.refresh session))
  | .refresh session =>
    (w.hydra.answer? t).map fun answer =>
      match tokenRequest answer with
      | .ok tokens =>
        ({ w with clock := i.now' },
          .proxied sessionId
            (.updateSession (refreshed env.refreshTtl session tokens i.now i.now')))
      | .error (.rejected endpoint status) =>
        (w, .proxied sessionId (.takeSession endpoint status))
      | .error error => (w.release t, .answered (.proxied (.error (.refreshUnavailable error))))
  | .updateSession data =>
    match w.sessions.updateSession sessionId data with
    -- Logged out while the refresh was in flight: the new tokens must not outlive that.
    | none => some (w, .proxied sessionId (.revoke data.refreshToken))
    | some sessions =>
      some ({ w with sessions := sessions }.release t,
        .answered (.proxied (.ok data.accessToken)))
  | .takeSession endpoint status =>
    some ({ w with sessions := (w.sessions.takeSession sessionId).2 }.release t,
      .answered (.proxied (.error (.refreshRefused endpoint status))))
  | .revoke refreshToken =>
    some ((w.revoke refreshToken).release t, .answered (.proxied (.error .unauthenticated)))

/-- The session it ended, once it is done. -/
def EndSession.resume (w : World) : EndSession → World × (EndSession ⊕ Option SessionData)
  | .takeSession sessionId =>
    let (taken, sessions) := w.sessions.takeSession sessionId
    match taken with
    | none => ({ w with sessions := sessions }, .inr none)
    | some session => ({ w with sessions := sessions }, .inl (.revoke session))
  | .revoke session => (w.revoke session.refreshToken, .inr (some session))

/-- `none` where it goes on to, once it is done. -/
def EndSessions.resume (w : World) : EndSessions → Option (World × Option EndSessions)
  | .revoke selector =>
    let (ended, sessions) := w.sessions.revoke selector
    some ({ w with sessions := sessions }.spawn t ended, some .join)
  | .join => if w.spawned t ≠ [] then none else some (w, none)

/-- What `complete` returns in the end. -/
def started (pending : PendingLogin) (sessionId : String) : Outcome :=
  .callback (.ok ⟨sessionId, sessionMaxAgeSecs env.refreshTtl, pending.redirectUri⟩)

def Complete.resume (w : World) : Complete → Option (World × Task)
  | .exchangeCode pending previous =>
    (w.hydra.answer? t).map fun answer =>
      match tokenRequest answer with
      | .error error => (w, .answered (.callback (.error (.exchange error))))
      | .ok tokens =>
        match tokens.idToken, tokens.refreshToken with
        | none, _ => (w, .answered (.callback (.error (.missing "id_token"))))
        | some _, none => (w, .answered (.callback (.error (.missing "refresh_token"))))
        | some idToken, some refreshToken =>
          (w, .callback (.verifyIdToken pending previous tokens idToken refreshToken))
  | .verifyIdToken pending previous tokens idToken refreshToken =>
    match i.idTokenError, env.identity idToken with
    | some error, _ => some (w, .answered (.callback (.error (.idToken error))))
    | none, none => none
    | none, some verified =>
      if i.sessionId ∈ w.drawn.map Prod.fst then none
      else
        some ({ w with clock := i.now, drawn := (i.sessionId, t) :: w.drawn },
          .callback (.saveSession pending previous i.sessionId
            (newSession env.refreshTtl tokens refreshToken idToken verified i.now)))
  | .saveSession pending previous sessionId data =>
    let (evicted, sessions) := w.sessions.saveSession sessionId data
    some ({ w with sessions := sessions, saved := (sessionId, t) :: w.saved }.spawn t evicted,
      .callback (.revokeEvicted pending previous sessionId))
  | .revokeEvicted pending previous sessionId =>
    if w.spawned t ≠ [] then none
    else
      match previous with
      | none => some (w, .answered (started env pending sessionId))
      | some previous =>
        some (w, .callback (.endSession pending sessionId (.takeSession previous)))
  | .endSession pending sessionId here =>
    match here.resume w with
    | (w, .inl here) => some (w, .callback (.endSession pending sessionId here))
    | (w, .inr _) => some (w, .answered (started env pending sessionId))

/-- The service of `logout`, after `require_trusted_origin`. -/
def logoutResume (redirectUri : Option String) (w : World) (here : EndSession) : World × Task :=
  match here.resume w with
  | (w, .inl here) => (w, .logout redirectUri here)
  | (w, .inr session) =>
    (w, .answered (.logout (session.map SessionData.idToken)
      (redirectUri.filter (allowsRedirectUri env.redirectUriAllowlist))))

def Backchannel.resume (w : World) : Backchannel → Option (World × Task)
  | .verifyLogoutToken =>
    match i.decoded with
    | .error error =>
      some (w, .answered (.backchannelLogout (.error (.ofLogoutTokenError error))))
    | .ok claims =>
      match LogoutToken.checkClaims env.parseStr claims i.now with
      | .error error =>
        some ({ w with clock := i.now },
          .answered (.backchannelLogout (.error (.ofLogoutTokenError error))))
      | .ok claims =>
        some ({ w with clock := i.now' }, .backchannelLogout (.record claims i.now'))
  | .record claims now =>
    match w.logoutJtis.record now claims.jti claims.replayUntil with
    | none => some (w, .answered (.backchannelLogout (.error .replayed)))
    | some jtis =>
      some ({ w with logoutJtis := jtis },
        .backchannelLogout (.endSessions (.revoke claims.target)))
  | .endSessions here =>
    (here.resume t w).map fun e =>
      match e with
      | (w, some here) => (w, .backchannelLogout (.endSessions here))
      | (w, none) => (w, .answered (.backchannelLogout (.ok ())))

/-- `revoke_user`, after the API key was checked. -/
def internalRevokeResume (w : World) (here : EndSessions) : Option (World × Task) :=
  (here.resume t w).map fun e =>
    match e with
    | (w, some here) => (w, .internalRevoke here)
    | (w, none) => (w, .answered .internalRevoke)

def Sweep.resume (w : World) : Sweep → World × Task
  | .sessions now =>
    ({ w with clock := i.now, sessions := w.sessions.sweepExpired now },
      .sweep (.logoutJtis i.now))
  | .logoutJtis now =>
    ({ w with
        logoutJtis := w.logoutJtis.sweepExpired now
        refreshLocks := w.refreshLocks.prune }, .answered .sweep)

/-- The code from the await a task stands at to the next, if what it awaits is there. -/
def Task.resume (w : World) : Task → Option (World × Task)
  | .proxied sessionId here => here.resume env t i sessionId w
  | .callback here => here.resume env t i w
  | .logout redirectUri here => some (logoutResume env redirectUri w here)
  | .backchannelLogout here => here.resume env t i w
  | .internalRevoke here => internalRevokeResume t w here
  | .sweep here => some (here.resume i w)
  | .answered _ => none
  | .dropped => none

/-- What arrives. -/
inductive Request where
  | proxied (sessionId : String)
  | callback (pending : Option PendingLogin) (returned : Returned) (previous : Option String)
  | logout (sessionId redirectUri : Option String)
  | backchannelLogout
  | internalRevoke (userId : Uuid)
  /-- The sweep's interval ticks. -/
  | sweep

/-- The code up to the first await. -/
def Request.start (now : DateTime) (w : World) : Request → World × Task
  | .proxied sessionId => (w, .proxied sessionId .getSession)
  | .callback pending returned previous =>
    match redeemable env.digest env.redirectUriAllowlist pending returned with
    | .error error => (w, .answered (.callback (.error error)))
    | .ok (pending, code) =>
      (w.call t (.authorizationCode code pending.verifier),
        .callback (.exchangeCode pending previous))
  | .logout none redirectUri =>
    (w, .answered (.logout none
      (redirectUri.filter (allowsRedirectUri env.redirectUriAllowlist))))
  | .logout (some sessionId) redirectUri => (w, .logout redirectUri (.takeSession sessionId))
  | .backchannelLogout => (w, .backchannelLogout .verifyLogoutToken)
  | .internalRevoke userId => (w, .internalRevoke (.revoke (.user userId)))
  | .sweep => ({ w with clock := now }, .sweep (.sessions now))

/-- A request's future is dropped, and what it owns with it. A task of bff's own is not. -/
def Task.drop (w : World) : Task → Option World
  | .proxied _ .getSession => some w
  | .proxied _ .acquire => some { w with refreshLocks := w.refreshLocks.cancel t }
  | .proxied _ _ => some (w.release t)
  | .callback _ => some w
  | .logout _ _ => some w
  | .backchannelLogout _ => some w
  | .internalRevoke _ => some w
  | .sweep _ => none
  | .answered _ => none
  | .dropped => none

end Services

/-! ### The system -/

inductive Event where
  /-- A request arrives, at `now`. -/
  | start (t : TaskId) (request : Request) (now : DateTime)
  /-- A task runs to its next await. -/
  | resume (t : TaskId) (i : Input)
  /-- A request is dropped. -/
  | drop (t : TaskId)
  /-- Hydra takes up the call of `t` and answers it. -/
  | hydra (t : TaskId) (now : DateTime) (effect : Effect) (answer : Answer)
  /-- The revocation task that `t` spawned runs. -/
  | spawned (t : TaskId)

/-- Whose event it is. -/
def Event.task : Event → TaskId
  | .start t _ _ | .resume t _ | .drop t | .hydra t _ _ _ | .spawned t => t

abbrev State := Threads World Task

/-- Nobody about. -/
def State.start (now : DateTime) : State := ⟨World.start now, fun _ => none⟩

/-- `now` is not before anything that happened. -/
def World.Timely (w : World) (now : DateTime) : Prop := w.clock ≤ now ∧ w.hydra.lastAt ≤ now

instance (w : World) (now : DateTime) : Decidable (w.Timely now) :=
  inferInstanceAs (Decidable (_ ∧ _))

def step (env : Env) (c : State) : Event → Option State
  | .start t request now =>
    if c.thread t = none ∧ c.shared.Timely now then
      let (w, task) := request.start env t now c.shared
      some (c.move t w (some task))
    else none
  | .resume t i =>
    match c.thread t with
    | none => none
    | some task =>
      if c.shared.Timely i.now ∧ i.now ≤ i.now' then
        (task.resume env t i c.shared).map fun e => c.move t e.1 (some e.2)
      else none
  | .drop t =>
    match c.thread t with
    | none => none
    | some task => (task.drop t c.shared).map fun w => c.move t w (some .dropped)
  | .hydra t now effect answer =>
    if c.shared.clock ≤ now then
      (c.shared.hydra.serve t now effect answer).map fun hydra =>
        ⟨{ c.shared with hydra := hydra }, c.thread⟩
    else none
  | .spawned t =>
    if c.shared.spawned t = [] then none else some ⟨c.shared.runSpawned t, c.thread⟩

/-! ### A configuration and some events, for the runs below -/

namespace Sample

/-- Thirty days of refresh token, one application. -/
def env : Env where
  refreshTtl := Duration.days 30
  redirectUriAllowlist := ["https://app.test/"]
  digest s := if s = "s" then
    [4, 58, 113, 135, 116, 197, 114, 189, 138, 37, 173, 190, 177, 191, 205, 92,
      2, 86, 174, 17, 206, 207, 159, 156, 63, 146, 93, 14, 82, 190, 175, 137]
    else []
  identity raw := if raw = "id" then some ⟨1, some "login"⟩ else none
  parseStr _ := none

/-- A token response with a new refresh token and 15 minutes of access token. -/
def tokens (access refresh : String) : Answer :=
  .ok ⟨200, none, .ok ⟨access, some refresh, some "id", some 900⟩⟩

/-- A run of a task's code at `now`. -/
def at' (now : DateTime) : Input := { now := now, now' := now }

/-- A login's callback up to the redeemed code. -/
def redeem (t : TaskId) (previous : Option String) (now : DateTime) (access refresh : String) :
    List Event :=
  [.start t (.callback (some ⟨"s", "v", "n", "https://app.test/"⟩) (.code "c" (some "s")) previous)
      now,
    .hydra t now (.granted (some refresh)) (tokens access refresh)]

/-- The rest of it, up to the stored session. -/
def save (t : TaskId) (id : String) (now : DateTime) : List Event :=
  [.resume t (at' now), .resume t { at' now with sessionId := id }, .resume t (at' now)]

/-- A whole login. -/
def login (t : TaskId) (id : String) (now : DateTime) (access refresh : String) : List Event :=
  redeem t none now access refresh ++ save t id now ++ [.resume t (at' now)]

/-- A proxied request up to its call to Hydra. -/
def refresh (t : TaskId) (id : String) (now : DateTime) : List Event :=
  [.start t (.proxied id) now, .resume t (at' now), .resume t (at' now), .resume t (at' now)]

/-- The rest of it, with a rotated refresh token. -/
def finish (t : TaskId) (now : DateTime) (access refresh : String) : List Event :=
  [.hydra t now (.granted (some refresh)) (tokens access refresh), .resume t (at' now),
    .resume t (at' now)]

end Sample

end Bff

end WeaveAuth
