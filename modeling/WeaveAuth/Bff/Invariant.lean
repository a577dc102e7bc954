import WeaveAuth.Bff.Guarantee
import WeaveAuth.Bff.SessionIndex
import WeaveAuth.ForMathlib.Transition

/-!
# What holds at any time

`Core` is what holds of the shared state, and `Standing` what holds of a task where it stands. A
step keeps `Core`, leads to a place whose `Standing` holds, and by its `Guarantee` leaves the
`Standing` of the others alone; so they hold throughout any run, whoever is dropped and whatever
Hydra answers.

The heart of it is `Refreshing`. A task that calls Hydra with a session's refresh token has the
session's turn, so what is stored is that session, until it is gone for good.

## Main results

* `inv_of_reaches`: `Core` and `Standing` hold in every state of every run

## How a proof about runs goes

An invariant of the whole system is stated for one task at a time, beside what is shared. A step of
another task is known by its `Guarantee` alone, so the stability of an assertion is one lemma about
`Guarantee`, and not one for each pair of services. A step of the task itself is a case analysis on
`Resumes`. `seenBy_of_step`, `seenFrom_of_step` and `seenTo_of_step` cut a step of the system down
to these cases, as seen by one task; the theorems about runs begin with one of the three.

## What is assumed

Of Hydra what `HydraServer.serve` asks of an event, and of the clock that it is not set back. No
hypothesis is on the order of the events, and dropping a request is an event like any other.
-/

namespace WeaveAuth

namespace Bff

/-! ### Whose a session is -/

section Genuine

variable (env : Env)

/-- Whom the id_token names that Hydra gave a login for its code. -/
def identityOf (w : World) (t : TaskId) : Option VerifiedIdToken :=
  match w.hydra.answer? t with
  | none => none
  | some answer =>
    match tokenRequest answer with
    | .error _ => none
    | .ok tokens => tokens.idToken.bind env.identity

/-- The session belongs to the id: its refresh token comes of the login that the id was saved by,
dies no earlier than the session says, and the login was the session's user's. -/
def Genuine (w : World) (id : String) (session : SessionData) : Prop :=
  ∃ issue ∈ w.hydra.issued, issue.token = session.refreshToken ∧
    issue.issuedAt + env.refreshTtl ≤ session.refreshExpiresAt ∧
    (id, issue.login) ∈ w.saved ∧
    identityOf env w issue.login = some ⟨session.userId, session.sid⟩

/-- The session that login `t` is about to save. -/
def Born (w : World) (t : TaskId) (session : SessionData) : Prop :=
  ∃ now, ⟨session.refreshToken, now, t⟩ ∈ w.hydra.issued ∧
    now + env.refreshTtl ≤ session.refreshExpiresAt ∧
    identityOf env w t = some ⟨session.userId, session.sid⟩

variable {env} {w w' : World} {t : TaskId} {id : String} {session : SessionData}

theorem HydraServer.Grows.answer? {h h' : HydraServer} (hg : h.Grows h') {answer : Answer}
    (ht : h.answer? t = some answer) : h'.answer? t = some answer := by
  obtain ⟨⟨grant, a⟩, hcall, ha⟩ := Option.bind_eq_some_iff.mp ht
  obtain rfl : a = some answer := ha
  rw [HydraServer.answer?, hg.answers t grant answer hcall]
  rfl

theorem identityOf_mono (h : w.hydra.Grows w'.hydra) {verified : VerifiedIdToken}
    (ht : identityOf env w t = some verified) : identityOf env w' t = some verified := by
  rw [identityOf] at ht ⊢
  split at ht
  · cases ht
  · next answer hanswer => rwa [h.answer? hanswer]

theorem Genuine.mono (h : Genuine env w id session) (g : Guarantee t w w') :
    Genuine env w' id session := by
  obtain ⟨issue, hissue, htoken, hexpiry, hsaved, hid⟩ := h
  exact ⟨issue, g.hydra.issued _ hissue, htoken, hexpiry, g.saved _ hsaved,
    identityOf_mono g.hydra hid⟩

theorem Born.mono {u : TaskId} (h : Born env w u session) (g : Guarantee t w w') :
    Born env w' u session := by
  obtain ⟨now, hissue, hexpiry, hid⟩ := h
  exact ⟨now, g.hydra.issued _ hissue, hexpiry, identityOf_mono g.hydra hid⟩

end Genuine

/-! ### The shared state -/

/-- The session ids: each drawn once, by a login that draws one, and saved by it if at all. -/
structure World.Ids (w : World) : Prop where
  saved_drawn : ∀ e ∈ w.saved, e ∈ w.drawn
  task_unique : ∀ id t u, (id, t) ∈ w.drawn → (id, u) ∈ w.drawn → t = u
  id_unique : ∀ id id' t, (id, t) ∈ w.drawn → (id', t) ∈ w.drawn → id = id'

structure Core (env : Env) (w : World) : Prop where
  indexed : w.sessions.Indexed
  locks : w.refreshLocks.Sound
  hydra : w.hydra.Sound
  ids : w.Ids
  genuine : ∀ id session, w.sessions.getSession id = some session → Genuine env w id session

theorem core_start (env : Env) (now : DateTime) : Core env (World.start now) where
  indexed := Sessions.indexed_empty
  locks := RefreshLocks.sound_empty
  hydra := HydraServer.sound_start now
  ids :=
    { saved_drawn := fun e he => by cases he
      task_unique := fun id t u h => by cases h
      id_unique := fun id id' t h => by cases h }
  genuine id session h := by
    simp [World.start, Sessions.getSession, Sessions.empty] at h

theorem Genuine.saved {env : Env} {w : World} {id : String} {session : SessionData}
    (h : Genuine env w id session) : ∃ t, (id, t) ∈ w.saved := by
  obtain ⟨issue, -, -, -, hsaved, -⟩ := h
  exact ⟨issue.login, hsaved⟩

/-! ### Where a task stands -/

section Standing

variable (env : Env) (t : TaskId) (w : World)

/-- The task has called Hydra with the session's refresh token. -/
structure Refreshing (id : String) (session : SessionData) : Prop where
  turn : w.refreshLocks.Holds t id
  call : ∃ answer, w.hydra.calls t = some ⟨.refreshToken session.refreshToken, answer⟩
  genuine : Genuine env w id session
  /-- Nobody but the task stores anything under the id. -/
  pinned : w.sessions.getSession id = none ∨ w.sessions.getSession id = some session

/-- And has made `data` of what Hydra answered. -/
structure Renewed (id : String) (session data : SessionData) : Prop where
  refreshing : Refreshing env t w id session
  answer : ∃ answer tokens now now',
    w.hydra.calls t = some ⟨.refreshToken session.refreshToken, some answer⟩ ∧
    tokenRequest answer = .ok tokens ∧ data = refreshed env.refreshTtl session tokens now now'
  genuine : Genuine env w id data

def Resolve.Standing (id : String) : Resolve → Prop
  | .getSession => w.refreshLocks.Idle t ∧ w.hydra.calls t = none
  | .acquire => w.refreshLocks.WaitsFor t id ∧ w.hydra.calls t = none ∧ ∃ u, (id, u) ∈ w.saved
  | .getSessionAgain =>
      w.refreshLocks.Holds t id ∧ w.hydra.calls t = none ∧ ∃ u, (id, u) ∈ w.saved
  | .refresh session => Refreshing env t w id session
  | .updateSession data => ∃ session, Renewed env t w id session data
  | .takeSession _ _ => ∃ session answer, Refreshing env t w id session ∧
      w.hydra.calls t = some ⟨.refreshToken session.refreshToken, some answer⟩ ∧
      answer.isRejected = true
  | .revoke refreshToken => ∃ session data, Renewed env t w id session data ∧
      w.sessions.getSession id = none ∧ refreshToken = data.refreshToken

def Complete.Standing : Complete → Prop
  | .exchangeCode _ _ => (∀ id, (id, t) ∉ w.drawn) ∧
      ∃ code verifier answer, w.hydra.calls t = some ⟨.authorizationCode code verifier, answer⟩
  | .verifyIdToken _ _ tokens idToken refreshToken => (∀ id, (id, t) ∉ w.drawn) ∧
      ∃ code verifier answer,
        w.hydra.calls t = some ⟨.authorizationCode code verifier, some answer⟩ ∧
        tokenRequest answer = .ok tokens ∧ tokens.idToken = some idToken ∧
        tokens.refreshToken = some refreshToken
  | .saveSession _ _ id data =>
      (id, t) ∈ w.drawn ∧ (∀ u, (id, u) ∉ w.saved) ∧ Born env w t data
  | _ => True

/-- A task that may have left tokens to a revocation task that has yet to run. -/
def Task.mayWait : Task → Bool
  | .callback (.revokeEvicted _ _ _) => true
  | .backchannelLogout (.endSessions .join) => true
  | .internalRevoke .join => true
  | .dropped => true
  | _ => false

def Task.Standing : Task → Prop
  | .proxied id here => here.Standing env t w id
  | .callback here => here.Standing env t w
  | _ => True

/-- Of a task that has yet to start, nothing has been seen. -/
structure Unused : Prop where
  idle : w.refreshLocks.Idle t
  calls : w.hydra.calls t = none
  drawn : ∀ id, (id, t) ∉ w.drawn

/-- What holds of task `t`, which stands at `o`. -/
def Standing (o : Option Task) : Prop :=
  match o with
  | none => Unused t w ∧ w.spawned t = []
  | some task => task.Standing env t w ∧ (task.mayWait = false → w.spawned t = [])

end Standing

/-! ### The steps of others -/

section Stable

variable {env : Env} {t u : TaskId} {w w' : World} {id : String} {session data : SessionData}

/-- What is stored under an id changes, if somebody else has its turn, only by going. -/
theorem Guarantee.pinned (g : Guarantee t w w') (hcore : Core env w) (hut : u ≠ t)
    (hturn : w.refreshLocks.Holds u id) (hsaved : ∃ v, (id, v) ∈ w.saved) :
    w'.sessions.getSession id = w.sessions.getSession id ∨ w'.sessions.getSession id = none := by
  cases g.store id with
  | same h => exact Or.inl h
  | removed h => exact Or.inr h
  | updated hturn' _ => exact absurd (hcore.locks.holds_unique hturn hturn') hut
  | saved hnew _ =>
    obtain ⟨v, hv⟩ := hsaved
    exact absurd hv (hnew v)

/-- An id that was saved and is gone stays gone. -/
theorem Guarantee.gone (g : Guarantee t w w') (hsaved : ∃ v, (id, v) ∈ w.saved)
    (hgone : w.sessions.getSession id = none) : w'.sessions.getSession id = none := by
  cases g.store id with
  | same h => rw [h, hgone]
  | removed h => exact h
  | updated _ hstored => exact absurd hgone hstored
  | saved hnew _ =>
    obtain ⟨v, hv⟩ := hsaved
    exact absurd hv (hnew v)

theorem HydraServer.Grows.call? {h h' : HydraServer} (hg : h.Grows h') {grant : Grant}
    (hcall : ∃ answer, h.calls u = some ⟨grant, answer⟩) :
    ∃ answer, h'.calls u = some ⟨grant, answer⟩ := by
  obtain ⟨_ | answer, hcall⟩ := hcall
  · exact hg.calls u grant hcall
  · exact ⟨_, hg.answers u grant answer hcall⟩

theorem Guarantee.not_drawn (g : Guarantee t w w') (hut : u ≠ t) (h : ∀ id, (id, u) ∉ w.drawn)
    (id : String) : (id, u) ∉ w'.drawn := fun hmem =>
  (g.drawn_of _ hmem).elim (h id) hut

theorem Refreshing.stable (g : Guarantee t w w') (hcore : Core env w) (hut : u ≠ t)
    (h : Refreshing env u w id session) : Refreshing env u w' id session where
  turn := (g.locks.holds_iff hut id).mpr h.turn
  call := g.hydra.call? h.call
  genuine := h.genuine.mono g
  pinned := by
    rcases g.pinned hcore hut h.turn h.genuine.saved with heq | hnone
    · rw [heq]
      exact h.pinned
    · exact Or.inl hnone

theorem Renewed.stable (g : Guarantee t w w') (hcore : Core env w) (hut : u ≠ t)
    (h : Renewed env u w id session data) : Renewed env u w' id session data where
  refreshing := h.refreshing.stable g hcore hut
  answer := by
    obtain ⟨answer, tokens, now, now', hcall, hrest⟩ := h.answer
    exact ⟨answer, tokens, now, now', g.hydra.answers _ _ _ hcall, hrest⟩
  genuine := h.genuine.mono g

theorem Resolve.Standing.stable (g : Guarantee t w w') (hcore : Core env w) (hut : u ≠ t)
    {here : Resolve} (h : here.Standing env u w id) : here.Standing env u w' id := by
  cases here with
  | getSession => exact ⟨(g.locks.idle_iff hut).mpr h.1, g.calls u hut h.2⟩
  | acquire =>
    obtain ⟨hwaits, hcalls, v, hsaved⟩ := h
    exact ⟨g.locks.waitsFor hut hwaits, g.calls u hut hcalls, v, g.saved _ hsaved⟩
  | getSessionAgain =>
    obtain ⟨hturn, hcalls, v, hsaved⟩ := h
    exact ⟨(g.locks.holds_iff hut id).mpr hturn, g.calls u hut hcalls, v, g.saved _ hsaved⟩
  | refresh session => exact Refreshing.stable g hcore hut h
  | updateSession data =>
    obtain ⟨session, h⟩ := h
    exact ⟨session, h.stable g hcore hut⟩
  | takeSession endpoint status =>
    obtain ⟨session, answer, h, hcall, hrejected⟩ := h
    exact ⟨session, answer, h.stable g hcore hut, g.hydra.answers _ _ _ hcall, hrejected⟩
  | revoke refreshToken =>
    obtain ⟨session, data, h, hgone, heq⟩ := h
    exact ⟨session, data, h.stable g hcore hut, g.gone h.genuine.saved hgone, heq⟩

theorem Complete.Standing.stable (g : Guarantee t w w') (hcore : Core env w) (hut : u ≠ t)
    {here : Complete} (h : here.Standing env u w) : here.Standing env u w' := by
  cases here with
  | exchangeCode pending previous =>
    obtain ⟨hdrawn, code, verifier, hcall⟩ := h
    exact ⟨g.not_drawn hut hdrawn, code, verifier, g.hydra.call? hcall⟩
  | verifyIdToken pending previous tokens idToken refreshToken =>
    obtain ⟨hdrawn, code, verifier, answer, hcall, hrest⟩ := h
    exact ⟨g.not_drawn hut hdrawn, code, verifier, answer, g.hydra.answers _ _ _ hcall, hrest⟩
  | saveSession pending previous id data =>
    obtain ⟨hdrawn, hnew, hborn⟩ := h
    refine ⟨g.drawn _ hdrawn, fun v hv => ?_, hborn.mono g⟩
    rcases g.saved_of _ hv with hold | ⟨rfl, hdrawn'⟩
    · exact hnew v hold
    · exact hut (hcore.ids.task_unique id u v hdrawn hdrawn')
  | revokeEvicted pending previous id => trivial
  | endSession pending id here => trivial

/-- **A step leaves what holds of the others alone.** -/
theorem Standing.stable (g : Guarantee t w w') (hcore : Core env w) (hut : u ≠ t) {o : Option Task}
    (h : Standing env u w o) : Standing env u w' o := by
  have hspawned : w.spawned u = [] → w'.spawned u = [] := fun hnil =>
    (g.spawned u hut).elim (fun heq => by rw [heq, hnil]) id
  cases o with
  | none =>
    obtain ⟨hunused, hnil⟩ := h
    exact ⟨⟨(g.locks.idle_iff hut).mpr hunused.idle, g.calls u hut hunused.calls,
      g.not_drawn hut hunused.drawn⟩, hspawned hnil⟩
  | some task =>
    obtain ⟨htask, hnil⟩ := h
    refine ⟨?_, fun hwait => hspawned (hnil hwait)⟩
    cases task with
    | proxied id here => exact Resolve.Standing.stable g hcore hut htask
    | callback here => exact Complete.Standing.stable g hcore hut htask
    | _ => trivial

end Stable

/-! ### A task's own steps -/

section Own

variable {env : Env} {t : TaskId} {i : Input} {w w' : World} {task task' : Task}

/-- **A step keeps to its guarantee.** -/
theorem Resumes.guarantee (h : Resumes env t i w task w' task')
    (hown : Standing env t w (some task)) (htimely : w.Timely i.now) (hnow : i.now ≤ i.now') :
    Guarantee t w w' := by
  have hclock := htimely.1
  have hclock' := hclock.trans hnow
  cases h with
  | noSession | rejected | sessionGone | exchangeFailed | noIdToken | noRefreshToken | exchanged
  | idTokenRejected | loggedIn | endPrevious | undecoded | replayed | joinBackchannel
  | joinInternal => exact .refl t w
  | ended | invalid => exact .tick hclock
  | fresh | tokens | valid => exact .tick hclock'
  | acquire => exact (Guarantee.tick hclock').withLocks (RefreshLocks.frame_acquire _ _ _)
  | lockOwned hlock => exact (Guarantee.refl t w).withLocks (RefreshLocks.frame_lockOwned hlock)
  | noSessionAgain | unavailable => exact (Guarantee.refl t w).release
  | freshAgain => exact (Guarantee.tick hclock).release
  | @refresh id session hget hstale =>
    refine (Guarantee.tick hclock).call rfl hown.1.2.1 fun token htoken => ?_
    cases htoken
    exact ⟨id, session, hget, rfl, hown.1.1⟩
  | updateSession hupdate =>
    obtain ⟨⟨session, hrenewed⟩, -⟩ := hown
    exact (Guarantee.updateSession hrenewed.refreshing.turn hupdate).release
  | takeRefused => exact (Guarantee.takeSession _).release
  | revokeLate => exact (Guarantee.revoke _).release
  | verified => exact .draw hclock
  | saveSession =>
    obtain ⟨⟨hdrawn, hnew, -⟩, -⟩ := hown
    exact (Guarantee.saveSession hnew hdrawn).spawn _
  | noPrevious | takePrevious | noLogout | takeLogout => exact .takeSession _
  | revokePrevious | revokeLogout => exact .revoke _
  | recorded => exact { Guarantee.refl t w with }
  | endBackchannel | endInternal => exact (Guarantee.removeAll _).spawn _
  | sweepSessions => exact { Guarantee.removeAll (t := t) (w := w) _ with clock := hclock }
  | sweepJtis =>
    exact { (Guarantee.refl t w).withLocks (RefreshLocks.frame_prune w.refreshLocks t) with }

/-- The session made of Hydra's answer belongs to the id. -/
theorem Refreshing.genuine_refreshed {id : String} {session : SessionData}
    (h : Refreshing env t w id session) (hcore : Core env w) {answer : Answer} {tokens : TokenSet}
    (hcall : w.hydra.calls t = some ⟨.refreshToken session.refreshToken, some answer⟩)
    (htokens : tokenRequest answer = .ok tokens) {now now' : DateTime}
    (hnow : w.hydra.lastAt ≤ now) :
    Genuine env w id (refreshed env.refreshTtl session tokens now now') := by
  obtain ⟨issue, hissue, htoken, hexpiry, hsaved, hid⟩ := h.genuine
  obtain ⟨token, hanswer, hsame, -⟩ := tokens_of_tokenRequest htokens
  cases hnew : tokens.refreshToken with
  | none =>
    obtain ⟨hkept, hkept'⟩ := refreshed_kept env.refreshTtl session tokens now now' hnew
    exact ⟨issue, hissue, by rw [hkept, htoken], by rw [hkept']; exact hexpiry, hsaved, hid⟩
  | some new =>
    obtain ⟨hrotated, hexpiry'⟩ := refreshed_rotated env.refreshTtl session tokens now now' hnew
    have hrotation := hcore.hydra.refreshed t _ answer token new hcall hanswer (by rw [hsame, hnew])
    obtain ⟨issue', hissue', htoken', issuedAt, hnew'⟩ := hcore.hydra.chained _ hrotation
    obtain rfl := hcore.hydra.issued_unique issue hissue issue' hissue' (by rw [htoken, htoken'])
    refine ⟨⟨new, issuedAt, issue.login⟩, hnew', hrotated.symm, ?_, hsaved, hid⟩
    have hle : issuedAt ≤ now := le_trans (hcore.hydra.issued_le _ hnew') hnow
    rw [hexpiry']
    exact add_le_add_left hle _

theorem HydraServer.answer?_of_call {h : HydraServer} {grant : Grant} {answer : Answer}
    (hcall : h.calls t = some ⟨grant, some answer⟩) : h.answer? t = some answer := by
  rw [HydraServer.answer?, hcall]
  rfl

/-- The new session is the login's. -/
theorem born_newSession (hcore : Core env w) {code verifier : String} {answer : Answer}
    {tokens : TokenSet} {idToken refreshToken : String} {verified : VerifiedIdToken}
    (hcall : w.hydra.calls t = some ⟨.authorizationCode code verifier, some answer⟩)
    (htokens : tokenRequest answer = .ok tokens) (hid : tokens.idToken = some idToken)
    (hrefresh : tokens.refreshToken = some refreshToken)
    (hverified : env.identity idToken = some verified) {now : DateTime}
    (hnow : w.hydra.lastAt ≤ now) :
    Born env w t (newSession env.refreshTtl tokens refreshToken idToken verified now) := by
  obtain ⟨token, hanswer, hsame, -⟩ := tokens_of_tokenRequest htokens
  obtain ⟨issuedAt, hissue⟩ := hcore.hydra.exchanged t code verifier answer token refreshToken hcall
    hanswer (by rw [hsame, hrefresh])
  refine ⟨issuedAt, hissue, add_le_add_left (le_trans (hcore.hydra.issued_le _ hissue) hnow) _, ?_⟩
  rw [identityOf, HydraServer.answer?_of_call hcall]
  dsimp only
  rw [htokens]
  dsimp only
  rw [hid]
  exact hverified

/-- Where nothing was stored, what was known of the store is. -/
theorem Core.keep (hcore : Core env w) (g : Guarantee t w w')
    (hstore : ∀ id session, w'.sessions.getSession id = some session →
      w.sessions.getSession id = some session)
    (hindexed : w'.sessions.Indexed) (hlocks : w'.refreshLocks.Sound) (hhydra : w'.hydra.Sound)
    (hids : w'.Ids) : Core env w' :=
  ⟨hindexed, hlocks, hhydra, hids, fun id session hget =>
    (hcore.genuine id session (hstore id session hget)).mono g⟩

theorem getSession_of_removeAll {s : Sessions} {ids : List String} (id : String)
    (session : SessionData) (h : (s.removeAll ids).2.getSession id = some session) :
    s.getSession id = some session := by
  rw [Sessions.get_removeAll] at h
  split at h
  · cases h
  · exact h

theorem getSession_of_takeSession {s : Sessions} {sessionId : String} (id : String)
    (session : SessionData) (h : (s.takeSession sessionId).2.getSession id = some session) :
    s.getSession id = some session := by
  rw [Sessions.takeSession, Sessions.get_remove] at h
  split at h
  · cases h
  · exact h

/-- What a step stores. -/
theorem Resumes.stored (h : Resumes env t i w task w' task') {id : String}
    {session : SessionData} (hget : w'.sessions.getSession id = some session) :
    w.sessions.getSession id = some session ∨
      task = .proxied id (.updateSession session) ∨
      ∃ pending previous, task = .callback (.saveSession pending previous id session) := by
  cases h with
  | @updateSession id' data sessions hupdate =>
    replace hget := ((Sessions.get_updateSession hupdate).2 id).symm.trans hget
    split at hget
    · next hid =>
      cases hget
      exact Or.inr (Or.inl (by rw [hid]))
    · exact Or.inl hget
  | @saveSession pending previous id' data =>
    replace hget := (Sessions.get_saveSession _ _ _ _).symm.trans hget
    split at hget
    · cases hget
    · split at hget
      · next hid =>
        cases hget
        exact Or.inr (Or.inr ⟨pending, previous, by rw [hid]⟩)
      · exact Or.inl hget
  | takeRefused | noPrevious | takePrevious | noLogout | takeLogout =>
    exact Or.inl (getSession_of_takeSession _ _ hget)
  | endBackchannel | endInternal | sweepSessions =>
    exact Or.inl (getSession_of_removeAll _ _ hget)
  | _ => exact Or.inl hget

/-- Drawing an id that was never drawn, for a task that never drew one. -/
theorem World.Ids.draw (h : w.Ids) {sessionId : String} (hid : ∀ e ∈ w.drawn, e.1 ≠ sessionId)
    (htask : ∀ id, (id, t) ∉ w.drawn) {now : DateTime} :
    World.Ids { w with clock := now, drawn := (sessionId, t) :: w.drawn } where
  saved_drawn e he := List.mem_cons_of_mem _ (h.saved_drawn e he)
  task_unique id u v hu hv := by
    rcases List.mem_cons.mp hu with heq | hu <;> rcases List.mem_cons.mp hv with heq' | hv
    · rw [(Prod.mk.inj heq).2, (Prod.mk.inj heq').2]
    · exact absurd (Prod.mk.inj heq).1 (hid _ hv)
    · exact absurd (Prod.mk.inj heq').1 (hid _ hu)
    · exact h.task_unique id u v hu hv
  id_unique id id' u hu hu' := by
    rcases List.mem_cons.mp hu with heq | hu <;> rcases List.mem_cons.mp hu' with heq' | hu'
    · rw [(Prod.mk.inj heq).1, (Prod.mk.inj heq').1]
    · exact absurd ((Prod.mk.inj heq).2 ▸ hu') (htask id')
    · exact absurd ((Prod.mk.inj heq').2 ▸ hu) (htask id)
    · exact h.id_unique id id' u hu hu'

theorem World.Ids.save (h : w.Ids) {e : String × TaskId} (he : e ∈ w.drawn) :
    World.Ids { w with saved := e :: w.saved } :=
  { h with saved_drawn := List.forall_mem_cons.mpr ⟨he, h.saved_drawn⟩ }

/-- What a login saved is its own. -/
theorem genuine_saveSession (hcore : Core env w) {id : String} {data : SessionData}
    (hborn : Born env w t data) (g : Guarantee t w w') (hsaved : (id, t) ∈ w'.saved)
    (hsessions : w'.sessions = (w.sessions.saveSession id data).2) (id' : String)
    (session : SessionData) (hget : w'.sessions.getSession id' = some session) :
    Genuine env w' id' session := by
  rw [hsessions, Sessions.get_saveSession] at hget
  split at hget
  · cases hget
  · split at hget
    · next hid =>
      cases hget
      obtain ⟨now, hissue, hexpiry, hidentity⟩ := hborn.mono g
      exact ⟨_, hissue, rfl, hexpiry, hid ▸ hsaved, hidentity⟩
    · exact (hcore.genuine id' session hget).mono g

/-- **A step keeps what holds of the shared state.** -/
theorem Resumes.core (h : Resumes env t i w task w' task') (hcore : Core env w)
    (hown : Standing env t w (some task)) (htimely : w.Timely i.now) (hnow : i.now ≤ i.now') :
    Core env w' := by
  have g := h.guarantee hown htimely hnow
  have hindexed := hcore.indexed
  have hlocks := hcore.locks
  have hhydra := hcore.hydra
  have hids := hcore.ids
  cases h with
  | noSession | rejected | sessionGone | exchangeFailed | noIdToken | noRefreshToken | exchanged
  | idTokenRejected | loggedIn | endPrevious | undecoded | replayed | joinBackchannel
  | joinInternal => exact hcore
  | ended | invalid | fresh | tokens | valid | recorded =>
    exact hcore.keep g (fun _ _ => id) hindexed hlocks hhydra { hids with }
  | acquire => exact hcore.keep g (fun _ _ => id) hindexed (hlocks.acquire _ _) hhydra { hids with }
  | lockOwned hlock =>
    exact hcore.keep g (fun _ _ => id) hindexed (hlocks.lockOwned hlock) hhydra { hids with }
  | noSessionAgain | unavailable | freshAgain =>
    exact hcore.keep g (fun _ _ => id) hindexed (hlocks.dropGuard _) hhydra { hids with }
  | refresh =>
    exact hcore.keep g (fun _ _ => id) hindexed hlocks (hhydra.call hown.1.2.1 _) { hids with }
  | updateSession hupdate =>
    obtain ⟨⟨session, hrenewed⟩, -⟩ := hown
    refine ⟨hindexed.updateSession hupdate, hlocks.dropGuard _, hhydra, { hids with },
      fun id' session' hget => ?_⟩
    replace hget := ((Sessions.get_updateSession hupdate).2 id').symm.trans hget
    split at hget
    · next hid =>
      cases hget
      exact hid ▸ hrenewed.genuine.mono g
    · exact (hcore.genuine id' session' hget).mono g
  | takeRefused =>
    exact hcore.keep g getSession_of_takeSession (hindexed.remove _) (hlocks.dropGuard _) hhydra
      { hids with }
  | revokeLate =>
    exact hcore.keep g (fun _ _ => id) hindexed (hlocks.dropGuard _) (hhydra.revoke _) { hids with }
  | verified hid hdraw =>
    obtain ⟨⟨hdrawn, -⟩, -⟩ := hown
    exact hcore.keep g (fun _ _ => id) hindexed hlocks hhydra (hids.draw hdraw hdrawn)
  | saveSession =>
    obtain ⟨⟨hdrawn, hnew, hborn⟩, -⟩ := hown
    exact ⟨hindexed.saveSession _ _, hlocks, hhydra, { hids.save hdrawn with },
      genuine_saveSession hcore hborn g List.mem_cons_self rfl⟩
  | noPrevious | takePrevious | noLogout | takeLogout =>
    exact hcore.keep g getSession_of_takeSession (hindexed.remove _) hlocks hhydra { hids with }
  | revokePrevious | revokeLogout =>
    exact hcore.keep g (fun _ _ => id) hindexed hlocks (hhydra.revoke _) { hids with }
  | endBackchannel | endInternal =>
    exact hcore.keep g getSession_of_removeAll (hindexed.revoke _) hlocks hhydra { hids with }
  | sweepSessions =>
    exact hcore.keep g getSession_of_removeAll (hindexed.sweepExpired _) hlocks hhydra { hids with }
  | sweepJtis =>
    exact hcore.keep g (fun _ _ => id) hindexed hlocks.prune hhydra { hids with }

theorem HydraServer.call_of_answer {h : HydraServer} {grant : Grant} {answer : Answer}
    (hcall : ∃ a, h.calls t = some ⟨grant, a⟩) (hanswer : h.answer? t = some answer) :
    h.calls t = some ⟨grant, some answer⟩ := by
  obtain ⟨a, hcall⟩ := hcall
  rw [HydraServer.answer?, hcall] at hanswer
  obtain rfl : a = some answer := hanswer
  exact hcall

/-- **A step leads to where the task stands rightly.** -/
theorem Resumes.standing (h : Resumes env t i w task w' task') (hcore : Core env w)
    (hown : Standing env t w (some task)) (htimely : w.Timely i.now) (hnow : i.now ≤ i.now') :
    Standing env t w' (some task') := by
  have g := h.guarantee hown htimely hnow
  cases h with
  | noSession | ended | fresh | noSessionAgain | freshAgain | unavailable | updateSession
  | takeRefused | revokeLate | exchangeFailed | noIdToken | noRefreshToken | idTokenRejected
  | noPrevious | takePrevious | revokePrevious | noLogout | takeLogout | revokeLogout
  | undecoded | invalid | valid | replayed | recorded | sweepSessions | sweepJtis =>
    exact ⟨trivial, fun _ => hown.2 rfl⟩
  | loggedIn hjoin | endPrevious hjoin | joinBackchannel hjoin | joinInternal hjoin =>
    exact ⟨trivial, fun _ => hjoin⟩
  | endBackchannel | endInternal | saveSession => exact ⟨trivial, fun hwait => by cases hwait⟩
  | @acquire id session hget hlive hstale =>
    exact ⟨⟨RefreshLocks.waitsFor_acquire hown.1.1 _, hown.1.2,
      (hcore.genuine id session hget).saved⟩, hown.2⟩
  | lockOwned hlock => exact ⟨⟨RefreshLocks.holds_lockOwned hown.1.1 hlock, hown.1.2⟩, hown.2⟩
  | @refresh id session hget hstale =>
    refine ⟨⟨hown.1.1, ⟨none, ?_⟩, (hcore.genuine id session hget).mono g, Or.inr hget⟩, hown.2⟩
    simp [World.call, HydraServer.call]
  | @tokens id session answer tokens hanswer htokens =>
    have hrefreshing : Refreshing env t w id session := hown.1
    have hcall := HydraServer.call_of_answer hrefreshing.call hanswer
    have hgenuine : Genuine env w id (refreshed env.refreshTtl session tokens i.now i.now') :=
      hrefreshing.genuine_refreshed hcore hcall htokens htimely.2
    refine ⟨⟨session, ?_, ⟨answer, tokens, i.now, i.now', hcall, htokens, rfl⟩,
      hgenuine.mono g⟩, hown.2⟩
    exact { hrefreshing with genuine := hrefreshing.genuine.mono g }
  | @rejected id session answer endpoint status hanswer htokens =>
    have hrefreshing : Refreshing env t w id session := hown.1
    refine ⟨⟨session, answer, hrefreshing,
      HydraServer.call_of_answer hrefreshing.call hanswer, ?_⟩, hown.2⟩
    rw [Answer.isRejected, htokens]
  | sessionGone hupdate =>
    obtain ⟨⟨session, hrenewed⟩, hspawned⟩ := hown
    exact ⟨⟨session, _, hrenewed, Sessions.updateSession_eq_none.mp hupdate, rfl⟩, hspawned⟩
  | exchanged hanswer htokens hid hrefresh =>
    obtain ⟨⟨hdrawn, code, verifier, hcall⟩, hspawned⟩ := hown
    exact ⟨⟨hdrawn, code, verifier, _, HydraServer.call_of_answer hcall hanswer, htokens, hid,
      hrefresh⟩, hspawned⟩
  | verified hidentity hdraw =>
    obtain ⟨⟨hdrawn, code, verifier, answer, hcall, htokens, hid, hrefresh⟩, hspawned⟩ := hown
    refine ⟨⟨List.mem_cons_self, fun u hu => ?_, ?_⟩, hspawned⟩
    · exact hdraw _ (hcore.ids.saved_drawn _ hu) rfl
    · exact (born_newSession hcore hcall htokens hid hrefresh hidentity htimely.2).mono g

end Own

/-! ### Runs -/

section Runs

variable {env : Env} {t : TaskId} {w w' : World}

theorem Starts.guarantee {request : Request} {now : DateTime} {task : Task}
    (h : Starts env t now w request w' task) (hunused : Unused t w) (htimely : w.Timely now) :
    Guarantee t w w' := by
  cases h with
  | proxied | refused | nobody | logout | backchannelLogout | internalRevoke => exact .refl t w
  | exchange => exact (Guarantee.refl t w).call rfl hunused.calls fun _ hgrant => by cases hgrant
  | sweep => exact .tick htimely.1

theorem Starts.core {request : Request} {now : DateTime} {task : Task}
    (h : Starts env t now w request w' task) (hcore : Core env w) (hunused : Unused t w)
    (htimely : w.Timely now) : Core env w' := by
  have g := h.guarantee hunused htimely
  cases h with
  | proxied | refused | nobody | logout | backchannelLogout | internalRevoke => exact hcore
  | exchange =>
    exact hcore.keep g (fun _ _ => id) hcore.indexed hcore.locks
      (hcore.hydra.call hunused.calls _) { hcore.ids with }
  | sweep =>
    exact hcore.keep g (fun _ _ => id) hcore.indexed hcore.locks hcore.hydra { hcore.ids with }

theorem Starts.standing {request : Request} {now : DateTime} {task : Task}
    (h : Starts env t now w request w' task) (hunused : Unused t w) (hspawned : w.spawned t = []) :
    Standing env t w' (some task) := by
  cases h with
  | refused | nobody | logout | backchannelLogout | internalRevoke | sweep =>
    exact ⟨trivial, fun _ => hspawned⟩
  | proxied id => exact ⟨⟨hunused.idle, hunused.calls⟩, fun _ => hspawned⟩
  | @exchange cookie returned previous pending code =>
    refine ⟨⟨hunused.drawn, code, pending.verifier, none, ?_⟩, fun _ => hspawned⟩
    simp [World.call, HydraServer.call]

theorem Drops.guarantee {task : Task} (h : Drops t w task w') : Guarantee t w w' := by
  cases h with
  | cancel => exact (Guarantee.refl t w).withLocks (RefreshLocks.frame_cancel _ _)
  | release => exact (Guarantee.refl t w).release
  | nothing => exact .refl t w

theorem Drops.core {task : Task} (h : Drops t w task w') (hcore : Core env w) : Core env w' := by
  have g := h.guarantee
  cases h with
  | cancel =>
    exact hcore.keep g (fun _ _ => id) hcore.indexed (hcore.locks.cancel _) hcore.hydra
      { hcore.ids with }
  | release =>
    exact hcore.keep g (fun _ _ => id) hcore.indexed (hcore.locks.dropGuard _) hcore.hydra
      { hcore.ids with }
  | nothing => exact hcore

theorem core_serve (hcore : Core env w) {now : DateTime} {effect : Effect} {answer : Answer}
    {hydra : HydraServer} (h : w.hydra.serve t now effect answer = some hydra) :
    Core env { w with hydra := hydra } :=
  hcore.keep (Guarantee.serve (t := t) h) (fun _ _ => id) hcore.indexed hcore.locks
    (hcore.hydra.serve h) { hcore.ids with }

theorem core_runSpawned (hcore : Core env w) (t : TaskId) : Core env (w.runSpawned t) :=
  hcore.keep (Guarantee.runSpawned (t := t) t) (fun _ _ => id) hcore.indexed hcore.locks
    (hcore.hydra.revoke _) { hcore.ids with }

/-- What holds of a system in every run. -/
abbrev Inv (env : Env) (c : State) : Prop :=
  c.Holds (Core env) fun t o w => Standing env t w o

theorem inv_start (env : Env) (now : DateTime) : Inv env (State.start now) where
  shared := core_start env now
  thread t :=
    ⟨{ idle := fun k hk => by cases hk
       calls := rfl
       drawn := fun id h => by cases h }, rfl⟩

/-- The steps of no task leave what holds of every task alone. -/
theorem Inv.environment {c : State} (h : Inv env c) (hcore : Core env w')
    (g : ∀ t, Guarantee t c.shared w') : Inv env ⟨w', c.thread⟩ where
  shared := hcore
  thread t := Standing.stable (g (t + 1)) h.shared (Nat.ne_of_lt (Nat.lt_succ_self t)) (h.thread t)

theorem inv_steps {c c' : State} {e : Event} (h : Inv env c) (hs : Steps env c e c') :
    Inv env c' := by
  cases hs with
  | @start t request now w task hthread htimely hstart =>
    obtain ⟨hunused, hspawned⟩ : Unused t c.shared ∧ c.shared.spawned t = [] := by
      have ht := h.thread t
      rwa [hthread] at ht
    have g := hstart.guarantee hunused htimely
    exact Threads.Holds.move (hstart.core h.shared hunused htimely)
      (hstart.standing hunused hspawned)
      fun u hu => (h.thread u).stable g h.shared hu
  | @resume t i task task' w hthread htimely hnow hresumes =>
    have hown : Standing env t c.shared (some task) := hthread ▸ h.thread t
    have g := hresumes.guarantee hown htimely hnow
    exact Threads.Holds.move (hresumes.core h.shared hown htimely hnow)
      (hresumes.standing h.shared hown htimely hnow)
      fun u hu => (h.thread u).stable g h.shared hu
  | drop hthread hdrops =>
    exact Threads.Holds.move (hdrops.core h.shared)
      ⟨trivial, fun hwait => by cases hwait⟩
      fun u hu => (h.thread u).stable hdrops.guarantee h.shared hu
  | hydra hnow hserve =>
    exact h.environment (core_serve h.shared hserve) fun _ => .serve hserve
  | spawned => exact h.environment (core_runSpawned h.shared _) fun _ => .runSpawned _

theorem inv_step {c c' : State} {e : Event} (h : Inv env c) (hs : step env c e = some c') :
    Inv env c' := inv_steps h (steps_of_step hs)

open Transition in
/-- **What holds at any time.** -/
theorem inv_of_reaches {ok : State → Event → Prop} {now : DateTime} {c : State}
    (h : Reaches (step env) ok (State.start now) c) : Inv env c :=
  h.invariant (inv_start env now) fun _ _ _ hinv _ hs => inv_step hinv hs

/-! ### A step as one task sees it -/

/-- What the steps of tasks do to Hydra. -/
theorem Resumes.quiet {i : Input} {task task' : Task} (h : Resumes env t i w task w' task')
    (hown : Standing env t w (some task)) : w.hydra.Quiet w'.hydra := by
  cases h with
  | refresh => exact HydraServer.quiet_call hown.1.2.1 _
  | _ => exact { HydraServer.Quiet.refl w.hydra with }

theorem Starts.quiet {request : Request} {now : DateTime} {task : Task}
    (h : Starts env t now w request w' task) (hunused : Unused t w) : w.hydra.Quiet w'.hydra := by
  cases h with
  | exchange => exact HydraServer.quiet_call hunused.calls _
  | _ => exact HydraServer.Quiet.refl w.hydra

theorem Drops.quiet {task : Task} (h : Drops t w task w') : w.hydra.Quiet w'.hydra := by
  cases h <;> exact HydraServer.Quiet.refl w.hydra

/-- An event is task `t`'s own, or Hydra's, or some other's that keeps to its guarantee. -/
inductive SeenBy (env : Env) (c : State) (t : TaskId) : Event → State → Prop where
  | other {e : Event} {c' : State} {u : TaskId} (htu : t ≠ u)
      (g : Guarantee u c.shared c'.shared) (hquiet : c.shared.hydra.Quiet c'.shared.hydra)
      (hthread : c'.thread t = c.thread t) : SeenBy env c t e c'
  | hydra {u : TaskId} {now : DateTime} {effect : Effect} {answer : Answer} {hydra : HydraServer}
      (h : c.shared.hydra.serve u now effect answer = some hydra) :
      SeenBy env c t (.hydra u now effect answer) ⟨{ c.shared with hydra := hydra }, c.thread⟩
  | start {request : Request} {now : DateTime} {w : World} {task : Task}
      (hthread : c.thread t = none) (htimely : c.shared.Timely now)
      (h : Starts env t now c.shared request w task) :
      SeenBy env c t (.start t request now) (c.move t w (some task))
  | resume {i : Input} {task task' : Task} {w : World}
      (hthread : c.thread t = some task) (htimely : c.shared.Timely i.now) (hnow : i.now ≤ i.now')
      (h : Resumes env t i c.shared task w task') :
      SeenBy env c t (.resume t i) (c.move t w (some task'))
  | drop {task : Task} {w : World} (hthread : c.thread t = some task)
      (h : Drops t c.shared task w) : SeenBy env c t (.drop t) (c.move t w (some .dropped))

theorem Inv.standing {c : State} (h : Inv env c) {task : Task} (ht : c.thread t = some task) :
    Standing env t c.shared (some task) := ht ▸ h.thread t

theorem Inv.unused {c : State} (h : Inv env c) (ht : c.thread t = none) : Unused t c.shared := by
  have hstanding := h.thread t
  rw [ht] at hstanding
  exact hstanding.1

theorem seenBy_of_step {c c' : State} {e : Event} (hinv : Inv env c)
    (hs : step env c e = some c') (t : TaskId) : SeenBy env c t e c' := by
  cases steps_of_step hs with
  | @start u request now w task hthread htimely h =>
    by_cases hut : t = u
    · subst hut
      exact .start hthread htimely h
    · exact .other hut (h.guarantee (hinv.unused hthread) htimely)
        (h.quiet (hinv.unused hthread)) (c.thread_move_ne hut _ _)
  | @resume u i task task' w hthread htimely hnow h =>
    by_cases hut : t = u
    · subst hut
      exact .resume hthread htimely hnow h
    · exact .other hut (h.guarantee (hinv.standing hthread) htimely hnow)
        (h.quiet (hinv.standing hthread)) (c.thread_move_ne hut _ _)
  | @drop u task w hthread h =>
    by_cases hut : t = u
    · subst hut
      exact .drop hthread h
    · exact .other hut h.guarantee h.quiet (c.thread_move_ne hut _ _)
  | hydra hnow h => exact .hydra h
  | spawned =>
    exact .other (Nat.ne_of_lt (Nat.lt_succ_self t)) (.runSpawned _)
      { HydraServer.Quiet.refl c.shared.hydra with } rfl

/-- The same, of a task that stands at `task`. -/
inductive SeenFrom (env : Env) (c : State) (t : TaskId) (task : Task) : Event → State → Prop where
  | other {e : Event} {c' : State} {u : TaskId} (htu : t ≠ u)
      (g : Guarantee u c.shared c'.shared) (hquiet : c.shared.hydra.Quiet c'.shared.hydra)
      (hthread : c'.thread t = some task) : SeenFrom env c t task e c'
  | hydra {u : TaskId} {now : DateTime} {effect : Effect} {answer : Answer} {hydra : HydraServer}
      (h : c.shared.hydra.serve u now effect answer = some hydra) :
      SeenFrom env c t task (.hydra u now effect answer)
        ⟨{ c.shared with hydra := hydra }, c.thread⟩
  | resume {i : Input} {task' : Task} {w : World} (htimely : c.shared.Timely i.now)
      (hnow : i.now ≤ i.now') (h : Resumes env t i c.shared task w task') :
      SeenFrom env c t task (.resume t i) (c.move t w (some task'))
  | drop {w : World} (h : Drops t c.shared task w) :
      SeenFrom env c t task (.drop t) (c.move t w (some .dropped))

theorem seenFrom_of_step {c c' : State} {e : Event} {task : Task} (hinv : Inv env c)
    (hthread : c.thread t = some task) (hs : step env c e = some c') :
    SeenFrom env c t task e c' := by
  cases seenBy_of_step hinv hs t with
  | other htu g hquiet hsame => exact .other htu g hquiet (hsame.trans hthread)
  | hydra h => exact .hydra h
  | start hnone =>
    rw [hthread] at hnone
    cases hnone
  | resume hthread' htimely hnow h =>
    obtain rfl := Option.some.inj (hthread.symm.trans hthread')
    exact .resume htimely hnow h
  | drop hthread' h =>
    obtain rfl := Option.some.inj (hthread.symm.trans hthread')
    exact .drop h

/-- And of one that stands at `task'` afterwards. -/
inductive SeenTo (env : Env) (c : State) (t : TaskId) : Task → Event → State → Prop where
  | other {task' : Task} {e : Event} {c' : State} {u : TaskId} (htu : t ≠ u)
      (g : Guarantee u c.shared c'.shared) (hquiet : c.shared.hydra.Quiet c'.shared.hydra)
      (hthread : c.thread t = some task') : SeenTo env c t task' e c'
  | hydra {task' : Task} {u : TaskId} {now : DateTime} {effect : Effect} {answer : Answer}
      {hydra : HydraServer} (h : c.shared.hydra.serve u now effect answer = some hydra)
      (hthread : c.thread t = some task') :
      SeenTo env c t task' (.hydra u now effect answer)
        ⟨{ c.shared with hydra := hydra }, c.thread⟩
  | start {task' : Task} {request : Request} {now : DateTime} {w : World}
      (hthread : c.thread t = none) (htimely : c.shared.Timely now)
      (h : Starts env t now c.shared request w task') :
      SeenTo env c t task' (.start t request now) (c.move t w (some task'))
  | resume {i : Input} {task task' : Task} {w : World} (hthread : c.thread t = some task)
      (htimely : c.shared.Timely i.now) (hnow : i.now ≤ i.now')
      (h : Resumes env t i c.shared task w task') :
      SeenTo env c t task' (.resume t i) (c.move t w (some task'))
  | drop {task : Task} {w : World} (hthread : c.thread t = some task)
      (h : Drops t c.shared task w) : SeenTo env c t .dropped (.drop t) (c.move t w (some .dropped))

theorem seenTo_of_step {c c' : State} {e : Event} {task' : Task} (hinv : Inv env c)
    (hs : step env c e = some c') (hthread' : c'.thread t = some task') :
    SeenTo env c t task' e c' := by
  cases seenBy_of_step hinv hs t with
  | other htu g hquiet hsame => exact .other htu g hquiet (hsame.symm.trans hthread')
  | hydra h => exact .hydra h hthread'
  | start hthread htimely h =>
    rw [Threads.thread_move_self, Option.some.injEq] at hthread'
    exact hthread' ▸ .start hthread htimely h
  | resume hthread htimely hnow h =>
    rw [Threads.thread_move_self, Option.some.injEq] at hthread'
    exact hthread' ▸ .resume hthread htimely hnow h
  | drop hthread h =>
    rw [Threads.thread_move_self, Option.some.injEq] at hthread'
    exact hthread' ▸ .drop hthread h

/-- Every event keeps to some task's guarantee. -/
theorem guarantee_of_step {c c' : State} {e : Event} (hinv : Inv env c)
    (hs : step env c e = some c') : ∃ u, Guarantee u c.shared c'.shared := by
  cases steps_of_step hs with
  | start hthread htimely h => exact ⟨_, h.guarantee (hinv.unused hthread) htimely⟩
  | resume hthread htimely hnow h => exact ⟨_, h.guarantee (hinv.standing hthread) htimely hnow⟩
  | drop hthread h => exact ⟨_, h.guarantee⟩
  | hydra hnow h => exact ⟨0, .serve h⟩
  | spawned => exact ⟨0, .runSpawned _⟩

end Runs

end Bff

end WeaveAuth
