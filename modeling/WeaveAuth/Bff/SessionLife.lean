import Mathlib.Data.List.Induction
import WeaveAuth.Bff.Invariant

/-!
# A session's life

Each refresh makes a whole new `SessionData` of what Hydra handed out and of the copy that was read
before the call. Here a run's sessions are told from what the run's tasks read: one login, then the
answers to refreshes, each with the readings of the clock that followed it.

## Main definitions

* `LoginRead`, `RenewalRead`: what a login and a refresh make a session of
* `lived`: the session that comes of them

## Main results

* `session_life`: every stored session has lived so, and later ones go on from there
* `kept_lived`: what such a session has kept of the login, and what of the answers

## The history of a session

`Lived` is a history, one step of the run after another, and its index is the list of the refreshes
so far: it can only be made longer at the end, so the order of the list is the order of the run.
Each refresh is tied to the task that read it and to the session that this task had read before.

`lived` says what a login and such a list come to. It is computed from the answers alone, so that
two histories with the same answers end in the same session.

## Scope

Every run, with dropped requests and lost answers: a refresh that is dropped before it has stored
anything is no part of the history. The clock is not set back.
-/

namespace WeaveAuth

namespace Bff

open Transition

variable {env : Env} {t u : TaskId} {w w' : World} {c c' s d d' : State} {id : String}
  {session data : SessionData}

/-! ### What a session is made of -/

/-- What a login made its session of, and when. -/
structure LoginRead where
  tokens : TokenSet
  refreshToken : String
  idToken : String
  verified : VerifiedIdToken
  now : DateTime

/-- What a refresh made its session of: the first reading is for the refresh token's expiry. -/
structure RenewalRead where
  tokens : TokenSet
  now : DateTime
  now' : DateTime

def LoginRead.stores (env : Env) (login : LoginRead) : SessionData :=
  newSession env.refreshTtl login.tokens login.refreshToken login.idToken login.verified login.now

def RenewalRead.stores (env : Env) (session : SessionData) (renewal : RenewalRead) : SessionData :=
  refreshed env.refreshTtl session renewal.tokens renewal.now renewal.now'

/-- The session after the login and these refreshes. -/
def lived (env : Env) (login : LoginRead) (renewals : List RenewalRead) : SessionData :=
  renewals.foldl (RenewalRead.stores env) (login.stores env)

/-- On the way to `d` the callback `t` made the session of its login, with the id that it drew. -/
def LoginRead.By (env : Env) (s d : State) (t : TaskId) (id : String) (login : LoginRead) : Prop :=
  ∃ (c c' : State) (i : Input) (pending : PendingLogin) (previous : Option String)
      (answer : Answer), Reaches (step env) Any s c ∧
    c.thread t = some (.callback
      (.verifyIdToken pending previous login.tokens login.idToken login.refreshToken)) ∧
    c.shared.hydra.answer? t = some answer ∧ tokenRequest answer = .ok login.tokens ∧
    login.tokens.idToken = some login.idToken ∧
    login.tokens.refreshToken = some login.refreshToken ∧
    env.identity login.idToken = some login.verified ∧
    step env c (.resume t i) = some c' ∧ i.sessionId = id ∧ i.now = login.now ∧
    Reaches (step env) Any c' d

/-- On the way to `d` the request `t` read Hydra's answer to a refresh of the id's session, which it
had read before. -/
def RenewalRead.By (env : Env) (s d : State) (t : TaskId) (id : String) (session : SessionData)
    (renewal : RenewalRead) : Prop :=
  ∃ (c c' : State) (i : Input) (answer : Answer),
    Reaches (step env) Any s c ∧ c.thread t = some (.proxied id (.refresh session)) ∧
    c.shared.hydra.answer? t = some answer ∧ tokenRequest answer = .ok renewal.tokens ∧
    step env c (.resume t i) = some c' ∧ i.now = renewal.now ∧ i.now' = renewal.now' ∧
    Reaches (step env) Any c' d

theorem LoginRead.By.tail {login : LoginRead} {e : Event} (h : login.By env s d t id)
    (hs : step env d e = some d') : login.By env s d' t id := by
  obtain ⟨c, c', i, pending, previous, answer, hc, hthread, hanswer, htokens, hid, hrefresh,
    hidentity, hstep, hsessionId, hnow, hd⟩ := h
  exact ⟨c, c', i, pending, previous, answer, hc, hthread, hanswer, htokens, hid, hrefresh,
    hidentity, hstep, hsessionId, hnow, hd.tail trivial hs⟩

theorem RenewalRead.By.tail {renewal : RenewalRead} {e : Event}
    (h : RenewalRead.By env s d t id session renewal) (hs : step env d e = some d') :
    RenewalRead.By env s d' t id session renewal := by
  obtain ⟨c, c', i, answer, hc, hthread, hanswer, htokens, hstep, hnow, hnow', hd⟩ := h
  exact ⟨c, c', i, answer, hc, hthread, hanswer, htokens, hstep, hnow, hnow', hd.tail trivial hs⟩

/-! ### What a session has kept -/

/-- The refresh token, and the reading of the clock at the last answer that carried one. -/
def lastRefreshToken (login : LoginRead) (renewals : List RenewalRead) : String × DateTime :=
  renewals.foldl (fun last renewal =>
    match renewal.tokens.refreshToken with
    | some rotated => (rotated, renewal.now)
    | none => last) (login.refreshToken, login.now)

/-- The reading of the clock that followed the last answer. -/
def lastRead (login : LoginRead) (renewals : List RenewalRead) : DateTime :=
  renewals.foldl (fun _ renewal => renewal.now') login.now

/-- What a session has kept of its login, and what of the answers since. -/
structure KeptOf (env : Env) (login : LoginRead) (renewals : List RenewalRead)
    (session : SessionData) : Prop where
  userId : session.userId = login.verified.userId
  sid : session.sid = login.verified.sid
  idToken : session.idToken = login.idToken
  createdAt : session.createdAt = login.now
  refresh : session.refreshToken = (lastRefreshToken login renewals).1 ∧
    session.refreshExpiresAt = (lastRefreshToken login renewals).2 + env.refreshTtl
  expiry : lastRead login renewals + Duration.seconds 1 ≤ session.expiresAt ∧
    session.expiresAt ≤ lastRead login renewals + Duration.seconds 86400
  ends : session.endsAt ≤ session.createdAt + Duration.days 30

/-- Hydra's `expires_in` is taken if it is between a second and a day. -/
def TokenSet.Usable (tokens : TokenSet) : Prop :=
  Duration.seconds 1 ≤ tokens.expiresIn ∧ tokens.expiresIn ≤ Duration.seconds 86400

theorem usable_of_tokenRequest {answer : Answer} {tokens : TokenSet}
    (h : tokenRequest answer = .ok tokens) : tokens.Usable := by
  rw [tokenRequest.eq_def] at h
  split at h
  · cases h
  · split at h
    · cases h
    · split at h
      · cases h
      · split at h
        · cases h
        · next seconds hseconds =>
          cases h
          obtain ⟨-, hrange⟩ := Option.filter_eq_some_iff.mp hseconds
          obtain ⟨hlow, hhigh⟩ := Bool.and_eq_true_iff.mp hrange
          have hlow : 1 ≤ seconds := of_decide_eq_true hlow
          have hhigh : seconds ≤ 86400 := of_decide_eq_true hhigh
          constructor
          · show 1 * 1000000000 ≤ seconds * 1000000000
            omega
          · show seconds * 1000000000 ≤ 86400 * 1000000000
            omega

/-- **What a session keeps over its life.** -/
theorem kept_lived {login : LoginRead} (hlogin : login.tokens.Usable)
    {renewals : List RenewalRead} (hrenewals : ∀ renewal ∈ renewals, renewal.tokens.Usable) :
    KeptOf env login renewals (lived env login renewals) := by
  induction renewals using List.reverseRecOn with
  | nil =>
    exact {
      userId := rfl
      sid := rfl
      idToken := rfl
      createdAt := rfl
      refresh := ⟨rfl, rfl⟩
      expiry := ⟨add_le_add_right hlogin.1 _, add_le_add_right hlogin.2 _⟩
      ends := min_le_right _ _ }
  | append_singleton renewals renewal ih =>
    have hbefore := ih fun r hr => hrenewals r (List.mem_append_left _ hr)
    have husable := hrenewals renewal (List.mem_append_right _ (List.mem_singleton_self _))
    have hlived : lived env login (renewals ++ [renewal]) =
        renewal.stores env (lived env login renewals) := by
      rw [lived, List.foldl_append]
      rfl
    have hread : lastRead login (renewals ++ [renewal]) = renewal.now' := by
      rw [lastRead, List.foldl_append]
      rfl
    rw [hlived]
    exact {
      userId := hbefore.userId
      sid := hbefore.sid
      idToken := hbefore.idToken
      createdAt := hbefore.createdAt
      refresh := by
        rw [lastRefreshToken, List.foldl_append]
        simp only [List.foldl_cons, List.foldl_nil]
        cases hrotated : renewal.tokens.refreshToken with
        | some rotated => exact refreshed_rotated _ _ _ _ _ hrotated
        | none =>
          obtain ⟨htoken, hexpiry⟩ := refreshed_kept env.refreshTtl (lived env login renewals)
            renewal.tokens renewal.now renewal.now' hrotated
          exact ⟨htoken.trans hbefore.refresh.1, hexpiry.trans hbefore.refresh.2⟩
      expiry := by
        rw [hread]
        exact ⟨add_le_add_right husable.1 _, add_le_add_right husable.2 _⟩
      ends := min_le_right _ _ }

/-- The refresh token and the reading change together or not at all. -/
theorem lastRefreshToken_append (login : LoginRead) (renewals more : List RenewalRead) :
    lastRefreshToken login (renewals ++ more) = lastRefreshToken login renewals ∨
      ∃ renewal ∈ more,
        renewal.tokens.refreshToken = some (lastRefreshToken login (renewals ++ more)).1 ∧
          (lastRefreshToken login (renewals ++ more)).2 = renewal.now := by
  induction more using List.reverseRecOn with
  | nil => exact Or.inl (by rw [List.append_nil])
  | append_singleton more renewal ih =>
    have hstep : lastRefreshToken login (renewals ++ (more ++ [renewal])) =
        match renewal.tokens.refreshToken with
        | some rotated => (rotated, renewal.now)
        | none => lastRefreshToken login (renewals ++ more) := by
      rw [← List.append_assoc, lastRefreshToken, List.foldl_append]
      rfl
    rw [hstep]
    cases hrotated : renewal.tokens.refreshToken with
    | some rotated =>
      exact Or.inr ⟨renewal, List.mem_append_right _ (List.mem_singleton_self _), hrotated, rfl⟩
    | none =>
      obtain heq | ⟨before, hmem, htoken, hread⟩ := ih
      · exact Or.inl heq
      · exact Or.inr ⟨before, List.mem_append_left _ hmem, htoken, hread⟩

/-! ### What is about to be stored -/

/-- What a task is about to store comes of what it has read. -/
def Task.Read (env : Env) (s d : State) (t : TaskId) : Task → Prop
  | .proxied id (.updateSession data) => ∃ session renewal,
      RenewalRead.By env s d t id session renewal ∧ data = renewal.stores env session ∧
        (d.shared.sessions.getSession id = none ∨ d.shared.sessions.getSession id = some session)
  | .callback (.saveSession _ _ id data) => ∃ login,
      LoginRead.By env s d t id login ∧ data = login.stores env
  | _ => True

theorem Resumes.read {i : Input} {task task' : Task} (hs : Reaches (step env) Any s d)
    (hinv : Inv env d) (hthread : d.thread t = some task)
    (h : Resumes env t i d.shared task w' task')
    (hstep : step env d (.resume t i) = some (d.move t w' (some task'))) :
    task'.Read env s (d.move t w' (some task')) t := by
  cases h with
  | @tokens id session answer tokens hanswer htokens =>
    refine ⟨session, ⟨tokens, i.now, i.now'⟩, ?_, rfl, ?_⟩
    · exact ⟨d, _, i, answer, hs, hthread, hanswer, htokens, hstep, rfl, rfl, .refl⟩
    · have hrefreshing : Refreshing env t d.shared id session := (hinv.standing hthread).1
      exact hrefreshing.pinned
  | @verified pending previous tokens idToken refreshToken verified hidentity hdraw =>
    obtain ⟨⟨-, code, verifier, answer, hcall, htokens, hid, hrefresh⟩, -⟩ :=
      hinv.standing hthread
    have hanswer : d.shared.hydra.answer? t = some answer := by rw [HydraServer.answer?, hcall]; rfl
    exact ⟨⟨tokens, refreshToken, idToken, verified, i.now⟩, ⟨d, _, i, pending, previous, answer,
      hs, hthread, hanswer, htokens, hid, hrefresh, hidentity, hstep, rfl, rfl, .refl⟩, rfl⟩
  | _ => trivial

theorem Task.Read.tail {task : Task} {e : Event} (h : task.Read env s d t)
    (hs : step env d e = some d')
    (hpinned : ∀ id data, task = .proxied id (.updateSession data) →
      d'.shared.sessions.getSession id = d.shared.sessions.getSession id ∨
        d'.shared.sessions.getSession id = none) : task.Read env s d' t := by
  cases task with
  | proxied id here =>
    cases here with
    | updateSession data =>
      obtain ⟨session, renewal, hby, hdata, hstored⟩ := h
      refine ⟨session, renewal, hby.tail hs, hdata, ?_⟩
      obtain heq | hgone := hpinned id data rfl
      · rwa [heq]
      · exact Or.inl hgone
    | _ => trivial
  | callback here =>
    cases here with
    | saveSession pending previous id data =>
      obtain ⟨login, hby, hdata⟩ := h
      exact ⟨login, hby.tail hs, hdata⟩
    | _ => trivial
  | _ => trivial

theorem Task.Read.of_starts {request : Request} {now : DateTime} {task : Task}
    (h : Starts env t now w request w' task) : task.Read env s d t := by
  cases h <;> trivial

/-- Every task stores what it has read. -/
theorem read_step {e : Event} (hs : Reaches (step env) Any s d) (hinv : Inv env d)
    (h : ∀ t task, d.thread t = some task → task.Read env s d t)
    (hstep : step env d e = some d') :
    ∀ t task, d'.thread t = some task → task.Read env s d' t := by
  intro t task hthread'
  cases seenTo_of_step hinv hstep hthread' with
  | other htu g hquiet hthread =>
    refine (h t task hthread).tail hstep ?_
    rintro id data rfl
    obtain ⟨⟨session, hrenewed⟩, -⟩ := hinv.standing hthread
    exact g.pinned hinv.shared htu hrenewed.refreshing.turn hrenewed.refreshing.genuine.saved
  | hydra hserve hthread =>
    exact (h t task hthread).tail hstep fun _ _ _ => Or.inl rfl
  | start hthread htimely hstart => exact .of_starts hstart
  | resume hthread htimely hnow hresumes => exact hresumes.read hs hinv hthread hstep
  | drop => trivial

/-! ### What is stored -/

/-- What a step leaves under an id: what there was, what the refresh that takes the step made of
that, or, where nothing was ever saved, what the login that takes it made. -/
inductive StoredFor (env : Env) (s d d' : State) (id : String) : Event → SessionData → Prop
  | kept {e : Event} {session : SessionData}
      (hbefore : d.shared.sessions.getSession id = some session) :
      StoredFor env s d d' id e session
  | renewed {u : TaskId} {i : Input} {before : SessionData} {renewal : RenewalRead}
      (hbefore : d.shared.sessions.getSession id = some before)
      (hthread : d.thread u = some (.proxied id (.updateSession (renewal.stores env before))))
      (hby : RenewalRead.By env s d u id before renewal) :
      StoredFor env s d d' id (.resume u i) (renewal.stores env before)
  | saved {t : TaskId} {i : Input} {login : LoginRead} {pending : PendingLogin}
      {previous : Option String} (hnew : ∀ u, (id, u) ∉ d.shared.saved)
      (hthread : d.thread t =
        some (.callback (.saveSession pending previous id (login.stores env))))
      (hsaved : (id, t) ∈ d'.shared.saved) (hby : LoginRead.By env s d t id login) :
      StoredFor env s d d' id (.resume t i) (login.stores env)

theorem storedFor_step {e : Event} (hinv : Inv env d)
    (h : ∀ t task, d.thread t = some task → task.Read env s d t)
    (hstep : step env d e = some d') {after : SessionData}
    (hafter : d'.shared.sessions.getSession id = some after) :
    StoredFor env s d d' id e after := by
  cases steps_of_step hstep with
  | start hthread htimely hstart =>
    rw [Threads.shared_move, hstart.sessions] at hafter
    exact .kept hafter
  | drop hthread hdrops =>
    rw [Threads.shared_move, hdrops.sessions] at hafter
    exact .kept hafter
  | hydra | spawned => exact .kept hafter
  | @resume t i task task' w hthread htimely hnow hresumes =>
    obtain hkept | rfl | ⟨pending, previous, rfl⟩ := hresumes.stored hafter
    · exact .kept hkept
    · obtain ⟨session, renewal, hby, rfl, hstored⟩ := h t _ hthread
      obtain hnone | hsome := hstored
      · cases hresumes with
        | sessionGone hupdate =>
          rw [Threads.shared_move, hnone] at hafter
          cases hafter
        | updateSession hupdate => exact absurd hnone (Sessions.get_updateSession hupdate).1
      · exact .renewed hsome hthread hby
    · obtain ⟨login, hby, rfl⟩ := h t _ hthread
      obtain ⟨⟨-, hnew, -⟩, -⟩ := hinv.standing hthread
      cases hresumes with
      | saveSession => exact .saved hnew hthread List.mem_cons_self hby

/-! ### Runs -/

/-- The history of the id's session, step by step: the login saves it where nothing was saved
before, other steps keep it, and each refresh stores what it made of the session stored until then.
The refreshes stand in the order of the run. -/
inductive Lived (env : Env) (s : State) (id : String) (login : LoginRead) :
    State → List RenewalRead → SessionData → Prop
  | saved {d d' : State} {t : TaskId} {i : Input} {pending : PendingLogin}
      {previous : Option String} (hnew : ∀ u, (id, u) ∉ d.shared.saved)
      (hthread : d.thread t =
        some (.callback (.saveSession pending previous id (login.stores env))))
      (hby : LoginRead.By env s d t id login) (hstep : step env d (.resume t i) = some d')
      (hsaved : (id, t) ∈ d'.shared.saved)
      (hstored : d'.shared.sessions.getSession id = some (login.stores env)) :
      Lived env s id login d' [] (login.stores env)
  | kept {d d' : State} {e : Event} {renewals : List RenewalRead} {session : SessionData}
      (h : Lived env s id login d renewals session) (hstep : step env d e = some d')
      (hstored : d'.shared.sessions.getSession id = some session) :
      Lived env s id login d' renewals session
  | renewed {d d' : State} {u : TaskId} {i : Input} {renewals : List RenewalRead}
      {session : SessionData} {renewal : RenewalRead}
      (h : Lived env s id login d renewals session)
      (hthread : d.thread u = some (.proxied id (.updateSession (renewal.stores env session))))
      (hby : RenewalRead.By env s d u id session renewal)
      (hstep : step env d (.resume u i) = some d')
      (hstored : d'.shared.sessions.getSession id = some (renewal.stores env session)) :
      Lived env s id login d' (renewals ++ [renewal]) (renewal.stores env session)

variable {login : LoginRead} {renewals : List RenewalRead}

theorem Lived.stored (h : Lived env s id login d renewals session) :
    d.shared.sessions.getSession id = some session := by
  cases h with
  | saved hnew hthread hby hstep hsaved hstored => exact hstored
  | kept h hstep hstored => exact hstored
  | renewed h hthread hby hstep hstored => exact hstored

theorem Lived.eq (h : Lived env s id login d renewals session) :
    session = lived env login renewals := by
  induction h with
  | saved => rfl
  | kept h hstep hstored ih => exact ih
  | renewed h hthread hby hstep hstored ih =>
    rw [ih, lived, lived, List.foldl_append]
    rfl

theorem Lived.login_usable (h : Lived env s id login d renewals session) :
    login.tokens.Usable := by
  induction h with
  | saved hnew hthread hby hstep hsaved hstored =>
    obtain ⟨c, c', i, pending, previous, answer, -, -, -, htokens, -⟩ := hby
    exact usable_of_tokenRequest htokens
  | kept h hstep hstored ih => exact ih
  | renewed h hthread hby hstep hstored ih => exact ih

theorem Lived.renewal_usable (h : Lived env s id login d renewals session) :
    ∀ renewal ∈ renewals, renewal.tokens.Usable := by
  induction h with
  | saved =>
    intro renewal hmem
    cases hmem
  | kept h hstep hstored ih => exact ih
  | renewed h hthread hby hstep hstored ih =>
    intro renewal hmem
    obtain hmem | hmem := List.mem_append.mp hmem
    · exact ih renewal hmem
    · obtain ⟨c, c', i, answer, -, -, -, htokens, -⟩ := hby
      rw [List.mem_singleton.mp hmem]
      exact usable_of_tokenRequest htokens

theorem Lived.kept_of (h : Lived env s id login d renewals session) :
    KeptOf env login renewals session := by
  rw [h.eq]
  exact kept_lived h.login_usable h.renewal_usable

/-- What is known of a run as far as it has come: everything that tasks are about to store and all
that is stored has been read. -/
structure Told (env : Env) (s d : State) : Prop where
  inv : Inv env d
  read : ∀ t task, d.thread t = some task → task.Read env s d t
  lived : ∀ id session, d.shared.sessions.getSession id = some session →
    ∃ login renewals, Lived env s id login d renewals session

theorem told_start (env : Env) (now : DateTime) :
    Told env (State.start now) (State.start now) where
  inv := inv_start env now
  read t task h := by cases h
  lived id session h := by
    simp [State.start, World.start, Sessions.getSession, Sessions.empty] at h

theorem Told.step {e : Event} (h : Told env s d) (hs : Reaches (step env) Any s d)
    (hstep : Bff.step env d e = some d') : Told env s d' where
  inv := inv_step h.inv hstep
  read := read_step hs h.inv h.read hstep
  lived id after hafter := by
    cases storedFor_step h.inv h.read hstep hafter with
    | kept hbefore =>
      obtain ⟨login, renewals, hlived⟩ := h.lived id after hbefore
      exact ⟨login, renewals, hlived.kept hstep hafter⟩
    | @renewed u i before renewal hbefore hthread hby =>
      obtain ⟨login, renewals, hlived⟩ := h.lived id before hbefore
      exact ⟨login, renewals ++ [renewal], hlived.renewed hthread hby hstep hafter⟩
    | @saved t i login pending previous hnew hthread hsaved hby =>
      exact ⟨login, [], .saved hnew hthread hby hstep hsaved hafter⟩

theorem told_of_reaches {now : DateTime} (hd : Reaches (step env) Any (State.start now) d) :
    Told env (State.start now) d := by
  induction hd with
  | refl => exact told_start env now
  | tail hd _ hstep ih => exact ih.step hd hstep

/-- A later session goes on from an earlier one. -/
theorem lived_of_reaches {now : DateTime} {first : SessionData}
    (hs : Reaches (step env) Any (State.start now) s)
    (hlived : Lived env (State.start now) id login s renewals first)
    (hd : Reaches (step env) Any s d) {last : SessionData}
    (hlast : d.shared.sessions.getSession id = some last) :
    ∃ more, Lived env (State.start now) id login d (renewals ++ more) last := by
  induction hd generalizing last with
  | refl =>
    obtain rfl : first = last := Option.some.inj (hlived.stored.symm.trans hlast)
    exact ⟨[], by rwa [List.append_nil]⟩
  | @tail d d' e hsd _ hstep ih =>
    have htold := told_of_reaches (hs.trans hsd)
    cases storedFor_step htold.inv htold.read hstep hlast with
    | kept hbefore =>
      obtain ⟨more, hmore⟩ := ih hbefore
      exact ⟨more, hmore.kept hstep hlast⟩
    | @renewed u i before renewal hbefore hthread hby =>
      obtain ⟨more, hmore⟩ := ih hbefore
      refine ⟨more ++ [renewal], ?_⟩
      rw [← List.append_assoc]
      exact hmore.renewed hthread hby hstep hlast
    | saved hnew =>
      -- Nobody saves under an id again.
      obtain ⟨v, hsaved⟩ := ((inv_of_reaches hs).shared.genuine id first hlived.stored).saved
      have hkept := hsd.invariant (P := fun d => Inv env d ∧ (id, v) ∈ d.shared.saved)
        ⟨inv_of_reaches hs, hsaved⟩ fun c e c' hP _ hs => by
          obtain ⟨w, g⟩ := guarantee_of_step hP.1 hs
          exact ⟨inv_step hP.1 hs, g.saved _ hP.2⟩
      exact absurd hkept.2 (hnew v)

/-- The refresh token and its expiry change together or not at all. -/
theorem refresh_of_kept {login : LoginRead} {renewals more : List RenewalRead}
    {first last : SessionData} (hfirst : KeptOf env login renewals first)
    (hlast : KeptOf env login (renewals ++ more) last) :
    last.refreshToken = first.refreshToken ∧ last.refreshExpiresAt = first.refreshExpiresAt ∨
      ∃ renewal ∈ more, renewal.tokens.refreshToken = some last.refreshToken ∧
        last.refreshExpiresAt = renewal.now + env.refreshTtl := by
  obtain ⟨htoken, hexpiry⟩ := hlast.refresh
  obtain heq | ⟨renewal, hmem, hrotated, hread⟩ := lastRefreshToken_append login renewals more
  · rw [heq] at htoken hexpiry
    exact Or.inl ⟨htoken.trans hfirst.refresh.1.symm, hexpiry.trans hfirst.refresh.2.symm⟩
  · exact Or.inr ⟨renewal, hmem, by rw [hrotated, htoken], by rw [hexpiry, hread]⟩

/-- **What a session keeps over its life.** A session stored under an id comes of the login that
saved it and of answers to refreshes of it, and one stored there later goes on from it with the
answers since. User, `sid`, id_token and time are the login's; the refresh token and its expiry are
of the last answer that carried one; the access token's expiry is a second to a day after the clock
was read on the last answer; and it ends 30 days after the login at the latest. -/
theorem session_life {now : DateTime} {first last : SessionData}
    (hs : Reaches (step env) Any (State.start now) s) (hd : Reaches (step env) Any s d)
    (hfirst : s.shared.sessions.getSession id = some first)
    (hlast : d.shared.sessions.getSession id = some last) : ∃ login renewals more,
    Lived env (State.start now) id login s renewals first ∧ KeptOf env login renewals first ∧
      Lived env (State.start now) id login d (renewals ++ more) last ∧
      KeptOf env login (renewals ++ more) last ∧
      (last.refreshToken = first.refreshToken ∧ last.refreshExpiresAt = first.refreshExpiresAt ∨
        ∃ renewal ∈ more, renewal.tokens.refreshToken = some last.refreshToken ∧
          last.refreshExpiresAt = renewal.now + env.refreshTtl) := by
  obtain ⟨login, renewals, hlived⟩ := (told_of_reaches hs).lived id first hfirst
  obtain ⟨more, hmore⟩ := lived_of_reaches hs hlived hd hlast
  exact ⟨login, renewals, more, hlived, hlived.kept_of, hmore, hmore.kept_of,
    refresh_of_kept hlived.kept_of hmore.kept_of⟩

/-- A session that is refreshed a quarter of an hour after its login. -/
theorem session_life_refreshed : ∃ s d first last,
    s.shared.sessions.getSession "a" = some first ∧ first.refreshToken = "refresh" ∧
      d.shared.sessions.getSession "a" = some last ∧ last.refreshToken = "rotated" ∧
      ∃ login renewals more, Lived Sample.env (State.start 0) "a" login s renewals first ∧
        Lived Sample.env (State.start 0) "a" login d (renewals ++ more) last ∧
        KeptOf Sample.env login (renewals ++ more) last := by
  obtain ⟨s, hrun, hs, hfirst⟩ := exists_run
    (fun c : State => decide ((c.shared.sessions.getSession "a").map SessionData.refreshToken =
      some "refresh"))
    (by decide : (run (step Sample.env) (State.start 0)
      (Sample.login 0 "a" 0 "access" "refresh")).any _ = true)
  obtain ⟨d, -, -, hd, hlast⟩ := exists_run_append
    (fun c : State => decide ((c.shared.sessions.getSession "a").map SessionData.refreshToken =
      some "rotated")) hrun
    (by decide : (run (step Sample.env) (State.start 0)
      (Sample.login 0 "a" 0 "access" "refresh" ++ (Sample.refresh 1 "a" 900000000000 ++
        Sample.finish 1 900000000000 "access'" "rotated"))).any _ = true)
  obtain ⟨first, hfirst, htoken⟩ := Option.map_eq_some_iff.mp (of_decide_eq_true hfirst)
  obtain ⟨last, hlast, htoken'⟩ := Option.map_eq_some_iff.mp (of_decide_eq_true hlast)
  obtain ⟨login, renewals, more, hlived, -, hmore, hkept, -⟩ := session_life hs hd hfirst hlast
  exact ⟨s, d, first, last, hfirst, htoken, hlast, htoken', login, renewals, more, hlived, hmore,
    hkept⟩

end Bff

end WeaveAuth
