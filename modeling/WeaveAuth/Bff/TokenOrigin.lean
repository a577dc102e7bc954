import WeaveAuth.Bff.SingleFlight

/-!
# Whose token a request gets

A request names its session by the id in its cookie, and goes on with the session's access token.
Whatever else the system does meanwhile, that token is one that Hydra handed out to the login that
the id was drawn by: for its code, or for a refresh token that came of it. So who has an id acts
as the user that login was verified to be, and as nobody else.

It takes an invariant of everything stored, and of what the callbacks are about to store.

## Main results

* `backed_of_reaches`: what is stored under an id came of the login that saved it
* `token_isolation`

## Scope

Every run and every drop point; the clock is not set back. Of Hydra it takes that an answer it gives
to a call is for that call, which is what a connection is for. Which user stands behind a login is
what its verified id_token says, and is not followed any further here: see `LoginProtocol`.
-/

namespace WeaveAuth

namespace Bff

open Transition

variable {env : Env} {t u : TaskId} {i : Input} {w w' : World} {id token : String}

/-! ### Where a token comes from -/

/-- Hydra handed out the access token to the login: for its code, or for a refresh token of the
chain that began with it. -/
def HydraServer.HandedOut (h : HydraServer) (login : TaskId) (token : String) : Prop :=
  ∃ t grant answer tokens, h.calls t = some ⟨grant, some answer⟩ ∧
    tokenRequest answer = .ok tokens ∧ tokens.accessToken = token ∧
    ((∃ code verifier, grant = .authorizationCode code verifier) ∧ t = login ∨
      ∃ issue ∈ h.issued, grant = .refreshToken issue.token ∧ issue.login = login)

/-- The token came of the login that saved the id, whose user is known. -/
def ComesOf (env : Env) (w : World) (id token : String) : Prop :=
  ∃ login verified, (id, login) ∈ w.saved ∧ identityOf env w login = some verified ∧
    w.hydra.HandedOut login token

theorem HydraServer.HandedOut.mono {h h' : HydraServer} {login : TaskId}
    (hout : h.HandedOut login token) (hgrows : h.Grows h') : h'.HandedOut login token := by
  obtain ⟨t, grant, answer, tokens, hcall, htokens, htoken, horigin⟩ := hout
  refine ⟨t, grant, answer, tokens, hgrows.answers t grant answer hcall, htokens, htoken, ?_⟩
  exact horigin.imp_right fun ⟨issue, hissue, hrest⟩ => ⟨issue, hgrows.issued issue hissue, hrest⟩

theorem ComesOf.mono (h : ComesOf env w id token) (g : Guarantee u w w') :
    ComesOf env w' id token := by
  obtain ⟨login, verified, hsaved, hidentity, hout⟩ := h
  exact ⟨login, verified, g.saved _ hsaved, identityOf_mono g.hydra hidentity, hout.mono g.hydra⟩

/-- What a refresh has made of Hydra's answer came of the id's login. -/
theorem Renewed.comesOf {session data : SessionData} (h : Renewed env t w id session data) :
    ComesOf env w id data.accessToken := by
  obtain ⟨issue, hissue, htoken, -, hsaved, hidentity⟩ := h.refreshing.genuine
  obtain ⟨answer, tokens, now, now', hcall, htokens, rfl⟩ := h.answer
  exact ⟨issue.login, _, hsaved, hidentity, t, _, answer, tokens, hcall, htokens, rfl,
    Or.inr ⟨issue, hissue, by rw [htoken], rfl⟩⟩

/-! ### What is stored -/

/-- What is stored, and what a login is about to store, came of the login. -/
structure Backed (env : Env) (c : State) : Prop where
  stored : ∀ id session, c.shared.sessions.getSession id = some session →
    ComesOf env c.shared id session.accessToken
  saving : ∀ t pending previous id data,
    c.thread t = some (.callback (.saveSession pending previous id data)) →
    c.shared.hydra.HandedOut t data.accessToken

theorem stored_backed_step {c c' : State} {e : Event} (hinv : Inv env c) (h : Backed env c)
    (hs : step env c e = some c') {session : SessionData}
    (hget : c'.shared.sessions.getSession id = some session) :
    ComesOf env c'.shared id session.accessToken := by
  obtain ⟨v, g⟩ := guarantee_of_step hinv hs
  have hold : c.shared.sessions.getSession id = some session →
      ComesOf env c'.shared id session.accessToken := fun hget => (h.stored id session hget).mono g
  cases steps_of_step hs with
  | start hthread htimely hstart =>
    rw [Threads.shared_move, hstart.sessions] at hget
    exact hold hget
  | drop hthread hdrops =>
    rw [Threads.shared_move, hdrops.sessions] at hget
    exact hold hget
  | hydra | spawned => exact hold hget
  | @resume t i task task' w hthread htimely hnow hresumes =>
    have hown := hinv.standing hthread
    rcases hresumes.stored hget with hget | rfl | ⟨pending, previous, rfl⟩
    · exact hold hget
    · obtain ⟨before, hrenewed⟩ : ∃ before, Renewed env t c.shared id before session := hown.1
      exact hrenewed.comesOf.mono g
    · obtain ⟨-, -, now, -, -, hidentity⟩ : _ ∧ _ ∧ Born env c.shared t session := hown.1
      have hsaved : (id, t) ∈ (c.move t w (some task')).shared.saved := by
        cases hresumes
        exact List.mem_cons_self
      exact ⟨t, _, hsaved, identityOf_mono g.hydra hidentity,
        (h.saving t pending previous id session hthread).mono g.hydra⟩

theorem saving_backed_step {c c' : State} {e : Event} (hinv : Inv env c) (h : Backed env c)
    (hs : step env c e = some c') {pending : PendingLogin} {previous : Option String}
    {data : SessionData}
    (hthread' : c'.thread t = some (.callback (.saveSession pending previous id data))) :
    c'.shared.hydra.HandedOut t data.accessToken := by
  obtain ⟨v, g⟩ := guarantee_of_step hinv hs
  have hold : c.thread t = some (.callback (.saveSession pending previous id data)) →
      c'.shared.hydra.HandedOut t data.accessToken := fun hthread =>
    (h.saving t pending previous id data hthread).mono g.hydra
  cases seenTo_of_step hinv hs hthread' with
  | other htu g' hquiet hthread => exact hold hthread
  | hydra hserve hthread => exact hold hthread
  | start hthread htimely hstart => cases hstart
  | resume hthread htimely hnow hresumes =>
    have hown := hinv.standing hthread
    cases hresumes with
    | verified hid hdraw =>
      obtain ⟨⟨-, code, verifier, answer, hcall, htokens, -⟩, -⟩ := hown
      exact HydraServer.HandedOut.mono ⟨t, _, answer, _, hcall, htokens, rfl,
        Or.inl ⟨⟨code, verifier, rfl⟩, rfl⟩⟩ g.hydra

/-- **What is stored under an id came of the login that saved it.** -/
theorem backed_of_reaches {ok : State → Event → Prop} {now : DateTime} {c : State}
    (hc : Reaches (step env) ok (State.start now) c) : Backed env c := by
  refine hc.invariant_of (Q := Inv env) (fun _ => inv_of_reaches) ⟨fun id session hget => ?_,
    fun _ _ _ _ _ hthread => by cases hthread⟩ fun c e c' hinv h _ hs =>
      ⟨fun _ _ => stored_backed_step hinv h hs, fun _ _ _ _ _ => saving_backed_step hinv h hs⟩
  simp [State.start, World.start, Sessions.getSession, Sessions.empty] at hget

/-! ### What a request is given -/

/-- How far a request for the id has come, and what it was given. -/
inductive ProxiedFor (env : Env) (w : World) (id : String) : Task → Prop where
  | here (here : Resolve) : ProxiedFor env w id (.proxied id here)
  | token {token : String} (h : ComesOf env w id token) :
      ProxiedFor env w id (.answered (.proxied (.ok token)))
  | error (error : ProxyServiceError) : ProxiedFor env w id (.answered (.proxied (.error error)))
  | dropped : ProxiedFor env w id .dropped

theorem ProxiedFor.mono {task : Task} (h : ProxiedFor env w id task) (g : Guarantee u w w') :
    ProxiedFor env w' id task := by
  cases h with
  | here here => exact .here here
  | token h => exact .token (h.mono g)
  | error error => exact .error error
  | dropped => exact .dropped

theorem Resumes.proxiedFor {task task' : Task} (h : Resumes env t i w task w' task')
    (hfor : ProxiedFor env w id task)
    (hstored : ∀ session, w'.sessions.getSession id = some session →
      ComesOf env w' id session.accessToken) : ProxiedFor env w' id task' := by
  cases hfor with
  | here here =>
    cases h with
    | acquire | lockOwned | refresh | tokens | rejected | sessionGone => exact .here _
    | noSession | ended | noSessionAgain | unavailable | takeRefused | revokeLate =>
      exact .error _
    | fresh hget | freshAgain hget => exact .token (hstored _ hget)
    | @updateSession _ data sessions hupdate =>
      have hget := (Sessions.get_updateSession hupdate).2 id
      rw [if_pos rfl] at hget
      exact .token (hstored data hget)
  | token | error | dropped => cases h

theorem proxiedFor_step {c c' : State} {e : Event} (hinv : Inv env c) (hbacked : Backed env c)
    (h : ∀ task, c.thread t = some task → ProxiedFor env c.shared id task)
    (hsome : c.thread t ≠ none) (hs : step env c e = some c') :
    ∀ task, c'.thread t = some task → ProxiedFor env c'.shared id task := by
  intro task hthread'
  obtain ⟨v, g⟩ := guarantee_of_step hinv hs
  cases seenTo_of_step hinv hs hthread' with
  | other htu g' hquiet hthread => exact (h task hthread).mono g
  | hydra hserve hthread => exact (h task hthread).mono g
  | start hthread => exact absurd hthread hsome
  | drop => exact .dropped
  | resume hthread htimely hnow hresumes =>
    exact hresumes.proxiedFor (h _ hthread) fun session => stored_backed_step hinv hbacked hs

theorem started_step {c c' : State} {e : Event} (hsome : c.thread t ≠ none)
    (hs : step env c e = some c') : c'.thread t ≠ none := by
  by_cases hte : e.task = t
  · subst hte
    cases steps_of_step hs with
    | start | resume | drop => simp [Event.task]
    | hydra | spawned => exact hsome
  · rwa [thread_step hte hs]

/-- **A request only gets tokens of its session's login.** A request arrives with a session id, and
in any run from there it is answered with an access token: Hydra handed that token out to the login
that the id was drawn for, of which there is one, and whose id_token was verified. -/
theorem token_isolation {ok ok' : State → Event → Prop} {now now' : DateTime} {s s' d : State}
    (hs : Reaches (step env) ok (State.start now) s)
    (harrives : step env s (.start t (.proxied id) now') = some s')
    (hd : Reaches (step env) ok' s' d)
    (hanswered : d.thread t = some (.answered (.proxied (.ok token)))) :
    ∃ login verified, (id, login) ∈ d.shared.saved ∧ identityOf env d.shared login = some verified ∧
      d.shared.hydra.HandedOut login token ∧
      ∀ login', (id, login') ∈ d.shared.saved → login' = login := by
  have hs' : Reaches (step env) Any (State.start now) s' :=
    (hs.mono fun _ _ _ => trivial).tail trivial harrives
  have hreach : ∀ {c}, Reaches (step env) ok' s' c → Reaches (step env) Any (State.start now) c :=
    fun hc => hs'.trans (hc.mono fun _ _ _ => trivial)
  have hstart : s'.thread t = some (.proxied id .getSession) := by
    cases steps_of_step harrives with
    | start hthread htimely h =>
      cases h
      exact Threads.thread_move_self _ _ _ _
  obtain ⟨-, hfor⟩ := hd.invariant_of
    (P := fun c => c.thread t ≠ none ∧
      ∀ task, c.thread t = some task → ProxiedFor env c.shared id task)
    (Q := fun c => Inv env c ∧ Backed env c)
    (fun c hc => ⟨inv_of_reaches (hreach hc), backed_of_reaches (hreach hc)⟩)
    ⟨by simp [hstart], fun task htask => by
      rw [hstart] at htask
      cases htask
      exact .here _⟩
    fun c e c' hQ hP _ hstep => ⟨started_step hP.1 hstep, proxiedFor_step hQ.1 hQ.2 hP.2 hP.1 hstep⟩
  cases hfor _ hanswered with
  | token hcomes =>
    obtain ⟨login, verified, hsaved, hidentity, hout⟩ := hcomes
    have hids := (inv_of_reaches (hreach hd)).shared.ids
    exact ⟨login, verified, hsaved, hidentity, hout, fun login' hsaved' =>
      hids.task_unique id login' login (hids.saved_drawn _ hsaved') (hids.saved_drawn _ hsaved)⟩

/-- A request that has its session refreshed, and gets the new token. -/
theorem token_isolation_refreshed : ∃ s' d : State,
    run (step Sample.env) (State.start 0)
      (Sample.login 0 "a" 0 "access" "refresh" ++ Sample.refresh 1 "a" 900000000000 ++
        Sample.finish 1 900000000000 "access'" "refresh'") = some d ∧
    s'.thread 1 = some (.proxied "a" .getSession) ∧
    ∃ login verified, ("a", login) ∈ d.shared.saved ∧
      identityOf Sample.env d.shared login = some verified ∧
      d.shared.hydra.HandedOut login "access'" := by
  obtain ⟨s, hs, hreaches, -⟩ := exists_run (fun _ : State => true)
    (by decide : (run (step Sample.env) (State.start 0)
      (Sample.login 0 "a" 0 "access" "refresh")).any _ = true)
  obtain ⟨s', hs', harrives, -, hthread⟩ := exists_run_append
    (fun c : State => decide (c.thread 1 = some (.proxied "a" .getSession))) hs
    (by decide : (run (step Sample.env) (State.start 0)
      (Sample.login 0 "a" 0 "access" "refresh" ++ [.start 1 (.proxied "a") 900000000000])).any _
        = true)
  obtain ⟨d, hd, -, hreaches', hanswered⟩ := exists_run_append
    (fun c : State => decide (c.thread 1 = some (.answered (.proxied (.ok "access'"))))) hs'
    (by decide : (run (step Sample.env) (State.start 0)
      (Sample.login 0 "a" 0 "access" "refresh" ++ [.start 1 (.proxied "a") 900000000000] ++
        ((Sample.refresh 1 "a" 900000000000).tail ++
          Sample.finish 1 900000000000 "access'" "refresh'"))).any _ = true)
  obtain ⟨login, verified, hsaved, hidentity, hout, -⟩ := token_isolation hreaches
    (step_of_run harrives) hreaches' (of_decide_eq_true hanswered)
  exact ⟨s', d, hd, of_decide_eq_true hthread, login, verified, hsaved, hidentity, hout⟩

end Bff

end WeaveAuth
