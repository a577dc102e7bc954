import WeaveAuth.Bff.SpentToken

/-!
# Single-flight refresh

Of the requests that find a session's access token stale, one at a time calls Hydra, with what the
store held when it got its turn. Whoever waited reads the store again and finds the new tokens, so
that nobody presents a token that Hydra has rotated.

That takes that no request is dropped and that Hydra's answers arrive: see `SpentToken`.

## Main results

* `presented_of_turn`: what is presented is what was stored when the turn came
* `single_flight`

## Scope

`Undisturbed` is a condition on the events of a run, and asks two things of them only: nobody is
dropped, and a rotation's answer can be read. Refused refreshes, outages that Hydra reports, logouts
and revocations in between are all allowed. The clock is not set back.

## How the proof goes

That no two refreshes of one session are in flight is the locks' invariant, once every open call is
known to have its task (`refreshing_of_awaited`): a task with an open call has the turn. What is
presented is followed from the step at which the turn came (`HasTurn`): until it is read, the
session stays as it is or goes. That Hydra has not rotated it yet is `SpentToken`'s.
-/

namespace WeaveAuth

namespace Bff

open Transition

variable {env : Env} {t u : TaskId} {w w' : World} {id token : String}

/-- No request is dropped, and where Hydra rotates a refresh token its answer can be read. -/
def Undisturbed (c : State) : Event → Prop
  | .drop _ => False
  | .hydra t _ (.granted (some _)) answer =>
    c.shared.hydra.refreshes t = true → (tokenRequest answer).isOk = true
  | _ => True

instance (c : State) : (e : Event) → Decidable (Undisturbed c e)
  | .drop _ => .isFalse fun h => h
  | .hydra _ _ (.granted (some _)) _ => inferInstanceAs (Decidable (_ → _))
  | .hydra _ _ (.granted none) _ | .hydra _ _ .refused _ | .hydra _ _ .nothing _ => .isTrue trivial
  | .start _ _ _ | .resume _ _ | .spawned _ => .isTrue trivial

/-- The request for the session has called Hydra to refresh it, and Hydra has yet to answer. -/
def InFlight (c : State) (t : TaskId) (id token : String) : Prop :=
  (∃ here, c.thread t = some (.proxied id here)) ∧
  c.shared.hydra.calls t = some ⟨.refreshToken token, none⟩

/-! ### Who waits for Hydra -/

/-- An unanswered call with a refresh token belongs to a request in `refresh_session`. -/
theorem refreshing_of_awaited {c : State} (hinv : Inv env c) (hawaited : Awaited c)
    (hcall : c.shared.hydra.calls t = some ⟨.refreshToken token, none⟩) :
    ∃ id session, c.thread t = some (.proxied id (.refresh session)) ∧
      Refreshing env t c.shared id session ∧ session.refreshToken = token := by
  obtain ⟨id, session, hthread⟩ | ⟨pending, previous, hthread⟩ :=
    Task.of_awaitsHydra (hawaited t _ hcall)
  · have hrefreshing : Refreshing env t c.shared id session := (hinv.standing hthread).1
    obtain ⟨answer, hcall'⟩ := hrefreshing.call
    rw [hcall, Option.some.injEq, TokenCall.mk.injEq, Grant.refreshToken.injEq] at hcall'
    exact ⟨id, session, hthread, hrefreshing, hcall'.1.symm⟩
  · obtain ⟨⟨-, code, verifier, answer, hcall'⟩, -⟩ := hinv.standing hthread
    rw [hcall'] at hcall
    cases hcall

theorem awaited_of_undisturbed {now : DateTime} {c : State}
    (h : Reaches (step env) Undisturbed (State.start now) c) : Awaited c :=
  awaited_of_reaches h fun c e t hok he => by
    subst he
    exact hok

/-- Where nobody is dropped and answers arrive, no rotation is interrupted. -/
theorem uninterrupted_of_reaches {now : DateTime} {c : State}
    (h : Reaches (step env) Undisturbed (State.start now) c) :
    Reaches (step env) Uninterrupted (State.start now) c := by
  refine h.mono_of (P := fun c => Inv env c ∧ Awaited c)
    (fun _ hc => ⟨inv_of_reaches hc, awaited_of_undisturbed hc⟩) fun c e c' hP hok hs => ?_
  obtain ⟨hinv, hawaited⟩ := hP
  cases steps_of_step hs with
  | start | resume | spawned => trivial
  | drop => exact hok.elim
  | @hydra t now effect answer hydra hnow hserve =>
    cases effect with
    | granted new =>
      cases new with
      | none => trivial
      | some new =>
        intro hrefreshes
        refine ⟨?_, hok hrefreshes⟩
        obtain ⟨grant, h₁, hcall, -⟩ := HydraServer.serve_eq hserve
        cases grant with
        | authorizationCode code verifier => simp [HydraServer.refreshes, hcall] at hrefreshes
        | refreshToken token =>
          obtain ⟨id, session, hthread, -⟩ := refreshing_of_awaited hinv hawaited hcall
          rw [hthread]
          rfl
    | _ => trivial

/-! ### The turn -/

/-- A request that has had its turn and called Hydra, or has no more to do with the session. -/
def Task.pastTurn : Task → Bool
  | .proxied _ (.refresh _) | .proxied _ (.updateSession _) | .proxied _ (.takeSession _ _)
  | .proxied _ (.revoke _) | .answered _ | .dropped => true
  | _ => false

theorem Resumes.pastTurn {i : Input} {task task' : Task} (h : Resumes env t i w task w' task')
    (hpast : task.pastTurn = true) : task'.pastTurn = true ∧ w'.hydra.calls = w.hydra.calls := by
  cases h with
  | tokens | rejected | unavailable | sessionGone | updateSession | takeRefused | revokeLate =>
    exact ⟨rfl, rfl⟩
  | _ => cases hpast

/-- The request has its turn, or is past it, and `session` was stored when it came. -/
structure HasTurn (c : State) (t : TaskId) (id : String) (session : Option SessionData) :
    Prop where
  presented : ∀ token, c.shared.hydra.Presented t token →
    session.map SessionData.refreshToken = some token
  stands : c.thread t = some (.proxied id .getSessionAgain) ∧
      (c.shared.sessions.getSession id = session ∨ c.shared.sessions.getSession id = none) ∨
    (c.thread t).any Task.pastTurn = true

/-- The read under the lock, and what is made of it. -/
theorem Resumes.hasTurn {i : Input} {task' : Task}
    (h : Resumes env t i w (.proxied id .getSessionAgain) w' task') {session : Option SessionData}
    (hstored : w.sessions.getSession id = session ∨ w.sessions.getSession id = none)
    (hpresented : ∀ token, w.hydra.Presented t token →
      session.map SessionData.refreshToken = some token) :
    (∀ token, w'.hydra.Presented t token → session.map SessionData.refreshToken = some token) ∧
      task'.pastTurn = true := by
  cases h with
  | noSessionAgain | freshAgain => exact ⟨hpresented, rfl⟩
  | @refresh _ data hget hstale =>
    refine ⟨fun token ⟨answer, hcall⟩ => ?_, rfl⟩
    obtain ⟨rfl, -⟩ : data.refreshToken = token ∧ none = answer := by
      simpa [World.call, HydraServer.call] using hcall
    rcases hstored with rfl | hgone
    · rw [hget]
      rfl
    · rw [hget] at hgone
      cases hgone

theorem hasTurn_step {session : Option SessionData} {c c' : State} {e : Event} (hinv : Inv env c)
    (h : HasTurn c t id session) (hs : step env c e = some c') : HasTurn c' t id session := by
  cases seenBy_of_step hinv hs t with
  | other htu g hquiet hthread =>
    refine ⟨fun token hpresented => ?_, ?_⟩
    · rcases g.presented t token hpresented with hold | ⟨rfl, -⟩
      · exact h.presented token hold
      · exact absurd rfl htu
    · rw [hthread]
      refine h.stands.imp_left fun ⟨hreading, hstored⟩ => ⟨hreading, ?_⟩
      obtain ⟨⟨hturn, -, hsaved⟩, -⟩ := hinv.standing hreading
      rcases g.pinned hinv.shared htu hturn hsaved with heq | hnone
      · rwa [heq]
      · exact Or.inr hnone
  | hydra hserve =>
    exact ⟨fun token hpresented =>
      h.presented token (HydraServer.presented_serve hserve hpresented), h.stands⟩
  | start hthread =>
    rcases h.stands with ⟨hreading, -⟩ | hpast
    · rw [hthread] at hreading
      cases hreading
    · rw [hthread] at hpast
      cases hpast
  | resume hthread htimely hnow hresumes =>
    rcases h.stands with ⟨hreading, hstored⟩ | hpast
    · obtain rfl := Option.some.inj (hreading.symm.trans hthread)
      obtain ⟨hpresented, hpast⟩ := hresumes.hasTurn hstored h.presented
      exact ⟨hpresented, Or.inr (by rw [Threads.thread_move_self]; exact hpast)⟩
    · rw [hthread] at hpast
      obtain ⟨hpast', hcalls⟩ := hresumes.pastTurn hpast
      refine ⟨fun token ⟨answer, hcall⟩ => h.presented token ⟨answer, ?_⟩,
        Or.inr (by rw [Threads.thread_move_self]; exact hpast')⟩
      rw [← hcalls]
      exact hcall
  | drop hthread hdrops =>
    refine ⟨fun token hpresented => h.presented token ?_,
      Or.inr (by rw [Threads.thread_move_self]; rfl)⟩
    rw [← hdrops.hydra]
    exact hpresented

/-- On the way to `d` the request got its turn, and `session` was what was stored then. -/
def Turned (env : Env) (s d : State) (t : TaskId) (id : String) (session : Option SessionData) :
    Prop :=
  ∃ c i c', Reaches (step env) Any s c ∧ c.thread t = some (.proxied id .acquire) ∧
    step env c (.resume t i) = some c' ∧ c'.thread t = some (.proxied id .getSessionAgain) ∧
    c'.shared.sessions.getSession id = session ∧ Reaches (step env) Any c' d

theorem Turned.tail {s d d' : State} {e : Event} {session : Option SessionData}
    (h : Turned env s d t id session) (hs : step env d e = some d') :
    Turned env s d' t id session := by
  obtain ⟨c, i, c', hc, hwaits, hstep, hturn, hstored, hd⟩ := h
  exact ⟨c, i, c', hc, hwaits, hstep, hturn, hstored, hd.tail trivial hs⟩

theorem Turned.hasTurn {now : DateTime} {d : State} {session : Option SessionData}
    (h : Turned env (State.start now) d t id session) : HasTurn d t id session := by
  obtain ⟨c, i, c', hc, -, hs, hturn, hstored, hd⟩ := h
  have hinv' := inv_step (inv_of_reaches hc) hs
  have hstart : HasTurn c' t id session := by
    refine ⟨fun token ⟨answer, hcall⟩ => ?_, Or.inl ⟨hturn, Or.inl hstored⟩⟩
    rw [(hinv'.standing hturn).1.2.1] at hcall
    cases hcall
  exact (hd.invariant (P := fun d => Inv env d ∧ HasTurn d t id session) ⟨hinv', hstart⟩
    fun u e v hu _ huv => ⟨inv_step hu.1 huv, hasTurn_step hu.1 hu.2 huv⟩).2

/-- A task's own step presents a token only after the read under the lock. -/
theorem Resumes.presented {i : Input} {task task' : Task} (h : Resumes env t i w task w' task')
    (hpresented : w'.hydra.Presented t token) :
    w.hydra.Presented t token ∨ ∃ id, task = .proxied id .getSessionAgain := by
  cases h with
  | refresh => exact Or.inr ⟨_, rfl⟩
  | _ => exact Or.inl hpresented

theorem Starts.presented {request : Request} {now : DateTime} {task : Task}
    (h : Starts env t now w request w' task) (hpresented : w'.hydra.Presented t token) :
    w.hydra.Presented t token := by
  cases h with
  | exchange =>
    obtain ⟨answer, hcall⟩ := hpresented
    simp [World.call, HydraServer.call] at hcall
  | _ => exact hpresented

/-- Whoever reads under the lock, or has presented a token, has had its turn. -/
theorem turned_of_reaches {now : DateTime} {d : State}
    (hd : Reaches (step env) Any (State.start now) d) :
    (∀ t id, d.thread t = some (.proxied id .getSessionAgain) →
      ∃ session, Turned env (State.start now) d t id session) ∧
    ∀ t token, d.shared.hydra.Presented t token →
      ∃ id session, Turned env (State.start now) d t id session := by
  induction hd with
  | refl =>
    constructor
    · intro t id h
      cases h
    · rintro t token ⟨answer, h⟩
      cases h
  | @tail d d' e hd _ hs ih =>
    obtain ⟨ihreading, ihpresented⟩ := ih
    have hinv := inv_of_reaches hd
    refine ⟨fun t id hreading => ?_, fun t token hpresented => ?_⟩
    · have hkept : d.thread t = some (.proxied id .getSessionAgain) →
          ∃ session, Turned env (State.start now) d' t id session := fun h => by
        obtain ⟨session, hturned⟩ := ihreading t id h
        exact ⟨session, hturned.tail hs⟩
      cases seenTo_of_step hinv hs hreading with
      | other htu g hquiet hthread => exact hkept hthread
      | hydra hserve hthread => exact hkept hthread
      | start hthread htimely hstart => cases hstart
      | resume hthread htimely hnow hresumes =>
        cases hresumes
        exact ⟨_, d, _, _, hd, hthread, hs, hreading, rfl, .refl⟩
    · have hkept : d.shared.hydra.Presented t token →
          ∃ id session, Turned env (State.start now) d' t id session := fun h => by
        obtain ⟨id, session, hturned⟩ := ihpresented t token h
        exact ⟨id, session, hturned.tail hs⟩
      cases seenBy_of_step hinv hs t with
      | other htu g hquiet hthread =>
        refine hkept ((g.presented t token hpresented).resolve_right ?_)
        rintro ⟨rfl, -⟩
        exact htu rfl
      | hydra hserve => exact hkept (HydraServer.presented_serve hserve hpresented)
      | start hthread htimely hstart => exact hkept (hstart.presented hpresented)
      | resume hthread htimely hnow hresumes =>
        rcases hresumes.presented hpresented with hold | ⟨id, rfl⟩
        · exact hkept hold
        · obtain ⟨session, hturned⟩ := ihreading t id hthread
          exact ⟨id, session, hturned.tail hs⟩
      | drop hthread hdrops =>
        refine hkept ?_
        rw [← hdrops.hydra]
        exact hpresented

/-- **What is presented is what was stored when the turn came.** -/
theorem presented_of_turn {now : DateTime} {d : State}
    (hd : Reaches (step env) Any (State.start now) d) (h : d.shared.hydra.Presented t token) :
    ∃ id session, Turned env (State.start now) d t id (some session) ∧
      session.refreshToken = token := by
  obtain ⟨id, session, hturned⟩ := (turned_of_reaches hd).2 t token h
  obtain ⟨data, rfl, htoken⟩ := Option.map_eq_some_iff.mp (hturned.hasTurn.presented token h)
  exact ⟨id, data, hturned, htoken⟩

/-! ### Access tokens -/

/-- **What is handed out is what is stored.** -/
theorem Resumes.handed_out {i : Input} {task : Task} {outcome : Outcome} {accessToken : String}
    (h : Resumes env t i w task w' (.answered outcome))
    (houtcome : outcome = .proxied (.ok accessToken)) :
    ∃ id here session, task = .proxied id here ∧ w'.sessions.getSession id = some session ∧
      session.accessToken = accessToken := by
  cases h with
  | fresh hget | freshAgain hget =>
    cases houtcome
    exact ⟨_, _, _, rfl, hget, rfl⟩
  | @updateSession id data sessions hupdate =>
    cases houtcome
    refine ⟨id, _, data, rfl, ?_, rfl⟩
    have hget := (Sessions.get_updateSession hupdate).2 id
    rwa [if_pos rfl] at hget
  | _ => cases houtcome

/-! ### Single-flight -/

/-- **Single-flight.** Where no request is dropped and answers arrive: every refresh that Hydra has
yet to answer is in flight for one session, and no other for the same; it presents what was stored
when its request got its turn; Hydra has not rotated what it presents; and an access token is
handed out as it is stored at that step. -/
theorem single_flight {now : DateTime} {c : State}
    (hc : Reaches (step env) Undisturbed (State.start now) c) :
    (∀ t token, c.shared.hydra.calls t = some ⟨.refreshToken token, none⟩ →
      ∃ id, InFlight c t id token) ∧
    (∀ t u id token token', InFlight c t id token → InFlight c u id token' → t = u) ∧
    (∀ t token, c.shared.hydra.Presented t token → ∃ id session,
      Turned env (State.start now) c t id (some session) ∧ session.refreshToken = token) ∧
    (∀ t token, c.shared.hydra.calls t = some ⟨.refreshToken token, none⟩ →
      ∀ r ∈ c.shared.hydra.rotated, r.old ≠ token) ∧
    ∀ e c' t accessToken, step env c e = some c' →
      c.thread t ≠ some (.answered (.proxied (.ok accessToken))) →
      c'.thread t = some (.answered (.proxied (.ok accessToken))) →
      ∃ id here session, c.thread t = some (.proxied id here) ∧
        c'.shared.sessions.getSession id = some session ∧ session.accessToken = accessToken := by
  have hinv := inv_of_reaches hc
  have hawaited := awaited_of_undisturbed hc
  have hspent := spent_of_reaches (uninterrupted_of_reaches hc)
  refine ⟨fun t token hcall => ?_, fun t u id token token' ht hu => ?_,
    fun t token h => presented_of_turn (hc.mono fun _ _ _ => trivial) h,
    fun t token hcall r hr hold => ?_, fun e c' t accessToken hs hne houtcome => ?_⟩
  · obtain ⟨id, session, hthread, -, -⟩ := refreshing_of_awaited hinv hawaited hcall
    exact ⟨id, ⟨_, hthread⟩, hcall⟩
  · have hturn : ∀ {t token}, InFlight c t id token → c.shared.refreshLocks.Holds t id :=
      fun ⟨⟨here, hthread⟩, hcall⟩ => by
        obtain ⟨id', session, hthread', hrefreshing, -⟩ := refreshing_of_awaited hinv hawaited hcall
        rw [hthread, Option.some.injEq, Task.proxied.injEq] at hthread'
        rw [hthread'.1]
        exact hrefreshing.turn
    exact hinv.shared.locks.holds_unique (hturn ht) (hturn hu)
  · obtain ⟨id, session, hthread, -, rfl⟩ := refreshing_of_awaited hinv hawaited hcall
    obtain rfl := hspent.presented t id session hthread r hr hold
    obtain ⟨answer, hcall', -⟩ := hinv.shared.hydra.answered r hr
    rw [hcall', Option.some.injEq, TokenCall.mk.injEq] at hcall
    cases hcall.2
  · cases seenTo_of_step hinv hs houtcome with
    | other htu g hquiet hthread => exact absurd hthread hne
    | hydra hserve hthread => exact absurd hthread hne
    | start hthread htimely hstart => cases hstart
    | resume hthread htimely hnow hresumes =>
      obtain ⟨id, here, session, rfl, hstored⟩ := hresumes.handed_out rfl
      exact ⟨id, here, session, hthread, hstored⟩

/-- Two requests for a stale session: one refreshes it, the other waits. -/
def Sample.twoRequests : List Event :=
  login 0 "a" 0 "access" "refresh" ++ refresh 1 "a" 900000000000 ++
    [.start 2 (.proxied "a") 900000000000, .resume 2 (at' 900000000000)]

/-- The one that refreshes presents what it found when its turn came. -/
theorem single_flight_twoRequests : ∃ c,
    run (step Sample.env) (State.start 0) Sample.twoRequests = some c ∧
    c.thread 2 = some (.proxied "a" .acquire) ∧
    ∃ id session, Turned Sample.env (State.start 0) c 1 id (some session) ∧
      session.refreshToken = "refresh" := by
  obtain ⟨c, hc, hreaches, hp⟩ := exists_run_of Undisturbed
    (fun c : State => decide (c.thread 2 = some (.proxied "a" .acquire)) &&
      decide ((c.shared.hydra.calls 1).map TokenCall.grant = some (.refreshToken "refresh")))
    (by decide : (run (guarded (step Sample.env) Undisturbed) (State.start 0)
      Sample.twoRequests).any _ = true)
  obtain ⟨hwaits, hcall⟩ := Bool.and_eq_true_iff.mp hp
  obtain ⟨⟨grant, answer⟩, hcall, hgrant⟩ := Option.map_eq_some_iff.mp (of_decide_eq_true hcall)
  obtain rfl : grant = .refreshToken "refresh" := hgrant
  obtain ⟨-, -, hturned, -⟩ := single_flight hreaches
  exact ⟨c, hc, of_decide_eq_true hwaits, hturned 1 "refresh" ⟨answer, hcall⟩⟩

end Bff

end WeaveAuth
