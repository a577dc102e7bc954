import WeaveAuth.Bff.Invariant

/-!
# A session's end

`resolve_bearer_token` compares `ends_at` with the clock once, before it waits for the session's
turn and for Hydra. What it decides afterwards goes by the access token's expiry alone, so a
session that ends during the wait is still used, and refreshed.

## Main results

* `createdAt_of_reaches`: an id's `created_at` is that of its login, however often it is refreshed
* `endsAt_of_reaches`: a refresh never moves the end to an earlier time
* `session_end_enforced`: a decision keeps to the session's end exactly if the session has not ended
  by then
* `session_end_passed`: one that ends during the wait is refreshed after it

## Scope

The end is compared with the last reading of the clock before the decision, which is the run's
clock, and is not set back. Of what is decided later than it is read, the answer's way back to the
browser, nothing is said.

## The condition

`Task.InTime` looks at the state before a step and at the step's own readings. It is exact: a
decision keeps to the session's end just when it holds. It takes three shapes, for the three places
at which the code decides something: the first check, whose two readings may have the end between
them; the check under the lock, which does not look at the end at all; and the store of what a
refresh brought.
-/

namespace WeaveAuth

namespace Bff

open Transition

variable {env : Env} {t u : TaskId} {w w' : World} {c c' : State} {id : String}
  {session : SessionData}

/-- Where a request reads the store, the session stored under its id has not ended at its last
reading of the clock. For the first read that is asked of a session found live and fresh, whose end
may still fall between the two readings. Where it is about to write, the session's thirty days are
not over, and the refresh token that it gets has not expired. -/
def Task.InTime (w : World) (i : Input) : Task → Prop
  | .proxied id .getSession => ∀ session ∈ w.sessions.getSession id,
      i.now < session.endsAt → isFresh session i.now' = true → i.now' < session.endsAt
  | .proxied id .getSessionAgain => ∀ session ∈ w.sessions.getSession id, i.now < session.endsAt
  | .proxied id (.updateSession data) => ∀ session ∈ w.sessions.getSession id,
      w.clock < session.createdAt + maxSessionLifetime ∧ w.clock < data.refreshExpiresAt
  | _ => True

instance (w : World) (i : Input) : (task : Task) → Decidable (task.InTime w i)
  | .proxied id .getSession => inferInstanceAs (Decidable (∀ session ∈ w.sessions.getSession id,
      i.now < session.endsAt → isFresh session i.now' = true → i.now' < session.endsAt))
  | .proxied id .getSessionAgain =>
    inferInstanceAs (Decidable (∀ session ∈ w.sessions.getSession id, i.now < session.endsAt))
  | .proxied id (.updateSession data) =>
    inferInstanceAs (Decidable (∀ session ∈ w.sessions.getSession id,
      w.clock < session.createdAt + maxSessionLifetime ∧ w.clock < data.refreshExpiresAt))
  | .proxied _ .acquire | .proxied _ (.refresh _) | .proxied _ (.takeSession _ _)
  | .proxied _ (.revoke _) => .isTrue trivial
  | .callback _ | .logout _ _ | .backchannelLogout _ | .internalRevoke _ | .sweep _ | .answered _
  | .dropped => .isTrue trivial

/-- No session ends while a request for it waits. -/
def InTime (c : State) : Event → Prop
  | .resume t i => ∀ task ∈ c.thread t, task.InTime c.shared i
  | _ => True

instance (c : State) : (e : Event) → Decidable (InTime c e)
  | .resume t i => inferInstanceAs (Decidable (∀ task ∈ c.thread t, task.InTime c.shared i))
  | .start _ _ _ | .drop _ | .hydra _ _ _ _ | .spawned _ => .isTrue trivial

/-- The step returns an access token of the session to the request `t`, or sends its refresh. -/
def Decides (c c' : State) (t : TaskId) (id : String) : Prop :=
  (∃ here, c.thread t = some (.proxied id here)) ∧ c'.thread t ≠ c.thread t ∧
  ((∃ accessToken, c'.thread t = some (.answered (.proxied (.ok accessToken)))) ∨
    ∃ session, c'.thread t = some (.proxied id (.refresh session)))

/-! ### The login's time -/

/-- What a refresh stores has the `created_at` of what is stored. -/
theorem createdAt_step {e : Event} (hinv : Inv env c) {before after : SessionData}
    (hbefore : c.shared.sessions.getSession id = some before) (hs : step env c e = some c')
    (hafter : c'.shared.sessions.getSession id = some after) :
    after.createdAt = before.createdAt := by
  have hsame : c.shared.sessions.getSession id = some after →
      after.createdAt = before.createdAt := fun h => by
    obtain rfl := Option.some.inj (hbefore.symm.trans h)
    rfl
  cases steps_of_step hs with
  | start hthread htimely hstart =>
    rw [Threads.shared_move, hstart.sessions] at hafter
    exact hsame hafter
  | drop hthread hdrops =>
    rw [Threads.shared_move, hdrops.sessions] at hafter
    exact hsame hafter
  | hydra | spawned => exact hsame hafter
  | resume hthread htimely hnow hresumes =>
    rcases hresumes.stored hafter with hkept | rfl | ⟨pending, previous, rfl⟩
    · exact hsame hkept
    · obtain ⟨⟨session, hrenewed⟩, -⟩ := hinv.standing hthread
      rcases hrenewed.refreshing.pinned with hnone | hpinned
      · rw [hbefore] at hnone
        cases hnone
      · obtain rfl := Option.some.inj (hbefore.symm.trans hpinned)
        obtain ⟨answer, tokens, now, now', -, -, rfl⟩ := hrenewed.answer
        exact refreshed_createdAt _ _ _ _ _
    · obtain ⟨⟨-, hnew, -⟩, -⟩ := hinv.standing hthread
      obtain ⟨v, hsaved⟩ := (hinv.shared.genuine id before hbefore).saved
      exact absurd hsaved (hnew v)

/-- **An id's `created_at` never changes.** -/
theorem createdAt_of_reaches {ok ok' : State → Event → Prop} {now : DateTime} {s d : State}
    (hreaches : Reaches (step env) ok (State.start now) s) (hd : Reaches (step env) ok' s d)
    {first last : SessionData} (hfirst : s.shared.sessions.getSession id = some first)
    (hlast : d.shared.sessions.getSession id = some last) : last.createdAt = first.createdAt := by
  have hinv := inv_of_reaches hreaches
  have h := hd.invariant
    (P := fun d => Inv env d ∧ (∃ v, (id, v) ∈ d.shared.saved) ∧
      ∀ last, d.shared.sessions.getSession id = some last → last.createdAt = first.createdAt)
    ⟨hinv, (hinv.shared.genuine id first hfirst).saved, fun last hlast => by
      rw [Option.some.inj (hfirst.symm.trans hlast)]⟩
    fun c e c' hP _ hs => by
      obtain ⟨hinv, ⟨v, hsaved⟩, hsame⟩ := hP
      obtain ⟨u, g⟩ := guarantee_of_step hinv hs
      refine ⟨inv_step hinv hs, ⟨v, g.saved _ hsaved⟩, fun last hlast => ?_⟩
      cases hbefore : c.shared.sessions.getSession id with
      | none =>
        rw [g.gone ⟨v, hsaved⟩ hbefore] at hlast
        cases hlast
      | some before => rw [createdAt_step hinv hbefore hs hlast, hsame before hbefore]
  exact h.2.2 last hlast

/-! ### A refresh moves the end to a later time -/

/-- No refresh token that a task has or is about to store outlives one issued now. -/
def Task.Bounded (env : Env) (w : World) : Task → Prop
  | .proxied _ (.refresh session) => session.refreshExpiresAt ≤ w.clock + env.refreshTtl
  | .proxied id (.updateSession data) => data.refreshExpiresAt ≤ w.clock + env.refreshTtl ∧
      ∀ session, w.sessions.getSession id = some session →
        session.createdAt = data.createdAt ∧ session.refreshExpiresAt ≤ data.refreshExpiresAt
  | .callback (.saveSession _ _ _ data) => data.refreshExpiresAt ≤ w.clock + env.refreshTtl
  | _ => True

/-- Nor any that is stored. -/
structure Bounded (env : Env) (c : State) : Prop where
  stored : ∀ id session, c.shared.sessions.getSession id = some session →
    session.refreshExpiresAt ≤ c.shared.clock + env.refreshTtl
  thread : ∀ t task, c.thread t = some task → task.Bounded env c.shared

theorem bounded_start (env : Env) (now : DateTime) : Bounded env (State.start now) where
  stored id session h := by
    simp [State.start, World.start, Sessions.getSession, Sessions.empty] at h
  thread t task h := by cases h

theorem bounded_stable {task : Task} (h : task.Bounded env w) (g : Guarantee u w w')
    (hcore : Core env w) (htu : t ≠ u) (hown : Standing env t w (some task)) :
    task.Bounded env w' := by
  have hclock : w.clock + env.refreshTtl ≤ w'.clock + env.refreshTtl := add_le_add_left g.clock _
  cases task with
  | proxied id here =>
    cases here with
    | refresh session => exact le_trans (h : session.refreshExpiresAt ≤ _) hclock
    | updateSession data =>
      obtain ⟨⟨session, hrenewed⟩, -⟩ := hown
      refine ⟨le_trans h.1 hclock, fun session' hget => h.2 session' ?_⟩
      rcases g.pinned hcore htu hrenewed.refreshing.turn hrenewed.refreshing.genuine.saved with
        heq | hnone
      · rwa [← heq]
      · rw [hnone] at hget
        cases hget
    | _ => trivial
  | callback here =>
    cases here with
    | saveSession pending previous id data => exact le_trans (h : data.refreshExpiresAt ≤ _) hclock
    | _ => trivial
  | _ => trivial

/-- A task's own step keeps to the bound. -/
theorem Resumes.bounded {i : Input} {task task' : Task} (h : Resumes env t i w task w' task')
    (hown : Standing env t w (some task)) (htimely : w.Timely i.now) (hnow : i.now ≤ i.now')
    (hstored : ∀ id session, w.sessions.getSession id = some session →
      session.refreshExpiresAt ≤ w.clock + env.refreshTtl)
    (hbounded : task.Bounded env w) : task'.Bounded env w' := by
  cases h with
  | @refresh id session hget hstale =>
    exact le_trans (hstored id session hget) (add_le_add_left htimely.1 _)
  | @tokens id session answer tokens hanswer htokens =>
    have hpinned : w.sessions.getSession id = none ∨ w.sessions.getSession id = some session :=
      (hown.1 : Refreshing env t w id session).pinned
    have hle : session.refreshExpiresAt ≤ i.now + env.refreshTtl :=
      le_trans (hbounded : session.refreshExpiresAt ≤ _) (add_le_add_left htimely.1 _)
    have hlater : session.refreshExpiresAt
          ≤ (refreshed env.refreshTtl session tokens i.now i.now').refreshExpiresAt ∧
        (refreshed env.refreshTtl session tokens i.now i.now').refreshExpiresAt
          ≤ i.now + env.refreshTtl := by
      cases hrefresh : tokens.refreshToken with
      | none =>
        rw [(refreshed_kept _ _ _ _ _ hrefresh).2]
        exact ⟨le_refl _, hle⟩
      | some rotated =>
        rw [(refreshed_rotated _ _ _ _ _ hrefresh).2]
        exact ⟨hle, le_refl _⟩
    refine ⟨le_trans hlater.2 (add_le_add_left hnow _), fun session' hget => ?_⟩
    rcases hpinned with hnone | hsome
    · rw [show w.sessions.getSession id = some session' from hget] at hnone
      cases hnone
    · obtain rfl := Option.some.inj (hsome.symm.trans hget)
      exact ⟨rfl, hlater.1⟩
  | verified => exact le_refl (i.now + env.refreshTtl)
  | _ => trivial

theorem bounded_step {e : Event} (hinv : Inv env c) (h : Bounded env c)
    (hs : step env c e = some c') : Bounded env c' where
  stored id session hget := by
    obtain ⟨u, g⟩ := guarantee_of_step hinv hs
    have hclock : c.shared.clock + env.refreshTtl ≤ c'.shared.clock + env.refreshTtl :=
      add_le_add_left g.clock _
    refine le_trans ?_ hclock
    cases steps_of_step hs with
    | start hthread htimely hstart =>
      rw [Threads.shared_move, hstart.sessions] at hget
      exact h.stored id session hget
    | drop hthread hdrops =>
      rw [Threads.shared_move, hdrops.sessions] at hget
      exact h.stored id session hget
    | hydra | spawned => exact h.stored id session hget
    | resume hthread htimely hnow hresumes =>
      rcases hresumes.stored hget with hkept | rfl | ⟨pending, previous, rfl⟩
      · exact h.stored id session hkept
      · exact (h.thread _ _ hthread).1
      · exact h.thread _ _ hthread
  thread t task ht := by
    cases seenTo_of_step hinv hs ht with
    | other htu g hquiet hthread =>
      exact bounded_stable (h.thread t task hthread) g hinv.shared htu (hinv.standing hthread)
    | hydra _ hthread => exact h.thread t task hthread
    | start hthread htimely hstart => cases hstart <;> trivial
    | resume hthread htimely hnow hresumes =>
      exact hresumes.bounded (hinv.standing hthread) htimely hnow h.stored (h.thread t _ hthread)
    | drop => trivial

theorem bounded_of_reaches {ok : State → Event → Prop} {now : DateTime}
    (h : Reaches (step env) ok (State.start now) c) : Bounded env c :=
  h.invariant_of (fun _ => inv_of_reaches) (bounded_start env now)
    fun _ _ _ hinv hbounded _ hs => bounded_step hinv hbounded hs

theorem endsAt_mono {a b : SessionData} (hcreated : a.createdAt = b.createdAt)
    (hexpires : a.refreshExpiresAt ≤ b.refreshExpiresAt) : a.endsAt ≤ b.endsAt := by
  rw [SessionData.endsAt, SessionData.endsAt, hcreated]
  exact min_le_min_right _ hexpires

theorem endsAt_step {e : Event} (hinv : Inv env c) (hbounded : Bounded env c)
    {before after : SessionData} (hbefore : c.shared.sessions.getSession id = some before)
    (hs : step env c e = some c') (hafter : c'.shared.sessions.getSession id = some after) :
    before.endsAt ≤ after.endsAt := by
  have hsame : c.shared.sessions.getSession id = some after → before.endsAt ≤ after.endsAt := by
    intro h
    obtain rfl := Option.some.inj (hbefore.symm.trans h)
    exact le_refl _
  cases steps_of_step hs with
  | start hthread htimely hstart =>
    rw [Threads.shared_move, hstart.sessions] at hafter
    exact hsame hafter
  | drop hthread hdrops =>
    rw [Threads.shared_move, hdrops.sessions] at hafter
    exact hsame hafter
  | hydra | spawned => exact hsame hafter
  | resume hthread htimely hnow hresumes =>
    rcases hresumes.stored hafter with hkept | rfl | ⟨pending, previous, rfl⟩
    · exact hsame hkept
    · obtain ⟨hcreated, hexpires⟩ := (hbounded.thread _ _ hthread).2 before hbefore
      exact endsAt_mono hcreated hexpires
    · obtain ⟨⟨-, hnew, -⟩, -⟩ := hinv.standing hthread
      obtain ⟨v, hsaved⟩ := (hinv.shared.genuine id before hbefore).saved
      exact absurd hsaved (hnew v)

/-- **A refresh never moves the end to an earlier time.** -/
theorem endsAt_of_reaches {now : DateTime} {s d : State}
    (hs : Reaches (step env) Any (State.start now) s) (hd : Reaches (step env) Any s d)
    {first last : SessionData} (hfirst : s.shared.sessions.getSession id = some first)
    (hlast : d.shared.sessions.getSession id = some last) : first.endsAt ≤ last.endsAt := by
  induction hd generalizing last with
  | refl => rw [Option.some.inj (hfirst.symm.trans hlast)]
  | @tail d d' e hsd _ hstep ih =>
    have hall := hs.trans hsd
    have hinv := inv_of_reaches hall
    cases hbefore : d.shared.sessions.getSession id with
    | none =>
      obtain ⟨u, g⟩ := guarantee_of_step hinv hstep
      obtain ⟨v, hsaved⟩ := ((inv_of_reaches hs).shared.genuine id first hfirst).saved
      have hkept := hsd.invariant (P := fun d => Inv env d ∧ (id, v) ∈ d.shared.saved)
        ⟨inv_of_reaches hs, hsaved⟩ fun c e c' hP _ hs => by
          obtain ⟨w, g⟩ := guarantee_of_step hP.1 hs
          exact ⟨inv_step hP.1 hs, g.saved _ hP.2⟩
      rw [g.gone ⟨v, hkept.2⟩ hbefore] at hlast
      cases hlast
    | some before =>
      exact (ih hbefore).trans (endsAt_step hinv (bounded_of_reaches hall) hbefore hstep hlast)

/-! ### The decisions -/

theorem exists_lt_endsAt (hget : w.sessions.getSession id = some session) :
    (∃ session, w.sessions.getSession id = some session ∧ w.clock < session.endsAt) ↔
      w.clock < session.endsAt := by
  rw [hget]
  simp

/-- A decision is made with the session stored, which has not ended exactly if it is in time. -/
theorem Resumes.decides {i : Input} {here : Resolve} {task' : Task}
    (h : Resumes env t i w (.proxied id here) w' task')
    (hown : Standing env t w (some (.proxied id here)))
    (hdecides : (∃ accessToken, task' = .answered (.proxied (.ok accessToken))) ∨
      task' ≠ .proxied id here ∧ ∃ session, task' = .proxied id (.refresh session)) :
    (∃ session, w'.sessions.getSession id = some session ∧ w'.clock < session.endsAt) ↔
      Task.InTime w i (.proxied id here) := by
  cases h with
  | @fresh _ session hget hlive hfresh =>
    refine (exists_lt_endsAt (w := { w with clock := i.now' }) hget).trans ?_
    simp [Task.InTime, hget, hlive, hfresh]
  | @freshAgain _ session hget hfresh =>
    refine (exists_lt_endsAt (w := { w with clock := i.now }.release t) hget).trans ?_
    simp [Task.InTime, hget, World.release]
  | @refresh _ session hget hstale =>
    refine (exists_lt_endsAt
      (w := { w with clock := i.now }.call t (.refreshToken session.refreshToken)) hget).trans ?_
    simp [Task.InTime, hget, World.call]
  | @updateSession _ data sessions hupdate =>
    obtain ⟨hstored, hget⟩ := Sessions.get_updateSession hupdate
    obtain ⟨session, hsession⟩ := Option.ne_none_iff_exists'.mp hstored
    -- What is written has the `created_at` of what is stored.
    obtain ⟨⟨read, hrenewed⟩, -⟩ := hown
    obtain ⟨answer, tokens, now, now', -, -, rfl⟩ := hrenewed.answer
    obtain hnone | hpinned := hrenewed.refreshing.pinned
    · exact absurd hnone hstored
    obtain rfl := Option.some.inj (hsession.symm.trans hpinned)
    refine (exists_lt_endsAt (w := { w with sessions := sessions }.release t)
      ((hget id).trans (if_pos rfl))).trans ?_
    simp [Task.InTime, hsession, SessionData.endsAt, refreshed_createdAt, World.release, and_comm]
  | _ =>
    rcases hdecides with ⟨accessToken, heq⟩ | ⟨-, session, heq⟩ <;> cases heq

/-- **A session's end is enforced in time.** Whenever a step of a run returns an access token of a
session or sends its refresh, the session stored ends later than the clock was last read exactly if
it has not ended by then; and so, however often it was refreshed, do its login's thirty days. -/
theorem session_end_enforced {now : DateTime} {s : State} {e : Event}
    (hreaches : Reaches (step env) Any (State.start now) s) (hc : Reaches (step env) Any s c)
    (hs : step env c e = some c') (hdecides : Decides c c' t id) :
    ((∃ session, c'.shared.sessions.getSession id = some session ∧
      c'.shared.clock < session.endsAt) ↔ InTime c e) ∧
    (InTime c e → ∀ first, s.shared.sessions.getSession id = some first →
      c'.shared.clock < first.createdAt + maxSessionLifetime) := by
  have hall := hreaches.trans hc
  have hinv := inv_of_reaches hall
  obtain ⟨⟨here, hhere⟩, hmoved, hdecision⟩ := hdecides
  have hiff : (∃ session, c'.shared.sessions.getSession id = some session ∧
      c'.shared.clock < session.endsAt) ↔ InTime c e := by
    cases seenFrom_of_step hinv hhere hs with
    | other htu g hquiet hthread => exact absurd (hthread.trans hhere.symm) hmoved
    | hydra => exact absurd rfl hmoved
    | drop =>
      rw [Threads.thread_move_self] at hdecision
      rcases hdecision with ⟨accessToken, heq⟩ | ⟨session, heq⟩ <;> cases heq
    | resume htimely hnow hresumes =>
      rw [Threads.thread_move_self, hhere] at hmoved
      rw [Threads.thread_move_self] at hdecision
      rw [InTime, hhere]
      refine (hresumes.decides (hinv.standing hhere) ?_).trans (by simp)
      exact hdecision.imp (fun ⟨accessToken, heq⟩ => ⟨accessToken, Option.some.inj heq⟩)
        fun ⟨session, heq⟩ => ⟨fun h => hmoved (by rw [h]), session, Option.some.inj heq⟩
  refine ⟨hiff, fun hok first hfirst => ?_⟩
  obtain ⟨session, hget, hlt⟩ := hiff.mpr hok
  rw [← createdAt_of_reaches hreaches (hc.tail trivial hs) hfirst hget]
  exact lt_of_lt_of_le hlt (min_le_right _ _)

/-- One request refreshes the session; another has waited for it, and has the turn now. -/
def Sample.waited : List Event :=
  login 0 "a" 0 "access" "refresh" ++ refresh 1 "a" 900000000000 ++
    [.start 2 (.proxied "a") 900000000000, .resume 2 (at' 900000000000)] ++
    finish 1 900000000000 "access'" "refresh'" ++ [.resume 2 (at' 900000000000)]

/-- It is given the new access token, of a session that lives. -/
theorem session_end_enforced_waited : ∃ c',
    run (step Sample.env) (State.start 0)
      (Sample.waited ++ [.resume 2 (Sample.at' 900000000000)]) = some c' ∧
    c'.thread 2 = some (.answered (.proxied (.ok "access'"))) ∧
    ∃ session, c'.shared.sessions.getSession "a" = some session ∧
      c'.shared.clock < session.endsAt := by
  obtain ⟨c, hc, hreaches, hp⟩ := exists_run
    (fun c : State => decide (c.thread 2 = some (.proxied "a" .getSessionAgain) ∧
      InTime c (.resume 2 (Sample.at' 900000000000))))
    (by decide : (run (step Sample.env) (State.start 0) Sample.waited).any _ = true)
  obtain ⟨c', hc', hs, -, hp'⟩ := exists_run_append
    (fun c : State => decide (c.thread 2 = some (.answered (.proxied (.ok "access'"))))) hc
    (by decide : (run (step Sample.env) (State.start 0)
      (Sample.waited ++ [.resume 2 (Sample.at' 900000000000)])).any _ = true)
  obtain ⟨hthread, hok⟩ := of_decide_eq_true hp
  have hanswered := of_decide_eq_true hp'
  have hdecides : Decides c c' 2 "a" :=
    ⟨⟨_, hthread⟩, by rw [hthread, hanswered]; simp, Or.inl ⟨_, hanswered⟩⟩
  exact ⟨c', hc', hanswered,
    (session_end_enforced .refl hreaches (step_of_run hs) hdecides).1.mpr hok⟩

/-- A session of the login at 0 that was refreshed after twenty days. -/
def Sample.refreshedOnce : SessionData where
  accessToken := "access'"
  refreshToken := "refresh'"
  idToken := "id"
  expiresAt := Duration.days 20 + Duration.seconds 900
  createdAt := 0
  refreshExpiresAt := Duration.days 50
  userId := 1
  sid := some "login"

/-- **A session that ends while its request waits** is refreshed after its end: the request passed
the check just before the thirty days were over, and read the store under the lock a day later. -/
theorem session_end_passed : ∃ c c',
    run (step Sample.env) (State.start 0) (Sample.login 0 "a" 0 "access" "refresh" ++
      Sample.refresh 1 "a" (Duration.days 20) ++
      Sample.finish 1 (Duration.days 20) "access'" "refresh'" ++
      [.start 2 (.proxied "a") (Duration.days 30 - 1),
        .resume 2 (Sample.at' (Duration.days 30 - 1)),
        .resume 2 (Sample.at' (Duration.days 31))]) = some c ∧
    step Sample.env c (.resume 2 (Sample.at' (Duration.days 31))) = some c' ∧
    Decides c c' 2 "a" ∧ c'.shared.sessions.getSession "a" = some Sample.refreshedOnce ∧
    Sample.refreshedOnce.endsAt < c'.shared.clock := by
  obtain ⟨c, hc, -, hp⟩ := exists_run
    (fun c : State => decide (c.thread 2 = some (.proxied "a" .getSessionAgain)))
    (by decide : (run (step Sample.env) (State.start 0) (Sample.login 0 "a" 0 "access" "refresh" ++
      Sample.refresh 1 "a" (Duration.days 20) ++
      Sample.finish 1 (Duration.days 20) "access'" "refresh'" ++
      [.start 2 (.proxied "a") (Duration.days 30 - 1),
        .resume 2 (Sample.at' (Duration.days 30 - 1)),
        .resume 2 (Sample.at' (Duration.days 31))])).any _ = true)
  obtain ⟨c', -, hs, -, hp'⟩ := exists_run_append
    (fun c' : State => decide (c'.thread 2 = some (.proxied "a" (.refresh Sample.refreshedOnce)) ∧
      c'.shared.sessions.getSession "a" = some Sample.refreshedOnce ∧
      Sample.refreshedOnce.endsAt < c'.shared.clock)) hc
    (by decide : (run (step Sample.env) (State.start 0) (Sample.login 0 "a" 0 "access" "refresh" ++
      Sample.refresh 1 "a" (Duration.days 20) ++
      Sample.finish 1 (Duration.days 20) "access'" "refresh'" ++
      [.start 2 (.proxied "a") (Duration.days 30 - 1),
        .resume 2 (Sample.at' (Duration.days 30 - 1)), .resume 2 (Sample.at' (Duration.days 31))] ++
      [.resume 2 (Sample.at' (Duration.days 31))])).any _ = true)
  have hthread := of_decide_eq_true hp
  obtain ⟨hrefresh, hstored, hended⟩ := of_decide_eq_true hp'
  exact ⟨c, c', hc, step_of_run hs,
    ⟨⟨_, hthread⟩, by rw [hthread, hrefresh]; simp, Or.inr ⟨_, hrefresh⟩⟩, hstored, hended⟩

end Bff

end WeaveAuth
