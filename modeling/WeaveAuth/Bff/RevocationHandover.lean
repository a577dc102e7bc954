import WeaveAuth.Bff.Invariant

/-!
# Who revokes the token of a session that was removed

The store's copy of a refresh token goes with its session, so the request that removed the session
has to hand the token to Hydra. `revoke_refresh_tokens` does that in a task of its own, which the
request only joins. `end_session` calls Hydra itself, and a request dropped at that await takes the
token with it.

## Main results

* `revocation_handed_over`: which removals hand the token to a task of its own, and when the others
  do not lose it
* `revocation_lost`: a logout that does

## Scope

A removal by the sweep is not among these: it hands nothing over, which is `Custody`'s matter. What
Hydra makes of a revocation is left open; handed over means that the call is made whether or not the
request is still there. The clock is not set back.

## The condition

Whether a removal uses `end_session` can be told from where the task stands before the step
(`Task.endsSession`), and so can the await at which a drop loses the token (`Task.revokesInline`).
So the theorem says of each removal which of the two it is, and needs a condition on the run only
for the second kind.
-/

namespace WeaveAuth

namespace Bff

open Transition

variable {env : Env} {t u : TaskId} {w w' : World} {c c' : State} {id token : String}
  {session : SessionData}

/-- The task is about to remove sessions that it has to revoke: a logout's, a replaced one, those
beyond the cap, or those a revocation selects. -/
def Task.removes : Task → Bool
  | .logout _ (.takeSession _) | .callback (.endSession _ _ (.takeSession _))
  | .callback (.saveSession _ _ _ _) | .backchannelLogout (.endSessions (.revoke _))
  | .internalRevoke (.revoke _) => true
  | _ => false

/-- It does so by `end_session`. -/
def Task.endsSession : Task → Bool
  | .logout _ (.takeSession _) | .callback (.endSession _ _ (.takeSession _)) => true
  | _ => false

/-- The session whose revocation the task itself awaits, in `end_session`. -/
def Task.revokesInline : Task → Option SessionData
  | .logout _ (.revoke session) | .callback (.endSession _ _ (.revoke session)) => some session
  | _ => none

/-- The token is with a revocation task of `t`, or Hydra was asked to revoke it. -/
def Handed (w : World) (t : TaskId) (token : String) : Prop :=
  token ∈ w.spawned t ∨ token ∈ w.hydra.revoked

/-- `t` is not dropped while it awaits a revocation itself. -/
def AwaitsRevocation (t : TaskId) (c : State) : Event → Prop
  | .drop u => u = t → (c.thread t).bind Task.revokesInline = none
  | _ => True

instance (t : TaskId) (c : State) : (e : Event) → Decidable (AwaitsRevocation t c e)
  | .drop u => inferInstanceAs (Decidable (u = t → (c.thread t).bind Task.revokesInline = none))
  | .start _ _ _ | .resume _ _ | .hydra _ _ _ _ | .spawned _ => .isTrue trivial

/-! ### Once handed over -/

theorem mem_spawned_spawn {ended : List SessionData} :
    token ∈ (w.spawn u ended).spawned t ↔
      token ∈ w.spawned t ∨ t = u ∧ token ∈ ended.map SessionData.refreshToken := by
  by_cases htu : t = u
  · subst htu
    simp [World.spawn]
  · simp [World.spawn, htu]

theorem Resumes.handed {i : Input} {task task' : Task} (h : Resumes env u i w task w' task')
    (hhanded : Handed w t token) : Handed w' t token := by
  cases h with
  | saveSession | endBackchannel | endInternal =>
    exact hhanded.imp_left fun hmem => mem_spawned_spawn.mpr (Or.inl hmem)
  | revokeLate | revokePrevious | revokeLogout =>
    exact hhanded.imp_right fun hmem => List.mem_append_right _ hmem
  | _ => exact hhanded

/-- Nothing the request does, or what is done to it, takes the token back. -/
theorem handed_step {e : Event} (h : Handed c.shared t token) (hs : step env c e = some c') :
    Handed c'.shared t token := by
  cases steps_of_step hs with
  | start hthread htimely hstart => cases hstart <;> exact h
  | resume hthread htimely hnow hresumes => exact hresumes.handed h
  | drop hthread hdrops => cases hdrops <;> exact h
  | hydra hnow hserve => exact h.imp_right ((HydraServer.grows_serve hserve).revoked token)
  | @spawned u =>
    by_cases htu : t = u
    · subst htu
      refine Or.inr (List.mem_append.mpr h)
    · exact h.imp (fun hmem => by simpa [World.runSpawned, htu] using hmem)
        (List.mem_append_right _)

/-! ### The removal -/

/-- What a task is about to store, as a login, or what is stored. -/
def Task.Has (w : World) (id : String) (session : SessionData) (task : Task) : Prop :=
  w.sessions.getSession id = some session ∨
  ∃ pending previous, task = .callback (.saveSession pending previous id session)

/-- What one step of `end_session` or `revoke_refresh_tokens` does with a session it removes. -/
theorem Resumes.removed {i : Input} {task task' : Task} (h : Resumes env t i w task w' task')
    (hcore : Core env w) (hown : Standing env t w (some task)) (hremoves : task.removes = true)
    (hhas : task.Has w id session) (hgone : w'.sessions.getSession id = none) :
    task.endsSession = true ∧ task'.revokesInline = some session ∧ w'.spawned t = [] ∨
    task.endsSession = false ∧ session.refreshToken ∈ w'.spawned t := by
  have htaken : ∀ {sessionId}, (∀ pending previous,
      task ≠ .callback (.saveSession pending previous id session)) →
      (w.sessions.takeSession sessionId).2.getSession id = none →
      w.sessions.getSession sessionId = some session := fun {sessionId} hne hgone => by
    rcases hhas with hget | ⟨pending, previous, heq⟩
    · rw [Sessions.takeSession, Sessions.get_remove] at hgone
      split at hgone
      · next hid => rwa [← hid]
      · rw [hget] at hgone
        cases hgone
    · exact absurd heq (hne pending previous)
  have hdropped : ∀ {selector}, (∀ pending previous,
      task ≠ .callback (.saveSession pending previous id session)) →
      (w.sessions.revoke selector).2.getSession id = none →
      session ∈ (w.sessions.revoke selector).1 := fun {selector} hne hgone => by
    rcases hhas with hget | ⟨pending, previous, heq⟩
    · exact Sessions.mem_removeAll hget hgone
    · exact absurd heq (hne pending previous)
  cases h with
  | takeLogout hget | takePrevious hget =>
    have hsession := htaken (fun _ _ h => by cases h) hgone
    rw [hget, Option.some.injEq] at hsession
    subst hsession
    exact Or.inl ⟨rfl, rfl, hown.2 rfl⟩
  | noLogout hget | noPrevious hget =>
    have hsession := htaken (fun _ _ h => by cases h) hgone
    rw [hget] at hsession
    cases hsession
  | endBackchannel | endInternal =>
    refine Or.inr ⟨rfl, mem_spawned_spawn.mpr (Or.inr ⟨rfl, ?_⟩)⟩
    exact List.mem_map_of_mem (hdropped (fun _ _ h => by cases h) hgone)
  | @saveSession pending previous sessionId data =>
    have hstored : (w.sessions.insert sessionId data).getSession id = some session := by
      rw [Sessions.get_insert]
      rcases hhas with hget | ⟨pending, previous, heq⟩
      · obtain ⟨⟨-, hnew, -⟩, -⟩ := hown
        obtain ⟨v, hsaved⟩ := (hcore.genuine id session hget).saved
        rw [if_neg (by rintro rfl; exact hnew v hsaved), hget]
      · cases heq
        rw [if_pos rfl]
    refine Or.inr ⟨rfl, mem_spawned_spawn.mpr (Or.inr ⟨rfl, ?_⟩)⟩
    exact List.mem_map_of_mem (Sessions.mem_removeAll hstored hgone)
  | _ => cases hremoves

/-! ### From the removal on -/

/-- The token is handed over, or its request awaits the revocation itself. -/
def Safe (c : State) (t : TaskId) (session : SessionData) : Prop :=
  Handed c.shared t session.refreshToken ∨ (c.thread t).bind Task.revokesInline = some session

theorem safe_step {e : Event} (hinv : Inv env c) (h : Safe c t session)
    (hok : AwaitsRevocation t c e) (hs : step env c e = some c') : Safe c' t session := by
  rcases h with hhanded | hawaits
  · exact Or.inl (handed_step hhanded hs)
  · cases seenBy_of_step hinv hs t with
    | other htu g hquiet hthread => exact Or.inr (by rw [hthread, hawaits])
    | hydra => exact Or.inr hawaits
    | start hthread =>
      rw [hthread] at hawaits
      cases hawaits
    | resume hthread htimely hnow hresumes =>
      rw [hthread] at hawaits
      cases hresumes with
      | revokePrevious | revokeLogout =>
        obtain rfl := Option.some.inj hawaits
        exact Or.inl (Or.inr (List.mem_append_left _ (List.mem_singleton_self _)))
      | _ => cases hawaits
    | drop hthread =>
      rw [hok rfl] at hawaits
      cases hawaits

/-- **Who hands over.** A task removes a session that it has to revoke, or drops the one it was to
store. The token is with a task of its own at once, unless it was `end_session` that removed the
session; and so it stays, whoever is dropped, until Hydra is asked to revoke it. With `end_session`
it is not lost as long as the request is not dropped while it awaits the revocation. -/
theorem revocation_handed_over {ok : State → Event → Prop} {now : DateTime} {i : Input}
    {task : Task} (hc : Reaches (step env) ok (State.start now) c)
    (hs : step env c (.resume t i) = some c') (htask : c.thread t = some task)
    (hremoves : task.removes = true) (hhas : task.Has c.shared id session)
    (hgone : c'.shared.sessions.getSession id = none) :
    (session.refreshToken ∈ c'.shared.spawned t ↔ task.endsSession = false) ∧
    (task.endsSession = false → ∀ d, Reaches (step env) Any c' d →
      Handed d.shared t session.refreshToken) ∧
    ∀ d, Reaches (step env) (AwaitsRevocation t) c' d →
      Handed d.shared t session.refreshToken ∨
        (d.thread t).bind Task.revokesInline = some session := by
  have hinv := inv_of_reaches hc
  have hinv' := inv_step hinv hs
  have hremoved : task.endsSession = true ∧
        (c'.thread t).bind Task.revokesInline = some session ∧ c'.shared.spawned t = [] ∨
      task.endsSession = false ∧ session.refreshToken ∈ c'.shared.spawned t := by
    cases steps_of_step hs with
    | resume hthread htimely hnow hresumes =>
      obtain rfl := Option.some.inj (htask.symm.trans hthread)
      rw [Threads.thread_move_self]
      exact hresumes.removed hinv.shared (hinv.standing hthread) hremoves hhas hgone
  have hsafe : Safe c' t session := by
    rcases hremoved with ⟨-, hawaits, -⟩ | ⟨-, hmem⟩
    · exact Or.inr hawaits
    · exact Or.inl (Or.inl hmem)
  refine ⟨?_, fun hends d hd => ?_, fun d hd => ?_⟩
  · rcases hremoved with ⟨hends, -, hnone⟩ | ⟨hends, hmem⟩
    · simp [hends, hnone]
    · simp [hends, hmem]
  · rcases hremoved with ⟨hends', -⟩ | ⟨-, hmem⟩
    · rw [hends] at hends'
      cases hends'
    · exact hd.invariant (Or.inl hmem) fun _ _ _ h _ hs => handed_step h hs
  · exact (hd.invariant (P := fun d => Inv env d ∧ Safe d t session) ⟨hinv', hsafe⟩
      fun _ _ _ h hok hs => ⟨inv_step h.1 hs, safe_step h.1 h.2 hok hs⟩).2

/-- A login, and an internal revocation that has arrived. -/
def Sample.loginAndRevoke : List Event :=
  login 0 "a" 0 "access" "refresh" ++ [.start 1 (.internalRevoke 1) 1]

/-- Dropped right after the removal, an internal revocation has handed the token over. -/
theorem revocation_handed_over_internal : ∃ d,
    run (step Sample.env) (State.start 0)
      (Sample.loginAndRevoke ++ [.resume 1 (Sample.at' 1)] ++ [.drop 1]) = some d ∧
    d.thread 1 = some .dropped ∧ Handed d.shared 1 "refresh" := by
  obtain ⟨c, hc, hreaches, hp⟩ := exists_run
    (fun c : State => decide (c.thread 1 = some (.internalRevoke (.revoke (.user 1))) ∧
      (c.shared.sessions.getSession "a").map SessionData.refreshToken = some "refresh"))
    (by decide : (run (step Sample.env) (State.start 0) Sample.loginAndRevoke).any _ = true)
  obtain ⟨c', hc', hs, -, hp'⟩ := exists_run_append
    (fun c : State => (c.shared.sessions.getSession "a").isNone) hc
    (by decide : (run (step Sample.env) (State.start 0)
      (Sample.loginAndRevoke ++ [.resume 1 (Sample.at' 1)])).any _ = true)
  obtain ⟨d, hd, -, hlater, hp''⟩ := exists_run_append
    (fun d : State => decide (d.thread 1 = some .dropped)) hc'
    (by decide : (run (step Sample.env) (State.start 0)
      (Sample.loginAndRevoke ++ [.resume 1 (Sample.at' 1)] ++ [.drop 1])).any _ = true)
  obtain ⟨htask, hstored⟩ := of_decide_eq_true hp
  obtain ⟨session, hget, htoken⟩ := Option.map_eq_some_iff.mp hstored
  have hhanded := revocation_handed_over hreaches (step_of_run hs) htask rfl (Or.inl hget)
    (Option.isNone_iff_eq_none.mp hp')
  rw [htoken] at hhanded
  exact ⟨d, hd, of_decide_eq_true hp'', hhanded.2.1 rfl d hlater⟩

/-- **A logout dropped while it awaits the revocation.** The session is gone, and its token is
nowhere. -/
theorem revocation_lost : ∃ c d,
    run (step Sample.env) (State.start 0) (Sample.login 0 "a" 0 "access" "refresh" ++
      [.start 1 (.logout (some "a") none) 1]) = some c ∧
    (c.shared.sessions.getSession "a").map SessionData.refreshToken = some "refresh" ∧
    run (step Sample.env) c [.resume 1 (Sample.at' 1), .drop 1] = some d ∧
    d.shared.sessions.getSession "a" = none ∧ d.thread 1 = some .dropped ∧
    ¬Handed d.shared 1 "refresh" := by
  obtain ⟨c, hc, -, hp⟩ := exists_run
    (fun c : State =>
      decide ((c.shared.sessions.getSession "a").map SessionData.refreshToken = some "refresh"))
    (by decide : (run (step Sample.env) (State.start 0) (Sample.login 0 "a" 0 "access" "refresh" ++
      [.start 1 (.logout (some "a") none) 1])).any _ = true)
  obtain ⟨d, -, hd, -, hp'⟩ := exists_run_append
    (fun d : State => decide (d.shared.sessions.getSession "a" = none ∧
      d.thread 1 = some .dropped ∧ d.shared.spawned 1 = [] ∧ d.shared.hydra.revoked = [])) hc
    (by decide : (run (step Sample.env) (State.start 0) (Sample.login 0 "a" 0 "access" "refresh" ++
      [.start 1 (.logout (some "a") none) 1] ++ [.resume 1 (Sample.at' 1), .drop 1])).any _ = true)
  obtain ⟨hgone, hdropped, hspawned, hrevoked⟩ := of_decide_eq_true hp'
  refine ⟨c, d, hc, of_decide_eq_true hp, hd, hgone, hdropped, ?_⟩
  rw [Handed, hspawned, hrevoked]
  simp

end Bff

end WeaveAuth
