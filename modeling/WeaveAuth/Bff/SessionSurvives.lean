import WeaveAuth.Bff.LoginsInFlight
import WeaveAuth.Bff.SessionCap
import WeaveAuth.Bff.SessionEnd

/-!
# What a session ends by

A session that is stored stays so until something ends it, and there are six things that do: Hydra
has refused its refresh token, its user logs out or logs in again from the same browser, a
revocation names it, its user has too many sessions and it is among the oldest, or its time is
over. An outage of Hydra is none of them, nor is a request that is dropped, a refresh whose answer
is lost, nor anything that other users do.

## Main results

* `Resumes.ends`: a step that removes a session is one of the six
* `removed_with_cause`

## Scope

Every run and every drop point; the clock is not set back, so that a sweep's reading is of the past
and what it takes has ended. The step that is named ends the session that was stored at that step,
which is of the same user and the same login as the one that the theorem began with.
-/

namespace WeaveAuth

namespace Bff

open Transition

variable {env : Env} {t : TaskId} {i : Input} {c c' d : State} {w w' : World} {id : String}
  {session : SessionData}

/-- The task's next step ends the session, which is stored under the id. -/
inductive Task.Ends (w : World) (id : String) (session : SessionData) : Task → Prop where
  | refused {endpoint : String} {status : ℕ} (h : session.refreshToken ∈ w.hydra.refused) :
      Ends w id session (.proxied id (.takeSession endpoint status))
  | replaced {pending : PendingLogin} {new : String} :
      Ends w id session (.callback (.endSession pending new (.takeSession id)))
  | loggedOut {redirectUri : Option String} :
      Ends w id session (.logout redirectUri (.takeSession id))
  | revoked {task : Task} {selector : SessionSelector} (hrevokes : task.revokes = some selector)
      (hmatches : selector.matches session = true) : Ends w id session task
  | evicted {pending : PendingLogin} {previous : Option String} {new : String}
      {data : SessionData} {evicted : List String} (huser : data.userId = session.userId)
      (hcap : w.sessions.CapTakes new data evicted) (hid : id ∈ evicted) :
      Ends w id session (.callback (.saveSession pending previous new data))
  | expired {now : DateTime} (hended : session.endsAt ≤ now) (hpast : now ≤ w.clock) :
      Ends w id session (.sweep (.sessions now))

/-! ### One step -/

/-- A sweep goes by a reading of the past. -/
def Sweeping (c : State) : Prop :=
  ∀ t now, c.thread t = some (.sweep (.sessions now)) → now ≤ c.shared.clock

theorem sweeping_kept {e : Event} (hinv : Inv env c) (h : Sweeping c)
    (hs : step env c e = some c') : Sweeping c' := by
  intro t now ht
  obtain ⟨u, g⟩ := guarantee_of_step hinv hs
  cases seenTo_of_step hinv hs ht with
  | other htu g' hquiet hthread => exact le_trans (h t now hthread) g.clock
  | hydra hserve hthread => exact h t now hthread
  | start hthread htimely hstart =>
    cases hstart
    exact le_refl _
  | resume hthread htimely hnow hresumes => cases hresumes

theorem sweeping_of_reaches {ok : State → Event → Prop} {now : DateTime}
    (hc : Reaches (step env) ok (State.start now) c) : Sweeping c :=
  hc.invariant_of (Q := Inv env) (fun _ => inv_of_reaches) (fun _ _ h => by cases h)
    fun _ _ _ hinv h _ hs => sweeping_kept hinv h hs

theorem notMem_of_kept {s : Sessions} {ids : List String} (hget : s.getSession id = some session)
    (hgone : (s.removeAll ids).2.getSession id = none) : id ∈ ids := by
  by_contra hid
  rw [Sessions.get_removeAll, if_neg hid, hget] at hgone
  cases hgone

theorem eq_of_taken {s : Sessions} {id' : String} (hget : s.getSession id = some session)
    (hgone : (s.takeSession id').2.getSession id = none) : id' = id := by
  by_contra hne
  rw [Sessions.takeSession, Sessions.get_remove, if_neg (Ne.symm hne), hget] at hgone
  cases hgone

/-- Hydra has refused what a request takes for refused. -/
theorem refused_of_rejected (hcore : Core env w)
    (h : ∃ session answer, Refreshing env t w id session ∧
      w.hydra.calls t = some ⟨.refreshToken session.refreshToken, some answer⟩ ∧
      answer.isRejected = true)
    (hget : w.sessions.getSession id = some session) :
    session.refreshToken ∈ w.hydra.refused := by
  obtain ⟨session', answer, hrefreshing, hcall, hrejected⟩ := h
  rcases hrefreshing.pinned with hnone | hpinned
  · rw [hget] at hnone
    cases hnone
  · obtain rfl := Option.some.inj (hget.symm.trans hpinned)
    exact hcore.hydra.refused t _ answer hcall hrejected

/-- What the cap takes from the user whose login it is. -/
theorem ends_of_saveSession {pending : PendingLogin} {previous : Option String} {new : String}
    {data : SessionData} (hcore : Core env w)
    (hown : (Complete.saveSession pending previous new data).Standing env t w)
    (hget : w.sessions.getSession id = some session)
    (hgone : (w.sessions.saveSession new data).2.getSession id = none) :
    Task.Ends w id session (.callback (.saveSession pending previous new data)) := by
  obtain ⟨-, hnew, -⟩ := hown
  have hstored : ∀ {id session}, w.sessions.getSession id = some session → id ≠ new := by
    rintro id session hget rfl
    obtain ⟨u, hsaved⟩ := (hcore.genuine id session hget).saved
    exact hnew u hsaved
  have hfresh : w.sessions.getSession new = none :=
    Option.eq_none_iff_forall_ne_some.mpr fun session hget => hstored hget rfl
  have hcap := hcore.indexed.capTakes data hfresh
  have hne : id ≠ new := hstored hget
  rw [Sessions.get_saveSession, if_neg hne, hget] at hgone
  have hid : id ∈ (w.sessions.insert new data).excess data.userId := by
    by_contra hid
    rw [if_neg hid] at hgone
    cases hgone
  obtain ⟨data', hget', huser⟩ := hcap.own id hid
  rw [Sessions.get_insert, if_neg hne, hget] at hget'
  obtain rfl := Option.some.inj hget'
  exact .evicted huser.symm hcap hid

/-- **A step that removes a session is one of the six.** -/
theorem Resumes.ends {task task' : Task} (h : Resumes env t i w task w' task')
    (hcore : Core env w) (hown : Standing env t w (some task))
    (hsweep : ∀ now, task = .sweep (.sessions now) → now ≤ w.clock)
    (hget : w.sessions.getSession id = some session)
    (hgone : w'.sessions.getSession id = none) : task.Ends w id session := by
  have hsame : w.sessions.getSession id ≠ none := by
    rw [hget]
    exact Option.some_ne_none session
  cases h with
  | @updateSession id' data sessions hupdate =>
    have hgone' := ((Sessions.get_updateSession hupdate).2 id).symm.trans hgone
    split at hgone'
    · cases hgone'
    · exact absurd hgone' hsame
  | takeRefused =>
    obtain rfl := eq_of_taken hget hgone
    exact .refused (refused_of_rejected hcore hown.1 hget)
  | saveSession => exact ends_of_saveSession hcore hown.1 hget hgone
  | noPrevious | takePrevious =>
    obtain rfl := eq_of_taken hget hgone
    exact .replaced
  | noLogout | takeLogout =>
    obtain rfl := eq_of_taken hget hgone
    exact .loggedOut
  | endBackchannel | endInternal =>
    obtain ⟨session', hget', hmatches⟩ :=
      (hcore.indexed.mem_selected _ _).mp (notMem_of_kept hget hgone)
    obtain rfl := Option.some.inj (hget.symm.trans hget')
    exact .revoked rfl hmatches
  | sweepSessions =>
    obtain ⟨session', hget', hended⟩ := HashMap.mem_map_fst_filter.mp (notMem_of_kept hget hgone)
    obtain rfl := Option.some.inj (hget.symm.trans hget')
    exact .expired (by simpa using hended) (hsweep _ rfl)
  | _ => exact absurd hgone hsame

theorem ends_of_step {e : Event} (hinv : Inv env c) (hsweep : Sweeping c)
    (hs : step env c e = some c') (hget : c.shared.sessions.getSession id = some session)
    (hgone : c'.shared.sessions.getSession id = none) :
    ∃ t i task, e = .resume t i ∧ c.thread t = some task ∧ task.Ends c.shared id session := by
  have hsame : c.shared.sessions.getSession id ≠ none := by
    rw [hget]
    exact Option.some_ne_none session
  cases steps_of_step hs with
  | start hthread htimely hstart =>
    rw [Threads.shared_move, hstart.sessions] at hgone
    exact absurd hgone hsame
  | drop hthread hdrops =>
    rw [Threads.shared_move, hdrops.sessions] at hgone
    exact absurd hgone hsame
  | hydra | spawned => exact absurd hgone hsame
  | @resume t i task task' w hthread htimely hnow hresumes =>
    exact ⟨t, i, task, rfl, hthread, hresumes.ends hinv.shared (hinv.standing hthread)
      (fun now heq => hsweep t now (by rw [hthread, heq])) hget hgone⟩

/-! ### A whole run -/

/-- What is stored under an id is always the same user's. -/
theorem user_of_reaches {ok ok' : State → Event → Prop} {now : DateTime}
    {first last : SessionData} (hs : Reaches (step env) ok (State.start now) c)
    (hd : Reaches (step env) ok' c d) (hfirst : c.shared.sessions.getSession id = some first)
    (hlast : d.shared.sessions.getSession id = some last) : last.userId = first.userId := by
  have hinv := inv_of_reaches hs
  obtain ⟨hinv', login, hsaved, hidentity⟩ := hd.invariant
    (P := fun d => Inv env d ∧ ∃ login, (id, login) ∈ d.shared.saved ∧
      identityOf env d.shared login = some ⟨first.userId, first.sid⟩)
    ⟨hinv, by
      obtain ⟨issue, -, -, -, hsaved, hidentity⟩ := hinv.shared.genuine id first hfirst
      exact ⟨issue.login, hsaved, hidentity⟩⟩
    fun c e c' hP _ hs => by
      obtain ⟨hinv, login, hsaved, hidentity⟩ := hP
      obtain ⟨u, g⟩ := guarantee_of_step hinv hs
      exact ⟨inv_step hinv hs, login, g.saved _ hsaved, identityOf_mono g.hydra hidentity⟩
  obtain ⟨issue, -, -, -, hsaved', hidentity'⟩ := hinv'.shared.genuine id last hlast
  have hids := hinv'.shared.ids
  rw [hids.task_unique id _ _ (hids.saved_drawn _ hsaved') (hids.saved_drawn _ hsaved),
    hidentity] at hidentity'
  exact congrArg VerifiedIdToken.userId (Option.some.inj hidentity').symm

/-- **A session that is gone was ended.** Between a state in which it is stored and a later one in
which it is not there is a step that took it out, by one of the six, when what was stored was still
the same user's and of the same login. -/
theorem removed_with_cause {ok ok' : State → Event → Prop} {now : DateTime} {s d : State}
    {first : SessionData} (hs : Reaches (step env) ok (State.start now) s)
    (hstored : s.shared.sessions.getSession id = some first) (hd : Reaches (step env) ok' s d)
    (hgone : d.shared.sessions.getSession id = none) :
    ∃ c t i task c' session, Reaches (step env) Any s c ∧ c.thread t = some task ∧
      step env c (.resume t i) = some c' ∧ Reaches (step env) Any c' d ∧
      c.shared.sessions.getSession id = some session ∧ session.userId = first.userId ∧
      session.createdAt = first.createdAt ∧ task.Ends c.shared id session := by
  have hs' : Reaches (step env) Any (State.start now) s := hs.mono fun _ _ _ => trivial
  induction hd with
  | refl =>
    rw [hstored] at hgone
    cases hgone
  | @tail c d e hc _ hstep ih =>
    cases hget : c.shared.sessions.getSession id with
    | none =>
      obtain ⟨c₁, t, i, task, c₂, session, hc₁, hthread, hs₁, hc₂, hrest⟩ := ih hget
      exact ⟨c₁, t, i, task, c₂, session, hc₁, hthread, hs₁, hc₂.tail trivial hstep, hrest⟩
    | some session =>
      have hsc : Reaches (step env) Any s c := hc.mono fun _ _ _ => trivial
      have hinv := inv_of_reaches (hs'.trans hsc)
      obtain ⟨t, i, task, rfl, hthread, hends⟩ :=
        ends_of_step hinv (sweeping_of_reaches (hs'.trans hsc)) hstep hget hgone
      exact ⟨c, t, i, task, d, session, hsc, hthread, hstep, .refl, hget,
        user_of_reaches hs' hsc hstored hget, createdAt_of_reaches hs' hsc hstored hget, hends⟩

/-- A user who logs out. -/
theorem removed_with_cause_logout : ∃ c t i task c' session,
    c.thread t = some task ∧ step Sample.env c (.resume t i) = some c' ∧
    c.shared.sessions.getSession "a" = some session ∧ task.Ends c.shared "a" session := by
  obtain ⟨s, hs, hreaches, hstored⟩ := exists_run
    (fun c : State => (c.shared.sessions.getSession "a").isSome)
    (by decide : (run (step Sample.env) (State.start 0)
      (Sample.login 0 "a" 0 "access" "refresh")).any _ = true)
  obtain ⟨d, -, -, hreaches', hgone⟩ := exists_run_append
    (fun c : State => decide (c.shared.sessions.getSession "a" = none)) hs
    (by decide : (run (step Sample.env) (State.start 0)
      (Sample.login 0 "a" 0 "access" "refresh" ++
        [.start 1 (.logout (some "a") none) 0, .resume 1 (Sample.at' 0)])).any _ = true)
  obtain ⟨first, hfirst⟩ := Option.isSome_iff_exists.mp hstored
  obtain ⟨c, t, i, task, c', session, -, hthread, hstep, -, hget, -, -, hends⟩ :=
    removed_with_cause hreaches hfirst hreaches' (of_decide_eq_true hgone)
  exact ⟨c, t, i, task, c', session, hthread, hstep, hget, hends⟩

end Bff

end WeaveAuth
