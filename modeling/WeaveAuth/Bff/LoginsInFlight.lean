import WeaveAuth.Bff.Invariant

/-!
# Revocations and logins in flight

A back-channel logout or an internal revocation ends the sessions that are stored when it comes to
the store. A login whose code Hydra has redeemed, but whose session `complete` has yet to save, is
not among them, and nothing tells `complete` of it: it saves the session afterwards.

## Main results

* `revocation_covers_logins`: a revocation that meets no such login leaves no session behind that
  its selector matches and whose code was redeemed before it
* `revocation_misses_login`: one that does may

## The condition

A login is in flight from Hydra's redemption of its code to its `save_session`. The condition looks
at these logins at the one step at which the revocation comes to the store: none whose verified
id_token the selector names may be among them. It says nothing of logins whose code is redeemed
later, which a revocation is not meant to reach, and nothing of what the revocation does after that
step.

## Scope

The clock is not set back. A request that is dropped is no exception: a revocation that is dropped
before it comes to the store has not been answered.
-/

namespace WeaveAuth

namespace Bff

open Transition

variable {env : Env} {t u : TaskId} {w w' : World} {c c' : State} {selector : SessionSelector}

/-- The selector matches the sessions of whom the id_token names. -/
def SessionSelector.names : SessionSelector → VerifiedIdToken → Bool
  | .user userId, verified => verified.userId == userId
  | .userSession userId sid, verified => verified.userId == userId && verified.sid.all (· == sid)
  | .session sid, verified => verified.sid == some sid

theorem SessionSelector.names_eq_matches (selector : SessionSelector) (session : SessionData) :
    selector.names ⟨session.userId, session.sid⟩ = selector.matches session := by
  cases selector <;> rfl

/-- The task is a login that has yet to save its session. -/
def Task.maySave : Task → Bool
  | .callback (.exchangeCode _ _) | .callback (.verifyIdToken _ _ _ _ _)
  | .callback (.saveSession _ _ _ _) => true
  | _ => false

/-- What a revocation is about to end. -/
def Task.revokes : Task → Option SessionSelector
  | .backchannelLogout (.endSessions (.revoke selector)) => some selector
  | .internalRevoke (.revoke selector) => some selector
  | _ => none

/-- When `t` ends the sessions its selector matches, no login among `redeemed` that the selector
names has yet to save its session. -/
def LoginsSaved (env : Env) (redeemed : List TaskId) (t : TaskId) (c : State) : Event → Prop
  | .resume u _ => u = t → ∀ selector ∈ (c.thread t).bind Task.revokes, ∀ v ∈ redeemed,
      ∀ verified ∈ identityOf env c.shared v, selector.names verified = true →
      (c.thread v).any Task.maySave = false
  | _ => True

instance (redeemed : List TaskId) (t : TaskId) (c : State) :
    (e : Event) → Decidable (LoginsSaved env redeemed t c e)
  | .resume _ _ => inferInstanceAs (Decidable (_ → ∀ selector ∈ (c.thread t).bind Task.revokes,
      ∀ v ∈ redeemed, ∀ verified ∈ identityOf env c.shared v, selector.names verified = true →
      (c.thread v).any Task.maySave = false))
  | .start _ _ _ | .drop _ | .hydra _ _ _ _ | .spawned _ => .isTrue trivial

/-! ### A login that is over -/

/-- The login saves no session any more, and none that it saved is stored. -/
structure Closed (c : State) (u : TaskId) : Prop where
  past : ∃ task, c.thread u = some task ∧ task.maySave = false
  gone : ∀ id, (id, u) ∈ c.shared.saved → c.shared.sessions.getSession id = none

theorem Resumes.past {i : Input} {task task' : Task} (h : Resumes env t i w task w' task')
    (hpast : task.maySave = false) : task'.maySave = false ∧ w'.saved = w.saved := by
  cases h with
  | exchangeFailed | noIdToken | noRefreshToken | exchanged | idTokenRejected | verified
  | saveSession => cases hpast
  | _ => exact ⟨rfl, rfl⟩

theorem closed_step {e : Event} (hinv : Inv env c) (h : Closed c u) (hs : step env c e = some c') :
    Closed c' u := by
  obtain ⟨task, htask, hpast⟩ := h.past
  cases seenFrom_of_step hinv htask hs with
  | other hne g hquiet hthread =>
    refine ⟨⟨task, hthread, hpast⟩, fun id hsaved => ?_⟩
    rcases g.saved_of _ hsaved with hold | ⟨rfl, -⟩
    · exact g.gone ⟨u, hold⟩ (h.gone id hold)
    · exact absurd rfl hne
  | hydra => exact ⟨⟨task, htask, hpast⟩, h.gone⟩
  | resume htimely hnow hresumes =>
    obtain ⟨hpast', hsaved'⟩ := hresumes.past hpast
    refine ⟨⟨_, c.thread_move_self u _ _, hpast'⟩, fun id hsaved => ?_⟩
    rw [Threads.shared_move, hsaved'] at hsaved
    exact (hresumes.guarantee (hinv.standing htask) htimely hnow).gone ⟨u, hsaved⟩
      (h.gone id hsaved)
  | drop hdrops =>
    refine ⟨⟨.dropped, c.thread_move_self u _ _, rfl⟩, ?_⟩
    cases hdrops <;> exact h.gone

/-- Every login among `redeemed` that the selector names is over. -/
def Covered (env : Env) (redeemed : List TaskId) (selector : SessionSelector) (c : State) : Prop :=
  ∀ u ∈ redeemed, ∀ verified ∈ identityOf env c.shared u, selector.names verified = true →
    Closed c u

/-- Whom a login was for is settled when its code is redeemed. -/
theorem identityOf_eq (hcore : Core env w) (hu : u ∈ w.hydra.redeemed)
    (hgrows : w.hydra.Grows w'.hydra) : identityOf env w' u = identityOf env w u := by
  obtain ⟨grant, answer, hcall⟩ := hcore.hydra.redeemed u hu
  rw [identityOf, identityOf, HydraServer.answer?_of_call hcall,
    HydraServer.answer?_of_call (hgrows.answers _ _ _ hcall)]

theorem covered_step {e : Event} {redeemed : List TaskId} (hinv : Inv env c)
    (hredeemed : ∀ u ∈ redeemed, u ∈ c.shared.hydra.redeemed) (h : Covered env redeemed selector c)
    (hs : step env c e = some c') : Covered env redeemed selector c' := by
  intro u hu verified hverified hnames
  obtain ⟨v, g⟩ := guarantee_of_step hinv hs
  rw [identityOf_eq hinv.shared (hredeemed u hu) g.hydra] at hverified
  exact closed_step hinv (h u hu verified hverified hnames) hs

/-- What is left of a revocation is over, if no login has yet to save. -/
theorem covered_revoke {redeemed : List TaskId} {task : Task} (hinv : Inv env c)
    (hredeemed : ∀ u ∈ redeemed, u ∈ c.shared.hydra.redeemed)
    (hsaved : ∀ u ∈ redeemed, ∀ verified ∈ identityOf env c.shared u,
      selector.names verified = true → (c.thread u).any Task.maySave = false)
    (hgrows : c.shared.hydra.Grows w.hydra) (hkept : w.saved = c.shared.saved)
    (hsessions : w.sessions = (c.shared.sessions.revoke selector).2)
    (htask : task.maySave = false) : Covered env redeemed selector (c.move t w (some task)) := by
  intro u hu verified hverified hnames
  rw [Threads.shared_move, identityOf_eq hinv.shared (hredeemed u hu) hgrows] at hverified
  refine ⟨?_, fun id hmem => ?_⟩
  · by_cases hut : u = t
    · subst hut
      exact ⟨task, c.thread_move_self _ _ _, htask⟩
    · cases hthread : c.thread u with
      | none =>
        obtain ⟨grant, answer, hcall⟩ := hinv.shared.hydra.redeemed u (hredeemed u hu)
        rw [(hinv.unused hthread).calls] at hcall
        cases hcall
      | some task' =>
        have hpast := hsaved u hu verified hverified hnames
        rw [hthread] at hpast
        exact ⟨task', (c.thread_move_ne hut _ _).trans hthread, hpast⟩
  · rw [Threads.shared_move, hkept] at hmem
    rw [Threads.shared_move, hsessions, hinv.shared.indexed.get_revoke]
    cases hget : c.shared.sessions.getSession id with
    | none => rfl
    | some session =>
      -- The session is that of `u`, and so whom the selector names.
      obtain ⟨issue, -, -, -, hlogin, hidentity⟩ := hinv.shared.genuine id session hget
      have ids := hinv.shared.ids
      obtain rfl := ids.task_unique id issue.login u (ids.saved_drawn _ hlogin)
        (ids.saved_drawn _ hmem)
      rw [Option.mem_def, hidentity, Option.some.injEq] at hverified
      subst hverified
      rw [SessionSelector.names_eq_matches] at hnames
      simp [Option.filter, hnames]

/-! ### A revocation's run -/

/-- On the way from `s` to `d` the request ended the sessions that the selector matches. -/
def Ended (env : Env) (s d : State) (t : TaskId) (selector : SessionSelector) : Prop :=
  ∃ c i c', Reaches (step env) Any s c ∧ (c.thread t).bind Task.revokes = some selector ∧
    step env c (.resume t i) = some c' ∧ Reaches (step env) Any c' d

theorem Ended.tail {s d d' : State} {e : Event} (h : Ended env s d t selector)
    (hs : step env d e = some d') : Ended env s d' t selector := by
  obtain ⟨c, i, c', hc, hrevokes, hstep, hd⟩ := h
  exact ⟨c, i, c', hc, hrevokes, hstep, hd.tail trivial hs⟩

/-- Where a revocation stands before it comes to the store. -/
inductive Before : Request → Task → Prop where
  | verify : Before .backchannelLogout (.backchannelLogout .verifyLogoutToken)
  | record (claims : LogoutClaims) (now : DateTime) :
      Before .backchannelLogout (.backchannelLogout (.record claims now))
  | backchannel (selector : SessionSelector) :
      Before .backchannelLogout (.backchannelLogout (.endSessions (.revoke selector)))
  | internal (userId : Uuid) :
      Before (.internalRevoke userId) (.internalRevoke (.revoke (.user userId)))

/-- A request that revokes. -/
def Request.isRevocation : Request → Bool
  | .backchannelLogout | .internalRevoke _ => true
  | _ => false

/-- A revocation that was carried out. -/
def Outcome.revoked : Outcome → Bool
  | .backchannelLogout (.ok ()) | .internalRevoke => true
  | _ => false

/-- A revocation that came to nothing. -/
def Task.refused : Task → Bool
  | .answered (.backchannelLogout (.error _)) | .dropped => true
  | _ => false

/-- A revocation on its way from `s`. -/
inductive Revoking (env : Env) (redeemed : List TaskId) (t : TaskId) (request : Request)
    (s d : State) : Prop where
  | before {task : Task} (hthread : d.thread t = some task) (hbefore : Before request task)
  | ended {selector : SessionSelector} (hended : Ended env s d t selector)
      (huser : ∀ userId, request = .internalRevoke userId → selector = .user userId)
      (hcovered : Covered env redeemed selector d)
  | refused {task : Task} (hthread : d.thread t = some task) (hrefused : task.refused = true)

theorem revoking_step {redeemed : List TaskId} {request : Request} {s d d' : State} {e : Event}
    (hinv : Inv env d) (hreaches : Reaches (step env) Any s d)
    (hredeemed : ∀ u ∈ redeemed, u ∈ d.shared.hydra.redeemed)
    (h : Revoking env redeemed t request s d) (hok : LoginsSaved env redeemed t d e)
    (hs : step env d e = some d') : Revoking env redeemed t request s d' := by
  cases h with
  | ended hended huser hcovered =>
    exact .ended (hended.tail hs) huser (covered_step hinv hredeemed hcovered hs)
  | @before task hthread hbefore =>
    cases seenFrom_of_step hinv hthread hs with
    | other htu g hquiet hsame => exact .before hsame hbefore
    | hydra => exact .before hthread hbefore
    | drop => exact .refused (d.thread_move_self t _ _) rfl
    | @resume i task' w htimely hnow hresumes =>
      have hended : ∀ selector, task.revokes = some selector → Ended env s _ t selector :=
        fun selector hrevokes => ⟨d, i, _, hreaches, by rw [hthread]; exact hrevokes, hs, .refl⟩
      have hsaved : ∀ selector, task.revokes = some selector → ∀ u ∈ redeemed,
          ∀ verified ∈ identityOf env d.shared u, selector.names verified = true →
          (d.thread u).any Task.maySave = false := fun selector hrevokes =>
        hok rfl selector (by rw [hthread]; exact hrevokes)
      have hgrows := (hresumes.guarantee (hinv.standing hthread) htimely hnow).hydra
      cases hbefore with
      | verify =>
        cases hresumes with
        | undecoded | invalid => exact .refused (d.thread_move_self t _ _) rfl
        | valid => exact .before (d.thread_move_self t _ _) (.record _ _)
      | record =>
        cases hresumes with
        | replayed => exact .refused (d.thread_move_self t _ _) rfl
        | recorded => exact .before (d.thread_move_self t _ _) (.backchannel _)
      | backchannel selector =>
        cases hresumes
        exact .ended (hended selector rfl) (fun _ h => by cases h)
          (covered_revoke hinv hredeemed (hsaved selector rfl) hgrows rfl rfl rfl)
      | internal userId =>
        cases hresumes
        exact .ended (hended (.user userId) rfl) (fun _ h => by cases h; rfl)
          (covered_revoke hinv hredeemed (hsaved (.user userId) rfl) hgrows rfl rfl rfl)
  | @refused task hthread hrefused =>
    cases seenFrom_of_step hinv hthread hs with
    | other htu g hquiet hsame => exact .refused hsame hrefused
    | hydra => exact .refused hthread hrefused
    | drop => exact .refused (d.thread_move_self t _ _) rfl
    | resume htimely hnow hresumes => cases hresumes <;> cases hrefused

theorem before_of_start {request : Request} {now : DateTime} {task : Task}
    (h : Starts env t now w request w' task) (hrevocation : request.isRevocation = true) :
    Before request task := by
  cases h with
  | backchannelLogout => exact .verify
  | internalRevoke userId => exact .internal userId
  | _ => cases hrevocation

/-- **A revocation covers the logins that have saved.** A revocation starts in `s` and has been
carried out in `d`. If it met no login in flight whose code Hydra had redeemed before `s` and that
its selector names, then no session is stored in `d` that its selector matches and whose code was
redeemed before `s`. -/
theorem revocation_covers_logins {now now' : DateTime} {s s' d : State} {request : Request}
    {outcome : Outcome} (hreaches : Reaches (step env) Any (State.start now) s)
    (hrevocation : request.isRevocation = true) (hs : step env s (.start t request now') = some s')
    (hd : Reaches (step env) (LoginsSaved env s.shared.hydra.redeemed t) s' d)
    (houtcome : outcome.revoked = true) (hanswered : d.thread t = some (.answered outcome)) :
    ∃ selector, Ended env s' d t selector ∧
      (∀ userId, request = .internalRevoke userId → selector = .user userId) ∧
      ∀ id session u, d.shared.sessions.getSession id = some session → (id, u) ∈ d.shared.saved →
        u ∈ s.shared.hydra.redeemed → selector.matches session = false := by
  have hinv := inv_of_reaches hreaches
  have hinv' := inv_step hinv hs
  have hredeemed : ∀ u ∈ s.shared.hydra.redeemed, u ∈ s'.shared.hydra.redeemed := fun u hu => by
    obtain ⟨v, g⟩ := guarantee_of_step hinv hs
    exact g.hydra.redeemed u hu
  have hstart : Revoking env s.shared.hydra.redeemed t request s' s' := by
    cases steps_of_step hs with
    | start hthread htimely hstart =>
      exact .before (s.thread_move_self t _ _) (before_of_start hstart hrevocation)
  obtain ⟨hinvd, hredeemedd, hrevoking⟩ := hd.invariant_of
    (P := fun d => Inv env d ∧ (∀ u ∈ s.shared.hydra.redeemed, u ∈ d.shared.hydra.redeemed) ∧
      Revoking env s.shared.hydra.redeemed t request s' d)
    (fun c hc => (hc.mono fun _ _ _ => trivial : Reaches (step env) Any s' c))
    ⟨hinv', hredeemed, hstart⟩
    fun c e c' hc hP hok hs => by
      obtain ⟨hinv, hredeemed, hrevoking⟩ := hP
      obtain ⟨v, g⟩ := guarantee_of_step hinv hs
      exact ⟨inv_step hinv hs, fun u hu => g.hydra.redeemed u (hredeemed u hu),
        revoking_step hinv hc hredeemed hrevoking hok hs⟩
  cases hrevoking with
  | before hthread hbefore =>
    obtain rfl := Option.some.inj (hthread.symm.trans hanswered)
    cases hbefore
  | refused hthread hrefused =>
    obtain rfl := Option.some.inj (hthread.symm.trans hanswered)
    cases outcome with
    | backchannelLogout result => cases result <;> simp_all [Outcome.revoked, Task.refused]
    | _ => cases hrefused
  | @ended selector hended huser hcovered =>
    refine ⟨selector, hended, huser, fun id session u hget hmem hu => ?_⟩
    -- A session that it matches would be a login's that is over.
    obtain ⟨issue, -, -, -, hlogin, hidentity⟩ := hinvd.shared.genuine id session hget
    have ids := hinvd.shared.ids
    obtain rfl := ids.task_unique id issue.login u (ids.saved_drawn _ hlogin)
      (ids.saved_drawn _ hmem)
    by_contra hmatches
    rw [Bool.not_eq_false, ← SessionSelector.names_eq_matches] at hmatches
    rw [(hcovered issue.login hu _ hidentity hmatches).gone id hmem] at hget
    cases hget

/-- An internal revocation of the sample's user. -/
def Sample.revokeUser (t : TaskId) (now : DateTime) : List Event :=
  [.resume t (at' now), .spawned t, .resume t (at' now)]

/-- A revocation that finds the session stored ends it. -/
theorem revocation_covers_logins_stored : ∃ d,
    run (step Sample.env) (State.start 0) (Sample.login 0 "a" 0 "access" "refresh" ++
      [.start 1 (.internalRevoke 1) 1] ++ Sample.revokeUser 1 1) = some d ∧
    d.thread 1 = some (.answered .internalRevoke) ∧
    ∀ session, d.shared.sessions.getSession "a" = some session →
      SessionSelector.matches (.user 1) session = false := by
  obtain ⟨s, hs, hreaches, hp⟩ := exists_run
    (fun s : State => decide (s.shared.hydra.redeemed = [0]))
    (by decide : (run (step Sample.env) (State.start 0)
      (Sample.login 0 "a" 0 "access" "refresh")).any _ = true)
  obtain ⟨s', hs', hstart, -, -⟩ := exists_run_append (fun _ : State => true) hs
    (by decide : (run (step Sample.env) (State.start 0) (Sample.login 0 "a" 0 "access" "refresh" ++
      [.start 1 (.internalRevoke 1) 1])).any _ = true)
  obtain ⟨d, hd, -, hlater, hp'⟩ := exists_run_append_of (LoginsSaved Sample.env [0] 1)
    (fun d : State => decide (d.thread 1 = some (.answered .internalRevoke) ∧
      ("a", 0) ∈ d.shared.saved)) hs'
    (by decide : (run (guarded (step Sample.env) (LoginsSaved Sample.env [0] 1)) (State.start 0)
      (Sample.login 0 "a" 0 "access" "refresh" ++ [.start 1 (.internalRevoke 1) 1] ++
        Sample.revokeUser 1 1)).any _ = true)
  have hredeemed := of_decide_eq_true hp
  rw [← hredeemed] at hlater
  obtain ⟨hanswered, hsaved⟩ := of_decide_eq_true hp'
  obtain ⟨selector, -, huser, hnone⟩ :=
    revocation_covers_logins hreaches rfl (step_of_run hstart) hlater rfl hanswered
  obtain rfl := huser 1 rfl
  exact ⟨d, hd, hanswered, fun session hget =>
    hnone "a" session 0 hget hsaved (by rw [hredeemed]; exact List.mem_cons_self)⟩

/-- **A login in flight outlives the revocation.** The code of task 0 is redeemed, a revocation of
its user comes and is answered, and then the session is saved. -/
theorem revocation_misses_login : ∃ s c d,
    run (step Sample.env) (State.start 0) (Sample.redeem 0 none 0 "access" "refresh") = some s ∧
    0 ∈ s.shared.hydra.redeemed ∧
    run (step Sample.env) s [.start 1 (.internalRevoke 1) 1, .resume 1 (Sample.at' 1),
      .resume 1 (Sample.at' 1)] = some c ∧
    c.thread 1 = some (.answered .internalRevoke) ∧
    run (step Sample.env) c (Sample.save 0 "a" 2) = some d ∧ ("a", 0) ∈ d.shared.saved ∧
    (d.shared.sessions.getSession "a").any (SessionSelector.matches (.user 1)) = true := by
  obtain ⟨s, hs, -, hp⟩ := exists_run (fun s : State => decide (0 ∈ s.shared.hydra.redeemed))
    (by decide : (run (step Sample.env) (State.start 0)
      (Sample.redeem 0 none 0 "access" "refresh")).any _ = true)
  obtain ⟨c, hc, hcs, -, hp'⟩ := exists_run_append
    (fun c : State => decide (c.thread 1 = some (.answered .internalRevoke))) hs
    (by decide : (run (step Sample.env) (State.start 0)
      (Sample.redeem 0 none 0 "access" "refresh" ++ [.start 1 (.internalRevoke 1) 1,
        .resume 1 (Sample.at' 1), .resume 1 (Sample.at' 1)])).any _ = true)
  obtain ⟨d, -, hdc, -, hp''⟩ := exists_run_append
    (fun d : State => decide (("a", 0) ∈ d.shared.saved ∧
      (d.shared.sessions.getSession "a").any (SessionSelector.matches (.user 1)) = true)) hc
    (by decide : (run (step Sample.env) (State.start 0)
      (Sample.redeem 0 none 0 "access" "refresh" ++ [.start 1 (.internalRevoke 1) 1,
        .resume 1 (Sample.at' 1), .resume 1 (Sample.at' 1)] ++ Sample.save 0 "a" 2)).any _ = true)
  exact ⟨s, c, d, hs, of_decide_eq_true hp, hcs, of_decide_eq_true hp', hdc,
    of_decide_eq_true hp''⟩

end Bff

end WeaveAuth
