import WeaveAuth.Bff.LoginsInFlight
import WeaveAuth.Bff.Removal

/-!
# A logout that Hydra need not send again

A back-channel logout remembers its token's `jti` before it ends the sessions, and from then on a
retry of the token is refused as a replay. So what the token names has to end in this request or
not at all. Between the two is an await: `sessions.revoke` waits for the store's mutex, and a
request that is dropped there ends nothing.

## Main results

* `logout_delivered`: a logout that recorded its `jti`, and is not dropped where it waits for the
  store while there is something to end, has ended every session its selector matched
* `dropped_logout_lost`: one that is dropped there leaves them, and the retry is refused

## Scope

A drop at any other await is covered, and so are the drops of other requests. How long the `jti` is
remembered is `Bff.JtiReplay`'s matter.

The run of the theorem is in two parts, since the condition is about what comes after `record`: up
to there it is any run. The clock is not set back in either. The condition is on drops of this one
request alone, and on none where nothing is stored that it would end.
-/

namespace WeaveAuth

namespace Bff

open Transition

variable {env : Env} {t : TaskId} {c c' d : State}

/-- The request is over. -/
def Task.isOver : Task → Bool
  | .answered _ | .dropped => true
  | _ => false

/-- `t` is not dropped between `record` and `end_sessions` while a session is stored that it is
about to end. -/
def NotDroppedInBetween (t : TaskId) (c : State) : Event → Prop
  | .drop u => u = t → ∀ selector ∈ (c.thread t).bind Task.revokes,
      c.shared.sessions.scan selector = []
  | _ => True

instance (t : TaskId) (c : State) : (e : Event) → Decidable (NotDroppedInBetween t c e)
  | .drop _ => inferInstanceAs (Decidable (_ → ∀ selector ∈ (c.thread t).bind Task.revokes,
      c.shared.sessions.scan selector = []))
  | .start _ _ _ | .resume _ _ | .hydra _ _ _ _ | .spawned _ => .isTrue trivial

/-- The id is that of a login whose user the selector names. -/
def World.Named (env : Env) (w : World) (selector : SessionSelector) (id : String) : Prop :=
  ∃ u verified, (id, u) ∈ w.saved ∧ identityOf env w u = some verified ∧
    selector.names verified = true

theorem named_of_matches {w : World} {selector : SessionSelector} {id : String}
    {session : SessionData} (hcore : Core env w) (hget : w.sessions.getSession id = some session)
    (hmatches : selector.matches session = true) : w.Named env selector id := by
  obtain ⟨issue, -, -, -, hlogin, hidentity⟩ := hcore.genuine id session hget
  exact ⟨issue.login, _, hlogin, hidentity, by rwa [SessionSelector.names_eq_matches]⟩

theorem World.Named.mono {u : TaskId} {w w' : World} {selector : SessionSelector} {id : String}
    (h : w.Named env selector id) (g : Guarantee u w w') : w'.Named env selector id := by
  obtain ⟨v, verified, hsaved, hidentity, hnames⟩ := h
  exact ⟨v, verified, g.saved _ hsaved, identityOf_mono g.hydra hidentity, hnames⟩

/-- Whatever has become of the session since, the selector still matches it. -/
theorem World.Named.matches {w : World} {selector : SessionSelector} {id : String}
    {session : SessionData} (hcore : Core env w) (h : w.Named env selector id)
    (hget : w.sessions.getSession id = some session) : selector.matches session = true := by
  obtain ⟨u, verified, hsaved, hidentity, hnames⟩ := h
  obtain ⟨issue, -, -, -, hlogin, hidentity'⟩ := hcore.genuine id session hget
  obtain rfl := hcore.ids.task_unique id issue.login u (hcore.ids.saved_drawn _ hlogin)
    (hcore.ids.saved_drawn _ hsaved)
  obtain rfl := Option.some.inj (hidentity'.symm.trans hidentity)
  rwa [SessionSelector.names_eq_matches] at hnames

/-- A revocation leaves nothing under an id it names. -/
theorem World.Named.gone_revoke {w : World} {selector : SessionSelector} {id : String}
    (hcore : Core env w) (h : w.Named env selector id) :
    (w.sessions.revoke selector).2.getSession id = none := by
  rw [hcore.indexed.get_revoke]
  cases hget : w.sessions.getSession id with
  | none => rfl
  | some session => simp [Option.filter, h.matches hcore hget]

theorem World.Named.gone_of_scan {w : World} {selector : SessionSelector} {id : String}
    (hcore : Core env w) (h : w.Named env selector id) (hscan : w.sessions.scan selector = []) :
    w.sessions.getSession id = none := by
  cases hget : w.sessions.getSession id with
  | none => rfl
  | some session =>
    have hmem : (id, session) ∈ w.sessions.scan selector :=
      List.mem_filter.mpr ⟨HashMap.mem_pairs.mpr hget, h.matches hcore hget⟩
    rw [hscan] at hmem
    cases hmem

/-- Where a logout stands that has remembered its `jti`: it waits for the store, or the session
`id`, which its selector matched then, is gone. -/
inductive Logout (env : Env) (t : TaskId) (selector : SessionSelector) (id : String) (d : State) :
    Prop where
  | waits (hthread : d.thread t = some (.backchannelLogout (.endSessions (.revoke selector))))
      (hnamed : d.shared.Named env selector id)
  | delivered (hgone : d.shared.Gone id)

theorem logout_step {selector : SessionSelector} {id : String} {d' : State} {e : Event}
    (hinv : Inv env d) (h : Logout env t selector id d) (hok : NotDroppedInBetween t d e)
    (hs : step env d e = some d') : Logout env t selector id d' := by
  cases h with
  | delivered hgone => exact .delivered (gone_step hinv hgone hs)
  | waits hthread hnamed =>
    obtain ⟨v, g⟩ := guarantee_of_step hinv hs
    have hnamed' := hnamed.mono g
    cases seenFrom_of_step hinv hthread hs with
    | other htu _ _ hsame => exact .waits hsame hnamed'
    | hydra => exact .waits hthread hnamed'
    | drop hdrops =>
      -- There was nothing left to end.
      have hnothing : d.shared.sessions.scan selector = [] :=
        hok rfl selector (by rw [hthread]; rfl)
      have hgone := hnamed.gone_of_scan hinv.shared hnothing
      obtain ⟨u, -, hsaved, -⟩ := hnamed'
      refine .delivered ⟨⟨u, hsaved⟩, ?_⟩
      rw [Threads.shared_move, hdrops.sessions]
      exact hgone
    | resume htimely hnow hresumes =>
      cases hresumes
      obtain ⟨u, -, hsaved, -⟩ := hnamed'
      exact .delivered ⟨⟨u, hsaved⟩, hnamed.gone_revoke hinv.shared⟩

/-- A `jti` that is not refused sends the request on to the store. -/
theorem thread_of_recorded {i : Input} {claims : LogoutClaims} {now : DateTime}
    (hthread : c.thread t = some (.backchannelLogout (.record claims now)))
    (hrecorded : (c.shared.logoutJtis.record now claims.jti claims.replayUntil).isSome)
    (hs : step env c (.resume t i) = some c') :
    c'.thread t = some (.backchannelLogout (.endSessions (.revoke claims.target))) := by
  obtain ⟨jtis, hjtis⟩ := Option.isSome_iff_exists.mp hrecorded
  simp only [step, hthread, Task.resume, Backchannel.resume, hjtis] at hs
  split at hs
  · cases hs
    exact c.thread_move_self t _ _
  · cases hs

/-- **A logout that is remembered has happened.** In `c` the request remembers its token's `jti`,
and in `d` it is answered or dropped. If it was not dropped where it waited for the store after
that, or only when the selector matched no stored session any more, no session is stored in `d`
under an id whose session the token's selector matched in `c`. -/
theorem logout_delivered {now₀ now : DateTime} {i : Input} {claims : LogoutClaims}
    (hc : Reaches (step env) Any (State.start now₀) c)
    (hthread : c.thread t = some (.backchannelLogout (.record claims now)))
    (hrecorded : (c.shared.logoutJtis.record now claims.jti claims.replayUntil).isSome)
    (hs : step env c (.resume t i) = some c') (hd : Reaches (step env) (NotDroppedInBetween t) c' d)
    (hover : (d.thread t).any Task.isOver = true) :
    ∀ id session, c.shared.sessions.getSession id = some session →
      claims.target.matches session = true → d.shared.sessions.getSession id = none := by
  intro id session hget hmatches
  have hinv := inv_of_reaches hc
  obtain ⟨u, g⟩ := guarantee_of_step hinv hs
  have hstart : Logout env t claims.target id c' :=
    .waits (thread_of_recorded hthread hrecorded hs)
      ((named_of_matches hinv.shared hget hmatches).mono g)
  obtain ⟨-, hlogout⟩ := hd.invariant
    (P := fun d => Inv env d ∧ Logout env t claims.target id d)
    ⟨inv_step hinv hs, hstart⟩
    fun d e d' h hok hs => ⟨inv_step h.1 hs, logout_step h.1 h.2 hok hs⟩
  cases hlogout with
  | waits hwaits =>
    rw [hwaits] at hover
    cases hover
  | delivered hgone => exact hgone.2

/-- A logout token for the login session of the sample's login, at the first second. -/
def Sample.logoutToken : Json :=
  .obj [("iat", .int 0), ("events", .obj [(LogoutToken.backchannelLogoutEvent, .obj [])]),
    ("sid", .str "login"), ("jti", .str "j")]

/-- A logout with that token, up to the verified token. -/
def Sample.logoutArrives (t : TaskId) (now : DateTime) : List Event :=
  [.start t .backchannelLogout now, .resume t { at' now with decoded := .ok logoutToken }]

/-- The session is stored and `t` is about to remember the sample token's `jti`, which is new. -/
def Sample.recording (t : TaskId) (now : DateTime) (c : State) : Bool :=
  let claims : LogoutClaims :=
    ⟨.session "login", "j", LogoutToken.maxAge + LogoutToken.leeway⟩
  decide (c.thread t = some (.backchannelLogout (.record claims now))) &&
    (c.shared.logoutJtis.record now claims.jti claims.replayUntil).isSome &&
    (c.shared.sessions.getSession "a").any claims.target.matches

/-- One that waits for the store, and gets it, ends the session. -/
theorem logout_delivered_sample : ∃ d,
    run (step Sample.env) (State.start 0) (Sample.login 0 "a" 0 "access" "refresh" ++
      Sample.logoutArrives 1 1 ++ [.resume 1 (Sample.at' 1)] ++
      [.resume 1 (Sample.at' 1), .drop 1]) = some d ∧
    d.thread 1 = some .dropped ∧ d.shared.sessions.getSession "a" = none := by
  obtain ⟨c, hc, hreaches, hp⟩ := exists_run (Sample.recording 1 1)
    (by decide : (run (step Sample.env) (State.start 0)
      (Sample.login 0 "a" 0 "access" "refresh" ++ Sample.logoutArrives 1 1)).any _ = true)
  obtain ⟨c', hc', hs, -, -⟩ := exists_run_append (fun _ : State => true) hc
    (by decide : (run (step Sample.env) (State.start 0)
      (Sample.login 0 "a" 0 "access" "refresh" ++ Sample.logoutArrives 1 1 ++
        [.resume 1 (Sample.at' 1)])).any _ = true)
  obtain ⟨d, hd, -, hlater, hp'⟩ := exists_run_append_of (NotDroppedInBetween 1)
    (fun d : State => decide (d.thread 1 = some .dropped)) hc'
    (by decide : (run (guarded (step Sample.env) (NotDroppedInBetween 1)) (State.start 0)
      (Sample.login 0 "a" 0 "access" "refresh" ++ Sample.logoutArrives 1 1 ++
        [.resume 1 (Sample.at' 1)] ++ [.resume 1 (Sample.at' 1), .drop 1])).any _ = true)
  simp only [Sample.recording, Bool.and_eq_true, decide_eq_true_eq] at hp
  obtain ⟨⟨hthread, hrecorded⟩, hstored⟩ := hp
  obtain ⟨session, hget, hmatches⟩ := Option.any_eq_true _ _ |>.mp hstored
  have hdropped := of_decide_eq_true hp'
  exact ⟨d, hd, hdropped, logout_delivered hreaches hthread hrecorded (step_of_run hs) hlater
    (by rw [hdropped]; rfl) "a" session hget hmatches⟩

/-- **A dropped logout is lost.** The `jti` is remembered, the request is dropped where it waits
for the store, the session the token names lives on, and the retry is refused as a replay. -/
theorem dropped_logout_lost : ∃ c c' d,
    run (step Sample.env) (State.start 0)
      (Sample.login 0 "a" 0 "access" "refresh" ++ Sample.logoutArrives 1 1) = some c ∧
    Sample.recording 1 1 c = true ∧
    run (step Sample.env) c [.resume 1 (Sample.at' 1), .drop 1] = some c' ∧
    c'.thread 1 = some .dropped ∧
    (c'.shared.sessions.getSession "a").any (SessionSelector.matches (.session "login")) = true ∧
    run (step Sample.env) c' (Sample.logoutArrives 2 2 ++ [.resume 2 (Sample.at' 2)]) = some d ∧
    d.thread 2 = some (.answered (.backchannelLogout (.error .replayed))) ∧
    (d.shared.sessions.getSession "a").isSome = true := by
  obtain ⟨c, hc, -, hp⟩ := exists_run (Sample.recording 1 1)
    (by decide : (run (step Sample.env) (State.start 0)
      (Sample.login 0 "a" 0 "access" "refresh" ++ Sample.logoutArrives 1 1)).any _ = true)
  obtain ⟨c', hc', hcc', -, hp'⟩ := exists_run_append
    (fun c' : State => decide (c'.thread 1 = some .dropped ∧
      (c'.shared.sessions.getSession "a").any (SessionSelector.matches (.session "login")) = true))
    hc
    (by decide : (run (step Sample.env) (State.start 0)
      (Sample.login 0 "a" 0 "access" "refresh" ++ Sample.logoutArrives 1 1 ++
        [.resume 1 (Sample.at' 1), .drop 1])).any _ = true)
  obtain ⟨d, -, hd, -, hp''⟩ := exists_run_append
    (fun d : State => decide (
      d.thread 2 = some (.answered (.backchannelLogout (.error .replayed))) ∧
      (d.shared.sessions.getSession "a").isSome = true)) hc'
    (by decide : (run (step Sample.env) (State.start 0)
      (Sample.login 0 "a" 0 "access" "refresh" ++ Sample.logoutArrives 1 1 ++
        [.resume 1 (Sample.at' 1), .drop 1] ++
        (Sample.logoutArrives 2 2 ++ [.resume 2 (Sample.at' 2)]))).any _ = true)
  obtain ⟨hdropped, hlives⟩ := of_decide_eq_true hp'
  obtain ⟨hreplayed, hlives'⟩ := of_decide_eq_true hp''
  exact ⟨c, c', d, hc, hp, hcc', hdropped, hlives, hd, hreplayed, hlives'⟩

end Bff

end WeaveAuth
