import WeaveAuth.Bff.JtiReplay
import WeaveAuth.Bff.Moves

/-!
# The store of the `jti`s in a run of bff

`JtiReplay` is a system of its own: of bff it has the back-channel logouts up to the record of their
`jti`, and of the sweep the part that forgets. What is proved of its runs is meant of bff's. Here is
why it is: a run of bff, with all its other requests and with dropped ones, is a run of it.

## What the small system sees

A request is nowhere there until its claims have been checked, and stays where it was when it is
dropped: one that is dropped before its turn at the store never gets it. The clock of the small
system is the last reading that one of its own tasks took, so it may be behind bff's.

## Main results

* `follows_step`: a step of bff is one of the small system, or none
* `exists_follows`: a run of bff is a run of it
-/

namespace WeaveAuth

namespace Bff

open Transition

/-- The small system does not see it. -/
def Task.outside : Task → Bool
  | .backchannelLogout .verifyLogoutToken => true
  | .backchannelLogout _ => false
  | .sweep (.logoutJtis _) => false
  | .answered (.backchannelLogout (.ok ())) => false
  | .dropped => false
  | _ => true

/-- Where a task stands there. -/
inductive Stands : Option Task → Option JtiReplay.Task → Prop where
  | nobody : Stands none none
  | outside {task : Task} (h : task.outside = true) : Stands (some task) none
  | recording (claims : LogoutClaims) (now : DateTime) :
      Stands (some (.backchannelLogout (.record claims now))) (some (.recording claims now))
  | accepted (here : EndSessions) (claims : LogoutClaims) :
      Stands (some (.backchannelLogout (.endSessions here))) (some (.accepted claims))
  | answered (claims : LogoutClaims) :
      Stands (some (.answered (.backchannelLogout (.ok ())))) (some (.accepted claims))
  | replayed : Stands (some (.answered (.backchannelLogout (.error .replayed))))
      (some (.refused .replayed))
  | sweeping (now : DateTime) :
      Stands (some (.sweep (.logoutJtis now))) (some (.sweeping now))
  | swept : Stands (some (.answered .sweep)) (some .swept)
  | dropped (task : Option JtiReplay.Task) : Stands (some .dropped) task

/-- The store is the same, and so are those who use it. -/
structure Follows (c : State) (r : JtiReplay.State) : Prop where
  clock : r.shared.clock ≤ c.shared.clock
  logoutJtis : r.shared.logoutJtis = c.shared.logoutJtis
  thread : ∀ t, Stands (c.thread t) (r.thread t)

theorem follows_start (now : DateTime) : Follows (State.start now) (JtiReplay.start now) where
  clock := le_refl now
  logoutJtis := rfl
  thread _ := .nobody

variable {env : Env} {c : State} {r : JtiReplay.State}

/-- Nothing happens there. -/
theorem Follows.stutter (h : Follows c r) {t : TaskId} {w : World} {task : Task}
    (hclock : c.shared.clock ≤ w.clock) (hjtis : w.logoutJtis = c.shared.logoutJtis)
    (hstands : Stands (some task) (r.thread t)) : Follows (c.move t w (some task)) r where
  clock := h.clock.trans hclock
  logoutJtis := h.logoutJtis.trans hjtis.symm
  thread u := by
    by_cases hu : u = t
    · rw [hu, Threads.thread_move_self]
      exact hstands
    · rw [c.thread_move_ne hu]
      exact h.thread u

/-- The same task moves there. -/
theorem Follows.move (h : Follows c r) {t : TaskId} {w : World} {w' : JtiReplay.World} {task : Task}
    {task' : JtiReplay.Task} (hclock : w'.clock ≤ w.clock) (hjtis : w'.logoutJtis = w.logoutJtis)
    (hstands : Stands (some task) (some task')) :
    Follows (c.move t w (some task)) (r.move t w' (some task')) where
  clock := hclock
  logoutJtis := hjtis
  thread u := by
    by_cases hu : u = t
    · rw [hu, Threads.thread_move_self, Threads.thread_move_self]
      exact hstands
    · rw [c.thread_move_ne hu, r.thread_move_ne hu]
      exact h.thread u

/-- A task that is not seen is nowhere there. -/
theorem Follows.thread_eq_none (h : Follows c r) {t : TaskId} {task : Task}
    (hthread : c.thread t = some task) (hout : task.outside = true)
    (hanswered : ∀ outcome, task ≠ .answered outcome) : r.thread t = none := by
  have hstands := h.thread t
  rw [hthread] at hstands
  generalize r.thread t = o at hstands ⊢
  cases hstands with
  | outside => rfl
  | recording | accepted | answered | sweeping | dropped => cases hout
  | replayed | swept => exact absurd rfl (hanswered _)

theorem Stands.of_record {claims : LogoutClaims} {now : DateTime} {o : Option JtiReplay.Task}
    (h : Stands (some (.backchannelLogout (.record claims now))) o) :
    o = some (.recording claims now) := by
  cases h with
  | outside hout => cases hout
  | recording => rfl

theorem Stands.of_endSessions {here : EndSessions} {o : Option JtiReplay.Task}
    (h : Stands (some (.backchannelLogout (.endSessions here))) o) :
    ∃ claims, o = some (.accepted claims) := by
  cases h with
  | outside hout => cases hout
  | accepted _ claims => exact ⟨claims, rfl⟩

theorem Stands.of_logoutJtis {now : DateTime} {o : Option JtiReplay.Task}
    (h : Stands (some (.sweep (.logoutJtis now))) o) : o = some (.sweeping now) := by
  cases h with
  | outside hout => cases hout
  | sweeping => rfl

/-- A task that is not seen, and does not come to be seen, leaves the store alone. -/
theorem Resumes.of_outside {t : TaskId} {i : Input} {w w' : World} {task task' : Task}
    (h : Resumes env t i w task w' task') (htimely : w.clock ≤ i.now) (hnow : i.now ≤ i.now')
    (hout : task.outside = true) (hout' : task'.outside = true) :
    w.clock ≤ w'.clock ∧ w'.logoutJtis = w.logoutJtis := by
  have htimely' := htimely.trans hnow
  cases h with
  | valid | sweepSessions => cases hout'
  | replayed | recorded | endBackchannel | joinBackchannel | sweepJtis => cases hout
  | ended | freshAgain | refresh | verified | invalid => exact ⟨htimely, rfl⟩
  | fresh | acquire | tokens => exact ⟨htimely', rfl⟩
  | _ => exact ⟨le_refl _, rfl⟩

/-- A task runs. -/
theorem follows_resume {t : TaskId} {i : Input} {task task' : Task} {w : World}
    (h : Follows c r) (hthread : c.thread t = some task) (htimely : c.shared.clock ≤ i.now)
    (hnow : i.now ≤ i.now') (hresume : Resumes env t i c.shared task w task') :
    ∃ r', Reaches (JtiReplay.step env.parseStr) Any r r' ∧
      Follows (c.move t w (some task')) r' := by
  have hreaches : ∀ e r', JtiReplay.step env.parseStr r e = some r' →
      Reaches (JtiReplay.step env.parseStr) Any r r' := fun e r' => Reaches.refl.tail trivial
  have hclock := h.clock.trans htimely
  have hstands := h.thread t
  rw [hthread] at hstands
  by_cases hunseen : task.outside = true ∧ task'.outside = true
  · obtain ⟨hclock', hjtis⟩ := hresume.of_outside htimely hnow hunseen.1 hunseen.2
    have hnone := h.thread_eq_none hthread hunseen.1 (by cases hresume <;> simp)
    exact ⟨r, .refl, h.stutter hclock' hjtis (hnone ▸ .outside hunseen.2)⟩
  cases hresume with
  | @valid raw claims hdecoded hcheck =>
    have hnone := h.thread_eq_none hthread rfl (by simp)
    have hverify : LogoutToken.verify env.parseStr i.decoded i.now = .ok claims := by
      rw [hdecoded]
      exact hcheck
    refine ⟨r.move t { r.shared with clock := i.now' } (some (.recording claims i.now')),
      hreaches (.check t i.decoded i.now i.now') _ ?_,
      h.move (le_refl i.now') h.logoutJtis (.recording claims i.now')⟩
    simp only [JtiReplay.step, hnone, hclock, hnow, and_self, if_true, hverify]
  | @replayed claims now hrecord =>
    have hwaits := hstands.of_record
    rw [← h.logoutJtis] at hrecord
    refine ⟨r.move t r.shared (some (.refused .replayed)), hreaches (.record t) _ ?_,
      h.move h.clock h.logoutJtis .replayed⟩
    simp only [JtiReplay.step, hwaits, hrecord]
  | @recorded claims now jtis hrecord =>
    have hwaits := hstands.of_record
    rw [← h.logoutJtis] at hrecord
    refine ⟨r.move t { r.shared with logoutJtis := jtis } (some (.accepted claims)),
      hreaches (.record t) _ ?_, h.move h.clock rfl (.accepted _ claims)⟩
    simp only [JtiReplay.step, hwaits, hrecord]
  | endBackchannel =>
    obtain ⟨claims, haccepted⟩ := hstands.of_endSessions
    exact ⟨r, .refl, h.stutter (le_refl _) rfl (haccepted ▸ .accepted _ claims)⟩
  | joinBackchannel =>
    obtain ⟨claims, haccepted⟩ := hstands.of_endSessions
    exact ⟨r, .refl, h.stutter (le_refl _) rfl (haccepted ▸ .answered claims)⟩
  | sweepSessions =>
    have hnone := h.thread_eq_none hthread rfl (by simp)
    refine ⟨r.move t { r.shared with clock := i.now } (some (.sweeping i.now)),
      hreaches (.sweep t i.now) _ ?_, h.move (le_refl i.now) h.logoutJtis (.sweeping i.now)⟩
    simp only [JtiReplay.step, hnone, hclock, and_self, if_true]
  | @sweepJtis now =>
    have hwaits := hstands.of_logoutJtis
    refine ⟨r.move t { r.shared with logoutJtis := r.shared.logoutJtis.sweepExpired now }
      (some .swept), hreaches (.retain t) _ ?_,
      h.move h.clock (congrArg (JtiStorage.sweepExpired · now) h.logoutJtis) .swept⟩
    simp only [JtiReplay.step, hwaits]
  | _ => exact absurd ⟨rfl, rfl⟩ hunseen

/-- **A step of bff is one of the small system, or none.** -/
theorem follows_step {c' : State} {e : Event} (h : Follows c r) (hstep : step env c e = some c') :
    ∃ r', Reaches (JtiReplay.step env.parseStr) Any r r' ∧ Follows c' r' := by
  cases steps_of_step hstep with
  | @start t request now w task hthread htimely hstarts =>
    have hnone : r.thread t = none := by
      have hstands := h.thread t
      rw [hthread] at hstands
      generalize r.thread t = o at hstands ⊢
      cases hstands
      rfl
    have hout : task.outside = true := by cases hstarts <;> rfl
    refine ⟨r, .refl, h.stutter ?_ ?_ (hnone ▸ .outside hout)⟩
    · cases hstarts with
      | sweep => exact htimely.1
      | _ => exact le_refl _
    · cases hstarts <;> rfl
  | resume hthread htimely hnow hresume => exact follows_resume h hthread htimely.1 hnow hresume
  | drop hthread hdrops =>
    refine ⟨r, .refl, h.stutter ?_ ?_ (.dropped _)⟩
    · cases hdrops <;> exact le_refl _
    · cases hdrops <;> rfl
  | hydra => exact ⟨r, .refl, h.clock, h.logoutJtis, h.thread⟩
  | spawned => exact ⟨r, .refl, h.clock, h.logoutJtis, h.thread⟩

/-- **A run of bff is a run of the small system**: the same `jti`s are remembered at its end, and
whoever ends sessions for a logout token, or has answered one, has had its `jti` recorded there. -/
theorem exists_follows {now : DateTime}
    (hreaches : Reaches (step env) Any (State.start now) c) :
    ∃ r, Reaches (JtiReplay.step env.parseStr) Any (JtiReplay.start now) r ∧ Follows c r :=
  hreaches.simulates (follows_start now) fun _ _ _ _ h _ hstep => follows_step h hstep

end Bff

end WeaveAuth
