import WeaveAuth.Bff.Invariant

/-!
# A session that is gone stays gone

Once a session id has left the store, whoever took it out, nothing stores a session under it
again: a login draws an id of its own, and a refresh's `update_session` finds none. A refresh that
was under way at that moment does not hand out the tokens it gets.

## Main results

* `removed_for_good`

## Scope

The clock is not set back; nothing else is asked of a run, and whoever removed the id may have been
dropped since. A session id is drawn once: `Uuid::new_v4` is taken to return an id that no task has
drawn before, and this is what the result rests on, with the check in `update_session`.

## How the proof goes

From the removal on, the id is saved and not stored (`World.Gone`), which every step keeps by its
guarantee. A refresh that was between Hydra and the store at that moment is `TooLate`: whatever
Hydra answers, it goes on to an error and stores nothing, and every state on the way is listed.
-/

namespace WeaveAuth

namespace Bff

open Transition

variable {env : Env} {id : String} {t : TaskId}

/-- The id was saved by a login, and nothing is stored under it. -/
def World.Gone (w : World) (id : String) : Prop :=
  (∃ t, (id, t) ∈ w.saved) ∧ w.sessions.getSession id = none

theorem gone_step {c c' : State} {e : Event} (hinv : Inv env c) (hgone : c.shared.Gone id)
    (hs : step env c e = some c') : c'.shared.Gone id := by
  obtain ⟨u, g⟩ := guarantee_of_step hinv hs
  obtain ⟨⟨v, hsaved⟩, hnone⟩ := hgone
  exact ⟨⟨v, g.saved _ hsaved⟩, g.gone ⟨v, hsaved⟩ hnone⟩

/-- The task is in `refresh_session`, between its call to Hydra and the store. -/
def Task.refreshes (id : String) : Task → Bool
  | .proxied sessionId (.refresh _) | .proxied sessionId (.updateSession _) => sessionId = id
  | _ => false

/-- What becomes of a refresh whose session is gone: it goes on to its end, which is an error, and
`Unauthenticated` where Hydra gave it tokens. -/
def Task.TooLate (id : String) (t : TaskId) (w : World) : Task → Prop
  | .proxied sessionId (.refresh _) | .proxied sessionId (.updateSession _)
  | .proxied sessionId (.takeSession _ _) | .proxied sessionId (.revoke _) => sessionId = id
  | .answered outcome => ∃ error answer, outcome = .proxied (.error error) ∧
      w.hydra.answer? t = some answer ∧
      ∀ tokens, tokenRequest answer = .ok tokens → error = .unauthenticated
  | .dropped => True
  | _ => False

theorem Task.TooLate.stable {task : Task} {u : TaskId} {w w' : World}
    (h : task.TooLate id t w) (g : Guarantee u w w') : task.TooLate id t w' := by
  cases task with
  | proxied sessionId here => cases here <;> exact h
  | answered outcome =>
    obtain ⟨error, answer, houtcome, hanswer, htokens⟩ := h
    exact ⟨error, answer, houtcome, g.hydra.answer? hanswer, htokens⟩
  | dropped => trivial
  | _ => exact h

/-- The refresh's own steps. -/
theorem Resumes.tooLate {i : Input} {w w' : World} {task task' : Task}
    (h : Resumes env t i w task w' task') (hown : Standing env t w (some task))
    (g : Guarantee t w w') (hgone : w'.sessions.getSession id = none)
    (hlate : task.TooLate id t w) : task'.TooLate id t w' := by
  cases h with
  | tokens hanswer htokens => exact hlate
  | rejected hanswer htokens => exact hlate
  | unavailable hanswer htokens =>
    refine ⟨_, _, rfl, g.hydra.answer? hanswer, fun tokens hok => ?_⟩
    rw [htokens] at hok
    cases hok
  | sessionGone => exact hlate
  | @updateSession sessionId data sessions hupdate =>
    have hget := (Sessions.get_updateSession hupdate).2 id
    rw [if_pos (hlate : sessionId = id).symm] at hget
    exact absurd (hgone.symm.trans hget) (Option.some_ne_none data).symm
  | takeRefused =>
    obtain ⟨⟨session, answer, -, hcall, hrejected⟩, -⟩ := hown
    refine ⟨_, answer, rfl, g.hydra.answer? (HydraServer.answer?_of_call hcall),
      fun tokens hok => ?_⟩
    rw [Answer.isRejected, hok] at hrejected
    cases hrejected
  | revokeLate =>
    obtain ⟨⟨session, data, hrenewed, -, -⟩, -⟩ := hown
    obtain ⟨answer, tokens, now, now', hcall, -⟩ := hrenewed.answer
    exact ⟨_, answer, rfl, g.hydra.answer? (HydraServer.answer?_of_call hcall), fun _ _ => rfl⟩
  | _ => exact absurd hlate (by simp [Task.TooLate])

theorem tooLate_step {c c' : State} {e : Event} (hinv : Inv env c)
    (hgone : c'.shared.sessions.getSession id = none)
    (hlate : ∃ task, c.thread t = some task ∧ task.TooLate id t c.shared)
    (hs : step env c e = some c') :
    ∃ task, c'.thread t = some task ∧ task.TooLate id t c'.shared := by
  obtain ⟨task, htask, hlate⟩ := hlate
  cases seenFrom_of_step hinv htask hs with
  | other htu g hquiet hthread => exact ⟨task, hthread, hlate.stable g⟩
  | hydra h => exact ⟨task, htask, hlate.stable (Guarantee.serve (t := t) h)⟩
  | resume htimely hnow h =>
    have hown := hinv.standing htask
    exact ⟨_, c.thread_move_self t _ _,
      h.tooLate hown (h.guarantee hown htimely hnow) hgone hlate⟩
  | drop => exact ⟨.dropped, c.thread_move_self t _ _, trivial⟩

/-- **No resurrection.** A step takes the session `id` out of the store. In no later state is
anything stored under `id`; and of a refresh of `id` that was under way at that step, whatever
answer there is later is an error, and `Unauthenticated` if Hydra gave it tokens. -/
theorem removed_for_good {ok ok' : State → Event → Prop} {now : DateTime} {c c' d : State}
    {e : Event} (hc : Reaches (step env) ok (State.start now) c) (hs : step env c e = some c')
    (hstored : c.shared.sessions.getSession id ≠ none)
    (hremoved : c'.shared.sessions.getSession id = none) (hd : Reaches (step env) ok' c' d) :
    d.shared.sessions.getSession id = none ∧
    ∀ t task outcome, c.thread t = some task → task.refreshes id = true →
      d.thread t = some (.answered outcome) →
      ∃ error answer, outcome = .proxied (.error error) ∧ d.shared.hydra.answer? t = some answer ∧
        ∀ tokens, tokenRequest answer = .ok tokens → error = .unauthenticated := by
  have hinv := inv_of_reaches hc
  have hinv' := inv_step hinv hs
  obtain ⟨session, hsession⟩ := Option.ne_none_iff_exists'.mp hstored
  have hgone : c'.shared.Gone id := by
    obtain ⟨u, g⟩ := guarantee_of_step hinv hs
    obtain ⟨v, hsaved⟩ := (hinv.shared.genuine id session hsession).saved
    exact ⟨⟨v, g.saved _ hsaved⟩, hremoved⟩
  -- What is kept from then on, for any refresh under way.
  have hkeep : ∀ {P : State → Prop}, P c' → (∀ u e v, Inv env u → v.shared.Gone id → P u →
      step env u e = some v → P v) → d.shared.Gone id ∧ P d := fun {P} h₀ hstep => by
    have h := hd.invariant (P := fun u => Inv env u ∧ u.shared.Gone id ∧ P u) ⟨hinv', hgone, h₀⟩
      fun u e v hu _ huv => by
        have hv := gone_step hu.1 hu.2.1 huv
        exact ⟨inv_step hu.1 huv, hv, hstep u e v hu.1 hv hu.2.2 huv⟩
    exact h.2
  refine ⟨(hkeep (P := fun _ => True) trivial fun _ _ _ _ _ _ _ => trivial).1.2,
    fun t task outcome htask hrefreshes houtcome => ?_⟩
  have htooLate : task.TooLate id t c.shared := by
    cases task with
    | proxied sessionId here =>
      cases here <;> simp only [Task.refreshes, decide_eq_true_eq, Bool.false_eq_true] at hrefreshes
      · exact hrefreshes
      · exact hrefreshes
    | _ => cases hrefreshes
  obtain ⟨-, task', htask', hlate⟩ := hkeep
    (tooLate_step hinv hremoved ⟨task, htask, htooLate⟩ hs)
    fun u e v hu hv hlate huv => tooLate_step hu hv.2 hlate huv
  obtain rfl := Option.some.inj (htask'.symm.trans houtcome)
  exact hlate

/-- A login, a refresh that waits for Hydra, and a logout that has arrived. -/
def Sample.refreshAndLogout : List Event :=
  login 0 "a" 0 "access" "refresh" ++ refresh 1 "a" 900000000000 ++
    [.start 2 (.logout (some "a") none) 900000000000]

/-- The logout takes the session. -/
def Sample.logoutTakes : Event := .resume 2 (at' 900000000000)

/-- Hydra answers the refresh, and the refresh runs to its end. -/
def Sample.refreshEnds : List Event :=
  [.hydra 1 900000000000 (.granted (some "refresh'")) (tokens "access'" "refresh'"),
    .resume 1 (at' 900000000000), .resume 1 (at' 900000000000), .resume 1 (at' 900000000000)]

/-- The refresh gets its tokens and answers `Unauthenticated`. -/
theorem removed_for_good_logout : ∃ d,
    run (step Sample.env) (State.start 0)
      (Sample.refreshAndLogout ++ [Sample.logoutTakes] ++ Sample.refreshEnds) = some d ∧
    d.shared.sessions.getSession "a" = none ∧
    d.thread 1 = some (.answered (.proxied (.error .unauthenticated))) := by
  obtain ⟨c, hc, hreaches, hp⟩ := exists_run
    (fun c => (c.shared.sessions.getSession "a").isSome && (c.thread 1).any (Task.refreshes "a"))
    (by decide : (run (step Sample.env) (State.start 0) Sample.refreshAndLogout).any _ = true)
  obtain ⟨c', hc', hs, -, hp'⟩ := exists_run_append
    (fun c => (c.shared.sessions.getSession "a").isNone) hc
    (by decide : (run (step Sample.env) (State.start 0)
      (Sample.refreshAndLogout ++ [Sample.logoutTakes])).any _ = true)
  obtain ⟨d, hd, -, hlater, hp''⟩ := exists_run_append
    (fun d : State =>
      decide (d.thread 1 = some (.answered (.proxied (.error .unauthenticated))))) hc'
    (by decide : (run (step Sample.env) (State.start 0)
      (Sample.refreshAndLogout ++ [Sample.logoutTakes] ++ Sample.refreshEnds)).any _ = true)
  obtain ⟨hstored, -⟩ := Bool.and_eq_true_iff.mp hp
  have hgone := removed_for_good hreaches (step_of_run hs) (Option.isSome_iff_ne_none.mp hstored)
    (Option.isNone_iff_eq_none.mp hp') hlater
  exact ⟨d, hd, hgone.1, of_decide_eq_true hp''⟩

end Bff

end WeaveAuth
