import Mathlib.Data.Option.Basic

/-!
# Runs of a deterministic transition function

`step : σ → ε → Option σ` takes one event; `none` says that the event cannot happen there. The
nondeterminism of a system is the choice of the events, and an assumption about its environment
is a relation `ok : σ → ε → Prop` between a state and the event about to happen in it.

`Reaches step ok s t` says that some sequence of events, each allowed where it happens, leads from
`s` to `t`. `run step s es` runs one given sequence and is what an example evaluates.

## Main results

* `Reaches.invariant`: what holds at first and is kept by every allowed step holds throughout
* `Reaches.invariant_of`: the same, using what is known of every state on the way
* `reaches_of_run`: a given sequence of allowed events is a run
* `run_erase`: leaving out the events that a simulation does not see

## Implementation notes

A step is a function and not a relation, so that a given run is evaluated, and a run of a theorem
and a run of an example are about the same thing. `ok` is a relation of its own and no part of the
step: one system is looked at under several assumptions, and `Reaches.mono` goes from the stronger
to the weaker.

`run_erase` and `Transition.simulates` are for two systems. The first leaves events out of a run of
the same system; the second follows a run of one system in another, where a step may be no step at
all.
-/

namespace WeaveAuth

namespace Transition

variable {σ ε : Type*} {step : σ → ε → Option σ} {ok ok' : σ → ε → Prop}

/-- `t` is reached from `s` by steps that `ok` allows. -/
inductive Reaches (step : σ → ε → Option σ) (ok : σ → ε → Prop) (s : σ) : σ → Prop where
  | refl : Reaches step ok s s
  | tail {t u : σ} {e : ε} : Reaches step ok s t → ok t e → step t e = some u →
      Reaches step ok s u

theorem Reaches.trans {s t u : σ} (hst : Reaches step ok s t) (htu : Reaches step ok t u) :
    Reaches step ok s u := by
  induction htu with
  | refl => exact hst
  | tail _ hok hstep ih => exact ih.tail hok hstep

/-- Fewer events allowed, fewer states reached. -/
theorem Reaches.mono (h : ∀ s e, ok s e → ok' s e) {s t : σ} (hst : Reaches step ok s t) :
    Reaches step ok' s t := by
  induction hst with
  | refl => exact .refl
  | tail _ hok hstep ih => exact ih.tail (h _ _ hok) hstep

/-- The same, where what is known of every state on the way may be used. -/
theorem Reaches.mono_of {P : σ → Prop} {s t : σ} (hst : Reaches step ok s t)
    (hP : ∀ u, Reaches step ok s u → P u)
    (h : ∀ u e v, P u → ok u e → step u e = some v → ok' u e) : Reaches step ok' s t := by
  induction hst with
  | refl => exact .refl
  | tail hsu hok hstep ih => exact ih.tail (h _ _ _ (hP _ hsu) hok hstep) hstep

/-- What is known of every state on the way may be used in each step. -/
theorem Reaches.invariant_of {P Q : σ → Prop} {s t : σ} (hst : Reaches step ok s t)
    (hQ : ∀ u, Reaches step ok s u → Q u) (h₀ : P s)
    (hstep : ∀ u e v, Q u → P u → ok u e → step u e = some v → P v) : P t := by
  induction hst with
  | refl => exact h₀
  | tail hsu hok h ih => exact hstep _ _ _ (hQ _ hsu) ih hok h

/-- **The invariant rule.** -/
theorem Reaches.invariant {P : σ → Prop} {s t : σ} (hst : Reaches step ok s t) (h₀ : P s)
    (hstep : ∀ u e v, P u → ok u e → step u e = some v → P v) : P t :=
  hst.invariant_of (Q := fun _ => True) (fun _ _ => trivial) h₀
    fun u e v _ hu hok h => hstep u e v hu hok h

/-- **Simulation.** Where each step of one system is some steps of another, or none, from related
states to related ones, its runs are runs of the other. -/
theorem Reaches.simulates {σ' ε' : Type*} {step' : σ' → ε' → Option σ'} {ok'' : σ' → ε' → Prop}
    {R : σ → σ' → Prop} {s t : σ} {r : σ'} (hst : Reaches step ok s t) (h₀ : R s r)
    (hstep : ∀ u e v q, R u q → ok u e → step u e = some v →
      ∃ q', Reaches step' ok'' q q' ∧ R v q') :
    ∃ r', Reaches step' ok'' r r' ∧ R t r' := by
  induction hst with
  | refl => exact ⟨r, .refl, h₀⟩
  | tail _ hok h ih =>
    obtain ⟨q, hq, hR⟩ := ih
    obtain ⟨q', hq', hR'⟩ := hstep _ _ _ _ hR hok h
    exact ⟨q', hq.trans hq', hR'⟩

/-! ### Given sequences -/

/-- Run the events in order. -/
def run (step : σ → ε → Option σ) : σ → List ε → Option σ
  | s, [] => some s
  | s, e :: es => (step s e).bind fun t => run step t es

theorem run_append (es fs : List ε) : ∀ s : σ,
    run step s (es ++ fs) = (run step s es).bind fun t => run step t fs := by
  induction es with
  | nil => intro s; rfl
  | cons e es ih =>
    intro s
    simp only [List.cons_append, run, Option.bind_assoc, ih]

/-- Each event is allowed in the state it happens in. -/
def Allowed (step : σ → ε → Option σ) (ok : σ → ε → Prop) : σ → List ε → Prop
  | _, [] => True
  | s, e :: es => ok s e ∧ ∀ t ∈ step s e, Allowed step ok t es

theorem allowed_cons {s t : σ} {e : ε} {es : List ε} (hstep : step s e = some t) (he : ok s e)
    (hes : Allowed step ok t es) : Allowed step ok s (e :: es) :=
  ⟨he, fun u hu => by rwa [Option.some.inj (hstep.symm.trans hu)] at hes⟩

theorem reaches_of_run {t : σ} : ∀ {es : List ε} {s : σ}, Allowed step ok s es →
    run step s es = some t → Reaches step ok s t := by
  intro es
  induction es with
  | nil =>
    intro s _ hrun
    obtain rfl : s = t := by simpa [run] using hrun
    exact .refl
  | cons e es ih =>
    intro s hallowed hrun
    obtain ⟨u, hstep, hrest⟩ := Option.bind_eq_some_iff.mp hrun
    exact (Reaches.refl.tail hallowed.1 hstep).trans (ih (hallowed.2 u hstep) hrest)

/-- **Erasing events.** If every event not kept leaves a state related to the other run's, and
every one kept can be matched there, the run without them is a run and ends in a related state. -/
theorem run_erase {R : σ → σ → Prop} {keep : ε → Bool}
    (hkeep : ∀ s r e s', R s r → ok s e → keep e = true → step s e = some s' →
      ∃ r', step r e = some r' ∧ R s' r')
    (hdrop : ∀ s r e s', R s r → ok s e → keep e = false → step s e = some s' → R s' r) :
    ∀ {es : List ε} {s r t : σ}, R s r → Allowed step ok s es → run step s es = some t →
      ∃ r', run step r (es.filter keep) = some r' ∧ R t r' := by
  intro es
  induction es with
  | nil =>
    intro s r t hR _ hrun
    obtain rfl : s = t := by simpa [run] using hrun
    exact ⟨r, rfl, hR⟩
  | cons e es ih =>
    intro s r t hR hallowed hrun
    obtain ⟨u, hstep, hrest⟩ := Option.bind_eq_some_iff.mp hrun
    have hnext := hallowed.2 u hstep
    cases hk : keep e with
    | false =>
      rw [List.filter_cons_of_neg (by simp [hk])]
      exact ih (hdrop s r e u hR hallowed.1 hk hstep) hnext hrest
    | true =>
      obtain ⟨r', hr', hR'⟩ := hkeep s r e u hR hallowed.1 hk hstep
      obtain ⟨r'', hrun', hR''⟩ := ih hR' hnext hrest
      rw [List.filter_cons_of_pos hk]
      exact ⟨r'', Option.bind_eq_some_iff.mpr ⟨r', hr', hrun'⟩, hR''⟩

/-- Where every event is allowed, a run is enough. -/
theorem allowed_of_forall (h : ∀ s e, ok s e) (es : List ε) : ∀ s : σ,
    Allowed step ok s es := by
  induction es with
  | nil => intro s; trivial
  | cons e es ih => intro s; exact ⟨h s e, fun t _ => ih t⟩

/-- No assumption. -/
abbrev Any : σ → ε → Prop := fun _ _ => True

/-- A given sequence of events that can happen and ends where `p` holds. -/
theorem exists_run (p : σ → Bool) {s : σ} {es : List ε} (h : (run step s es).any p = true) :
    ∃ t, run step s es = some t ∧ Reaches step Any s t ∧ p t = true := by
  obtain ⟨t, ht, hp⟩ := (Option.any_eq_true p (run step s es)).mp h
  exact ⟨t, ht, reaches_of_run (allowed_of_forall (fun _ _ => trivial) es s) ht, hp⟩

/-- One that goes on from a given one. -/
theorem exists_run_append (p : σ → Bool) {s t : σ} {es fs : List ε} (hes : run step s es = some t)
    (h : (run step s (es ++ fs)).any p = true) :
    ∃ u, run step s (es ++ fs) = some u ∧ run step t fs = some u ∧ Reaches step Any t u ∧
      p u = true := by
  have hrest : run step s (es ++ fs) = run step t fs := by rw [run_append, hes, Option.bind_some]
  obtain ⟨u, hu, hreaches, hp⟩ := exists_run p (hrest ▸ h)
  exact ⟨u, hrest.trans hu, hu, hreaches, hp⟩

theorem step_of_run {s t : σ} {e : ε} (h : run step s [e] = some t) : step s e = some t := by
  simpa [run] using h

/-- The transition function where only allowed events happen. -/
def guarded (step : σ → ε → Option σ) (ok : σ → ε → Prop) [∀ s e, Decidable (ok s e)] (s : σ)
    (e : ε) : Option σ :=
  if ok s e then step s e else none

/-- A given sequence of allowed events. -/
theorem exists_run_of (ok : σ → ε → Prop) [∀ s e, Decidable (ok s e)] (p : σ → Bool)
    {es : List ε} : ∀ {s : σ},
    (run (guarded step ok) s es).any p = true →
    ∃ t, run step s es = some t ∧ Reaches step ok s t ∧ p t = true := by
  induction es with
  | nil =>
    intro s h
    exact ⟨s, rfl, .refl, by simpa [run] using h⟩
  | cons e es ih =>
    intro s h
    obtain ⟨t, hrun, hp⟩ := (Option.any_eq_true p (run (guarded step ok) s (e :: es))).mp h
    obtain ⟨u, hstep, hrest⟩ := Option.bind_eq_some_iff.mp hrun
    rw [guarded] at hstep
    split at hstep
    · next hok =>
      obtain ⟨v, hv, hreaches, hpv⟩ := ih (s := u) (by rw [hrest]; exact hp)
      exact ⟨v, Option.bind_eq_some_iff.mpr ⟨u, hstep, hv⟩,
        (Reaches.refl.tail hok hstep).trans hreaches, hpv⟩
    · cases hstep

theorem run_of_guarded [∀ s e, Decidable (ok s e)] {es : List ε} : ∀ {s t : σ},
    run (guarded step ok) s es = some t → run step s es = some t := by
  induction es with
  | nil => exact id
  | cons e es ih =>
    intro s t h
    obtain ⟨u, hstep, hrest⟩ := Option.bind_eq_some_iff.mp h
    rw [guarded] at hstep
    split at hstep
    · exact Option.bind_eq_some_iff.mpr ⟨u, hstep, ih hrest⟩
    · cases hstep

/-- One of allowed events that goes on from a given one. -/
theorem exists_run_append_of (ok : σ → ε → Prop) [∀ s e, Decidable (ok s e)] (p : σ → Bool)
    {s t : σ} {es fs : List ε} (hes : run step s es = some t)
    (h : (run (guarded step ok) s (es ++ fs)).any p = true) :
    ∃ u, run step s (es ++ fs) = some u ∧ run step t fs = some u ∧ Reaches step ok t u ∧
      p u = true := by
  obtain ⟨u, hu, hp⟩ := (Option.any_eq_true p _).mp h
  have hrun := run_of_guarded hu
  rw [run_append] at hu
  obtain ⟨t', ht', hrest⟩ := Option.bind_eq_some_iff.mp hu
  obtain rfl : t' = t := Option.some.inj ((run_of_guarded ht').symm.trans hes)
  obtain ⟨u', hu', hreaches, hp'⟩ := exists_run_of ok p (by rw [hrest]; exact hp)
  obtain rfl : u = u' := Option.some.inj ((run_of_guarded hrest).symm.trans hu')
  exact ⟨u, hrun, hu', hreaches, hp'⟩

end Transition

end WeaveAuth
