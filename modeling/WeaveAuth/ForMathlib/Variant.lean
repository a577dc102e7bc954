import Mathlib.Algebra.Order.BigOperators.Ring.Finset
import WeaveAuth.ForMathlib.Transition

/-!
# Runs that come to an end

`Variant` says that every event takes a measure down, save that some bring new work with them,
their `credit`; it may use an invariant, which the events keep. So a run is no longer than the work
there was at first and the work that was brought. Where no event brings any, some sequence of
events leads to a state at rest, in which none can happen; and what holds of a state at rest is
what every execution comes to that is left to itself.

The measure of interleaved threads is mostly a sum, of which an event changes some summands only.

## Main results

* `Variant.length_add_le`: how long a run can be
* `Variant.exists_rest`: a state at rest is reached
* `sum_lt_of_lt`: a sum of which one summand goes down

## Implementation notes

The measure is a natural number. What brings work is a credit on the event and not a second kind of
state, so that the bound on a run's length is one inequality about its events.
-/

namespace WeaveAuth

namespace Transition

variable {σ ε : Type*} {step : σ → ε → Option σ} {moves moves' : ε → Prop} {I : σ → Prop}
  {μ : σ → ℕ} {credit : ε → ℕ}

/-- Every move keeps the invariant, and takes the measure down but for its credit. -/
structure Variant (step : σ → ε → Option σ) (moves : ε → Prop) (I : σ → Prop) (μ : σ → ℕ)
    (credit : ε → ℕ) : Prop where
  keeps : ∀ s e t, I s → moves e → step s e = some t → I t
  lt : ∀ s e t, I s → moves e → step s e = some t → μ t < μ s + credit e

/-- No move can happen. -/
def AtRest (step : σ → ε → Option σ) (moves : ε → Prop) (s : σ) : Prop :=
  ∀ e, moves e → step s e = none

theorem Variant.mono (v : Variant step moves I μ credit) (h : ∀ e, moves' e → moves e) :
    Variant step moves' I μ credit where
  keeps s e t hs he := v.keeps s e t hs (h e he)
  lt s e t hs he := v.lt s e t hs (h e he)

theorem Variant.run_keeps (v : Variant step moves I μ credit) : ∀ {es : List ε} {s t : σ}, I s →
    (∀ e ∈ es, moves e) → run step s es = some t → I t := by
  intro es
  induction es with
  | nil =>
    intro s t hs _ hrun
    exact Option.some.inj hrun ▸ hs
  | cons e es ih =>
    intro s t hs hes hrun
    obtain ⟨u, hstep, hrest⟩ := Option.bind_eq_some_iff.mp hrun
    obtain ⟨he, hes⟩ := List.forall_mem_cons.mp hes
    exact ih (v.keeps s e u hs he hstep) hes hrest

/-- **How long a run can be.** -/
theorem Variant.length_add_le (v : Variant step moves I μ credit) : ∀ {es : List ε} {s t : σ},
    I s → (∀ e ∈ es, moves e) → run step s es = some t →
    es.length + μ t ≤ μ s + (es.map credit).sum := by
  intro es
  induction es with
  | nil =>
    intro s t _ _ hrun
    obtain rfl : s = t := Option.some.inj hrun
    simp
  | cons e es ih =>
    intro s t hs hes hrun
    obtain ⟨u, hstep, hrest⟩ := Option.bind_eq_some_iff.mp hrun
    obtain ⟨he, hes⟩ := List.forall_mem_cons.mp hes
    have hlt := v.lt s e u hs he hstep
    have hle := ih (v.keeps s e u hs he hstep) hes hrest
    rw [List.length_cons, List.map_cons, List.sum_cons]
    omega

/-- **A state at rest is reached.** -/
theorem Variant.exists_rest (v : Variant step moves I μ credit)
    (hcredit : ∀ e, moves e → credit e = 0) {s : σ} (hs : I s) :
    ∃ es t, (∀ e ∈ es, moves e) ∧ run step s es = some t ∧ AtRest step moves t := by
  by_cases hrest : AtRest step moves s
  · exact ⟨[], s, by simp, rfl, hrest⟩
  · obtain ⟨e, he, hstep⟩ : ∃ e, moves e ∧ step s e ≠ none := by
      simpa [AtRest] using hrest
    obtain ⟨u, hu⟩ := Option.ne_none_iff_exists'.mp hstep
    have hlt : μ u < μ s := by
      have h := v.lt s e u hs he hu
      rwa [hcredit e he, Nat.add_zero] at h
    obtain ⟨es, t, hes, hrun, ht⟩ := v.exists_rest hcredit (v.keeps s e u hs he hu)
    exact ⟨e :: es, t, List.forall_mem_cons.mpr ⟨he, hes⟩,
      Option.bind_eq_some_iff.mpr ⟨u, hu, hrun⟩, ht⟩
termination_by μ s

/-- A sum of which one summand goes down, but for the credit, and none goes up. -/
theorem sum_lt_of_lt {n t k : ℕ} {f g : ℕ → ℕ} (ht : t < n) (hlt : f t < g t + k)
    (hle : ∀ u, u ≠ t → f u ≤ g u) :
    ∑ u ∈ Finset.range n, f u < ∑ u ∈ Finset.range n, g u + k := by
  have hmem := Finset.mem_range.mpr ht
  have hrest : ∑ u ∈ (Finset.range n).erase t, f u ≤ ∑ u ∈ (Finset.range n).erase t, g u :=
    Finset.sum_le_sum fun u hu => hle u (Finset.ne_of_mem_erase hu)
  rw [← Finset.sum_erase_add _ f hmem, ← Finset.sum_erase_add _ g hmem]
  omega

end Transition

end WeaveAuth
