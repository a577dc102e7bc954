import Mathlib.Logic.Basic

/-!
# Programs that end at their first error

When a program in `Except` succeeds, step by step.

## Main results

* `bind_eq_ok`, `forM_eq_ok`: every step succeeds
-/

namespace WeaveAuth

namespace Fallible

variable {ε α β : Type}

theorem bind_eq_ok {x : Except ε α} {f : α → Except ε β} {b : β} :
    (x >>= f) = .ok b ↔ ∃ a, x = .ok a ∧ f a = .ok b := by
  cases x with
  | error e =>
    constructor
    · intro h
      cases h
    · rintro ⟨a, h, -⟩
      cases h
  | ok a =>
    constructor
    · exact fun h => ⟨a, rfl, h⟩
    · rintro ⟨a', h, h'⟩
      cases h
      exact h'

/-- A check and what comes after it. -/
theorem check_bind_eq_ok {check : Except ε Unit} {f : Unit → Except ε β} {b : β} :
    (check >>= f) = .ok b ↔ check = .ok ⟨⟩ ∧ f ⟨⟩ = .ok b := by
  rw [bind_eq_ok]
  constructor
  · rintro ⟨⟨⟩, h⟩
    exact h
  · exact fun h => ⟨⟨⟩, h⟩

/-- Each of the list passes. -/
theorem forM_eq_ok {check : α → Except ε Unit} {l : List α} :
    l.forM check = .ok ⟨⟩ ↔ ∀ a ∈ l, check a = .ok ⟨⟩ := by
  induction l with
  | nil => exact iff_of_true rfl (by simp)
  | cons a l ih =>
    rw [List.forM_eq_forM] at ih ⊢
    rw [List.forM_cons, check_bind_eq_ok, List.forall_mem_cons, ← ih]

theorem toOption_eq_some {x : Except ε α} {a : α} (h : x.toOption = some a) : x = .ok a := by
  cases x with
  | error => cases h
  | ok a' => rw [Option.some.inj h]

end Fallible

end WeaveAuth
