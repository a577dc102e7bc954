import Mathlib.Data.Nat.Notation
import Mathlib.Logic.Function.Basic

/-!
# Interleaved threads over a shared state

Threads share a state `σ`; each has a local state, `none` before it starts and after it ends. A
move changes the shared state and one thread's local state.

The proof method is Owicki and Gries': an invariant `I` of the shared state, and for each thread
an assertion `A t` about its own local state and the shared one. `Holds.move` is the rule. A move
of thread `t` has to keep `I`, establish `A t` afterwards, and not interfere with the assertions
of the others.

## Implementation notes

Threads are told apart by numbers, and there is no end of them: a thread that has not started has
the local state `none`, so starting one is a move like the others. Which move a thread makes is not
known here. `Holds` quantifies over all threads, and its rule has one premise for the thread that
moves and one for all the others, which is what makes an assertion's stability a lemma about the
move alone.
-/

namespace WeaveAuth

/-- A shared state and the local states of its threads. -/
structure Threads (σ τ : Type*) where
  /-- What the threads share. -/
  shared : σ
  /-- Where each thread stands. -/
  thread : ℕ → Option τ

namespace Threads

variable {σ τ : Type*}

/-- Thread `t` moves: the shared state becomes `w`, its own local state `o`. -/
def move (c : Threads σ τ) (t : ℕ) (w : σ) (o : Option τ) : Threads σ τ :=
  ⟨w, Function.update c.thread t o⟩

@[simp] theorem shared_move (c : Threads σ τ) (t : ℕ) (w : σ) (o : Option τ) :
    (c.move t w o).shared = w := rfl

@[simp] theorem thread_move_self (c : Threads σ τ) (t : ℕ) (w : σ) (o : Option τ) :
    (c.move t w o).thread t = o := by simp [move]

theorem thread_move_ne (c : Threads σ τ) {t u : ℕ} (h : u ≠ t) (w : σ) (o : Option τ) :
    (c.move t w o).thread u = c.thread u := by simp [move, h]

/-- After a move a thread stands where the move has put it, or where it stood. -/
theorem thread_of_move {c : Threads σ τ} {t u : ℕ} {w : σ} {o o' : τ}
    (h : (c.move t w (some o)).thread u = some o') :
    u = t ∧ o = o' ∨ u ≠ t ∧ c.thread u = some o' := by
  by_cases hu : u = t
  · subst hu
    rw [thread_move_self] at h
    exact Or.inl ⟨rfl, Option.some.inj h⟩
  · rw [thread_move_ne c hu] at h
    exact Or.inr ⟨hu, h⟩

/-- The shared invariant and every thread's assertion. -/
structure Holds (I : σ → Prop) (A : ℕ → Option τ → σ → Prop) (c : Threads σ τ) : Prop where
  shared : I c.shared
  thread : ∀ t, A t (c.thread t) c.shared

variable {I : σ → Prop} {A : ℕ → Option τ → σ → Prop}

/-- **The rule for a move.** -/
theorem Holds.move {c : Threads σ τ} {t : ℕ} {w : σ} {o : Option τ} (hI : I w) (own : A t o w)
    (others : ∀ u, u ≠ t → A u (c.thread u) w) : Holds I A (c.move t w o) where
  shared := hI
  thread u := by
    by_cases hu : u = t
    · rw [hu, thread_move_self]
      exact own
    · rw [thread_move_ne c hu]
      exact others u hu

end Threads

end WeaveAuth
