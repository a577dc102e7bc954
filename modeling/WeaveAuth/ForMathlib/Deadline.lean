import WeaveAuth.ForMathlib.Program

/-!
# Programs that are given up at a deadline

What a program has sent by its deadline, and how many calls may be left hanging before that.

## Main results

* `execUntil_bind`: two programs, one after another, have one deadline
* `now_exec_le_iff`: what ends by its deadline
* `now_exec_toNet`: the time that hanging calls take

## Scope

A call that hangs takes its whole timeout and an answered one takes no time. That is the case in
which most fits before a deadline; `execUntil_eq` and `now_exec_le_iff` are about any times.
-/

namespace WeaveAuth

namespace Program

variable {C : Type} {A : C → Type} {α β : Type} {net : Net C A} {deadline : ℕ}
  {p : Program C A α} {w : World C A}

/-! ### What is sent -/

/-- **One program after another**, up to one deadline. -/
theorem execUntil_bind (p : Program C A α) (f : α → Program C A β) (w : World C A) :
    (p >>= f).execUntil net deadline w =
      match p.execUntil net deadline w with
      | (some a, w') => (f a).execUntil net deadline w'
      | (none, w') => (none, w') := by
  induction p generalizing w with
  | done a => rfl
  | call c next ih =>
    rcases hnet : net w.log c with ⟨answer, time⟩
    rw [call_bind]
    simp only [execUntil, hnet]
    split_ifs
    · exact ih answer _
    · rfl

theorem log_execUntil (p : Program C A α) (w : World C A) :
    w.log <+: (p.execUntil net deadline w).2.log := by
  induction p generalizing w with
  | done a => exact List.prefix_refl _
  | call c next ih =>
    rcases hnet : net w.log c with ⟨answer, time⟩
    have hanswered : w.log <+: (w.answered c answer time).log := List.prefix_append _ _
    simp only [execUntil, hnet]
    split_ifs
    · exact hanswered.trans (ih answer _)
    · exact List.prefix_append _ _

/-- The first call is sent at once. -/
theorem sent_first (net : Net C A) (deadline : ℕ) (c : C) (next : A c → Program C A α)
    (w : World C A) : ∃ answer, (⟨c, w.now, answer⟩ : Sent C A) ∈
      ((call c next).execUntil net deadline w).2.log := by
  rcases hnet : net w.log c with ⟨answer, time⟩
  simp only [execUntil, hnet]
  split_ifs
  · exact ⟨some answer, (log_execUntil _ _).mem (by simp [World.answered])⟩
  · exact ⟨none, by simp⟩

/-- What is sent is what the program may call. -/
theorem OnlyCalls.of_mem_log {P : C → Prop} (hp : p.OnlyCalls P) {sent : Sent C A}
    (h : sent ∈ (p.execUntil net deadline w).2.log) : sent ∈ w.log ∨ P sent.call := by
  induction p generalizing w with
  | done a => exact .inl h
  | call c next ih =>
    rcases hnet : net w.log c with ⟨answer, time⟩
    simp only [execUntil, hnet] at h
    split_ifs at h
    · rcases ih answer (hp.2 answer) h with hmem | hcall
      · rcases List.mem_append.mp hmem with hmem | hmem
        · exact .inl hmem
        · obtain rfl := List.mem_singleton.mp hmem
          exact .inr hp.1
      · exact .inr hcall
    · rcases List.mem_append.mp h with hmem | hmem
      · exact .inl hmem
      · obtain rfl := List.mem_singleton.mp hmem
        exact .inr hp.1

theorem OnlyCalls.collect {P : C → Prop} {f : α → Program C A (List β)} {l : List α}
    (hf : ∀ a ∈ l, (f a).OnlyCalls P) : (collect f l).OnlyCalls P := by
  induction l with
  | nil => trivial
  | cons a l ih =>
    obtain ⟨ha, hl⟩ := List.forall_mem_cons.mp hf
    exact ha.bind fun found => (ih hl).bind fun more => trivial

/-! ### What ends by its deadline -/

theorem now_execUntil_le (net : Net C A) (p : Program C A α) (h : w.now ≤ deadline) :
    (p.execUntil net deadline w).2.now ≤ deadline := by
  induction p generalizing w with
  | done a => exact h
  | call c next ih =>
    rcases hnet : net w.log c with ⟨answer, time⟩
    simp only [execUntil, hnet]
    split_ifs with htime
    · exact ih answer htime
    · exact Nat.le_refl _

/-- **What takes no longer than it may ends**, and nothing else. -/
theorem now_exec_le_iff (p : Program C A α) (h : w.now ≤ deadline) :
    (p.exec net w).2.now ≤ deadline ↔ ∃ a w', p.execUntil net deadline w = (some a, w') := by
  constructor
  · exact fun hnow => ⟨_, _, execUntil_eq hnow⟩
  · rintro ⟨a, w', hend⟩
    rw [exec_of_execUntil hend]
    have hnow := now_execUntil_le net p h
    rwa [hend] at hnow

/-! ### Calls that hang -/

/-- What is answered to a call, from all that was sent before, and whether that is only what comes
of waiting in vain. -/
def Assignment (C : Type) (A : C → Type) : Type := List (Sent C A) → (c : C) → A c × Bool

/-- How long an answer is waited for. -/
def waited (timeout : ℕ) (hangs : Bool) : ℕ := if hangs then timeout else 0

/-- The net where calls are answered at once or hang for this time. -/
def Assignment.toNet (timeout : ℕ) (assignment : Assignment C A) : Net C A := fun log c =>
  ((assignment log c).1, waited timeout (assignment log c).2)

variable (timeout : ℕ) (assignment : Assignment C A)

/-- How many calls hang in the run to the end. -/
def hanging : Program C A α → World C A → ℕ
  | done _, _ => 0
  | call c next, w =>
    let (answer, hangs) := assignment w.log c
    hangs.toNat + (next answer).hanging (w.answered c answer (waited timeout hangs))

/-- **The run takes the time of the calls that hang.** -/
theorem now_exec_toNet (p : Program C A α) (w : World C A) :
    (p.exec (assignment.toNet timeout) w).2.now =
      w.now + timeout * p.hanging timeout assignment w := by
  induction p generalizing w with
  | done a => rfl
  | call c next ih =>
    rcases hassigned : assignment w.log c with ⟨answer, hangs⟩
    simp only [exec, hanging, Assignment.toNet, hassigned] at ih ⊢
    rw [ih answer, World.answered]
    dsimp only
    rw [Nat.mul_add, ← Nat.add_assoc]
    cases hangs <;> simp [waited]

end Program

end WeaveAuth
