import Mathlib.Data.List.Forall2
import Mathlib.Data.Nat.Notation

/-!
# Programs that make calls

A program makes calls `c : C`, each answered by some `A c`, and ends with a value. What answers is
not part of it. A program is a tree whose branches are the answers, so what holds along every
branch holds whatever is answered, in whatever way the answers depend on each other.

## Two meanings

`Runs p t a` says that `p` ends with `a` after the exchanges `t`. A `Net` answers each call from
all that was sent before it, after some time; `exec` is the run against it, and `execUntil` the
run that is given up at a deadline, where the call that was under way stays sent and unanswered.

## Main results

* `runs_bind`, `runs_andThen_ok`, `runs_collect_nil`: a run of several programs is a run of each
* `runs_exec`, `runs_of_execUntil`: against a net, a program that ends has run
* `execUntil_eq`: one that takes no longer than it may is not given up

## Implementation notes

A call's answer has a type that depends on the call, so a program cannot ask for one thing and go on
with the answer to another. What fails is a value: a program that may fail ends with an `Except`,
and `andThen` is its `?`. Time is natural numbers, and only a net knows of it.
-/

namespace WeaveAuth

variable {C : Type} {A : C → Type} {α β γ : Type}

/-- A program that makes calls `c : C` and is answered by some `A c`. -/
inductive Program (C : Type) (A : C → Type) (α : Type) where
  | done (value : α)
  | call (c : C) (next : A c → Program C A α)

/-- A call and its answer. -/
structure Exchange (C : Type) (A : C → Type) where
  call : C
  answer : A call

namespace Program

def bind : Program C A α → (α → Program C A β) → Program C A β
  | done a, f => f a
  | call c next, f => call c fun answer => (next answer).bind f

instance : Monad (Program C A) where
  pure := done
  bind := bind

/-- One call. -/
def send (c : C) : Program C A (A c) := call c done

@[simp] theorem pure_eq (a : α) : (pure a : Program C A α) = done a := rfl

@[simp] theorem done_bind (a : α) (f : α → Program C A β) : (done a >>= f) = f a := rfl

@[simp] theorem call_bind (c : C) (next : A c → Program C A α) (f : α → Program C A β) :
    (call c next >>= f) = call c fun answer => next answer >>= f := rfl

@[simp] theorem send_bind (c : C) (f : A c → Program C A β) : (send c >>= f) = call c f := rfl

/-! ### Runs -/

/-- The program ends with a value after these exchanges. -/
inductive Runs : Program C A α → List (Exchange C A) → α → Prop where
  | done (a : α) : Runs (done a) [] a
  | call {c : C} {next : A c → Program C A α} (answer : A c) {t : List (Exchange C A)} {a : α}
      (h : Runs (next answer) t a) : Runs (call c next) (⟨c, answer⟩ :: t) a

@[simp] theorem runs_done {a b : α} {t : List (Exchange C A)} :
    Runs (done a) t b ↔ t = [] ∧ b = a := by
  constructor
  · intro h
    cases h with
    | done => exact ⟨rfl, rfl⟩
  · rintro ⟨rfl, rfl⟩
    exact .done b

theorem runs_call {c : C} {next : A c → Program C A α} {t : List (Exchange C A)} {a : α} :
    Runs (call c next) t a ↔
      ∃ answer rest, t = ⟨c, answer⟩ :: rest ∧ Runs (next answer) rest a := by
  constructor
  · intro h
    cases h with
    | call answer hrest => exact ⟨answer, _, rfl, hrest⟩
  · rintro ⟨answer, rest, rfl, hrest⟩
    exact .call answer hrest

/-- The exchanges decide the value. -/
theorem Runs.unique {p : Program C A α} {t : List (Exchange C A)} {a b : α} (ha : Runs p t a)
    (hb : Runs p t b) : a = b := by
  induction ha with
  | done => exact (runs_done.mp hb).2.symm
  | call answer _ ih =>
    obtain ⟨answer', rest, heq, hrest⟩ := runs_call.mp hb
    obtain ⟨hexchange, rfl⟩ := List.cons.inj heq
    cases hexchange
    exact ih hrest

/-- **A run of one program after another.** -/
theorem runs_bind {p : Program C A α} {f : α → Program C A β} {t : List (Exchange C A)} {b : β} :
    Runs (p >>= f) t b ↔ ∃ a before after, t = before ++ after ∧ Runs p before a ∧
      Runs (f a) after b := by
  induction p generalizing t with
  | done a =>
    constructor
    · intro h
      exact ⟨a, [], t, rfl, .done a, h⟩
    · rintro ⟨a', before, after, rfl, h, hf⟩
      obtain ⟨rfl, rfl⟩ := runs_done.mp h
      exact hf
  | call c next ih =>
    rw [call_bind, runs_call]
    constructor
    · rintro ⟨answer, rest, rfl, h⟩
      obtain ⟨a, before, after, rfl, hp, hf⟩ := (ih answer).mp h
      exact ⟨a, ⟨c, answer⟩ :: before, after, rfl, .call answer hp, hf⟩
    · rintro ⟨a, before, after, rfl, h, hf⟩
      obtain ⟨answer, rest, rfl, hrest⟩ := runs_call.mp h
      exact ⟨answer, rest ++ after, rfl, (ih answer).mpr ⟨a, rest, after, rfl, hrest, hf⟩⟩

/-- One program after another that may fail: a failure is the result. -/
def andThen {ε : Type} (p : Program C A (Except ε α)) (f : α → Program C A (Except ε β)) :
    Program C A (Except ε β) := do
  match ← p with
  | .error error => return .error error
  | .ok a => f a

theorem runs_andThen_ok {ε : Type} {p : Program C A (Except ε α)}
    {f : α → Program C A (Except ε β)} {t : List (Exchange C A)} {b : β} :
    Runs (p.andThen f) t (.ok b) ↔ ∃ a before after, t = before ++ after ∧
      Runs p before (.ok a) ∧ Runs (f a) after (.ok b) := by
  rw [andThen, runs_bind]
  constructor
  · rintro ⟨result, before, after, rfl, hp, hf⟩
    cases result with
    | error error => cases (runs_done.mp hf).2
    | ok a => exact ⟨a, before, after, rfl, hp, hf⟩
  · rintro ⟨a, before, after, rfl, hp, hf⟩
    exact ⟨.ok a, before, after, rfl, hp, hf⟩

/-- A run of one call and something made of its answer. -/
theorem runs_send {c : C} {f : A c → α} {t : List (Exchange C A)} {a : α} :
    Runs (send c >>= fun answer => pure (f answer)) t a ↔
      ∃ answer, t = [⟨c, answer⟩] ∧ f answer = a := by
  rw [send_bind, runs_call]
  constructor
  · rintro ⟨answer, rest, rfl, h⟩
    obtain ⟨rfl, ha⟩ := runs_done.mp h
    exact ⟨answer, rfl, ha.symm⟩
  · rintro ⟨answer, rfl, rfl⟩
    exact ⟨answer, [], rfl, .done _⟩

/-- What the program ends with where every call has one answer. -/
def eval (answer : (c : C) → A c) : Program C A α → α
  | done a => a
  | call c next => (next (answer c)).eval answer

@[simp] theorem eval_done (answer : (c : C) → A c) (a : α) : eval answer (done a) = a := rfl

@[simp] theorem eval_call (answer : (c : C) → A c) (c : C) (next : A c → Program C A α) :
    eval answer (call c next) = (next (answer c)).eval answer := rfl

theorem eval_bind (answer : (c : C) → A c) (p : Program C A α) (f : α → Program C A β) :
    eval answer (p >>= f) = (f (p.eval answer)).eval answer := by
  induction p with
  | done a => rfl
  | call c next ih => exact ih (answer c)

theorem eval_andThen_ok {ε : Type} (answer : (c : C) → A c) {p : Program C A (Except ε α)}
    {f : α → Program C A (Except ε β)} {b : β} :
    eval answer (p.andThen f) = .ok b ↔ ∃ a, p.eval answer = .ok a ∧ (f a).eval answer = .ok b := by
  rw [andThen, eval_bind]
  cases p.eval answer <;> simp

/-! ### What may be called -/

/-- Every call that the program may make satisfies `P`. -/
def OnlyCalls (P : C → Prop) : Program C A α → Prop
  | done _ => True
  | call c next => P c ∧ ∀ answer, (next answer).OnlyCalls P

variable {P : C → Prop}

theorem OnlyCalls.bind {p : Program C A α} {f : α → Program C A β} (hp : p.OnlyCalls P)
    (hf : ∀ a, (f a).OnlyCalls P) : (p >>= f).OnlyCalls P := by
  induction p with
  | done a => exact hf a
  | call c next ih => exact ⟨hp.1, fun answer => ih answer (hp.2 answer)⟩

theorem OnlyCalls.andThen {ε : Type} {p : Program C A (Except ε α)}
    {f : α → Program C A (Except ε β)} (hp : p.OnlyCalls P) (hf : ∀ a, (f a).OnlyCalls P) :
    (p.andThen f).OnlyCalls P := by
  refine hp.bind fun result => ?_
  cases result with
  | error error => trivial
  | ok a => exact hf a

theorem onlyCalls_send {c : C} (h : P c) : (send c : Program C A (A c)).OnlyCalls P :=
  ⟨h, fun _ => trivial⟩

/-! ### Against a net -/

/-- A call that was sent at some time, and its answer if it came while it was waited for. -/
structure Sent (C : Type) (A : C → Type) where
  call : C
  sentAt : ℕ
  answer : Option (A call)

/-- The exchange, of a call that was answered. -/
def Sent.exchange? (sent : Sent C A) : Option (Exchange C A) :=
  sent.answer.map fun answer => ⟨sent.call, answer⟩

/-- What answers the calls, from all that was sent before, and how long that takes. -/
def Net (C : Type) (A : C → Type) : Type := List (Sent C A) → (c : C) → A c × ℕ

/-- All that was sent, and the clock. -/
structure World (C : Type) (A : C → Type) where
  log : List (Sent C A)
  now : ℕ

/-- The exchanges of a world. -/
def World.exchanges (w : World C A) : List (Exchange C A) := w.log.filterMap Sent.exchange?

/-- They do not depend on the clock. -/
theorem World.exchanges_mk (w : World C A) (now : ℕ) :
    World.exchanges ⟨w.log, now⟩ = w.exchanges := rfl

/-- After one more call. -/
def World.answered (w : World C A) (c : C) (answer : A c) (time : ℕ) : World C A :=
  ⟨w.log ++ [⟨c, w.now, some answer⟩], w.now + time⟩

theorem World.exchanges_answered (w : World C A) (c : C) (answer : A c) (time : ℕ) :
    (w.answered c answer time).exchanges = w.exchanges ++ [⟨c, answer⟩] := by
  simp [exchanges, answered, Sent.exchange?]

variable (net : Net C A)

/-- The run to its end. -/
def exec : Program C A α → World C A → α × World C A
  | done a, w => (a, w)
  | call c next, w =>
    let (answer, time) := net w.log c
    (next answer).exec (w.answered c answer time)

/-- The run up to a deadline. -/
def execUntil (deadline : ℕ) : Program C A α → World C A → Option α × World C A
  | done a, w => (some a, w)
  | call c next, w =>
    let (answer, time) := net w.log c
    if w.now + time ≤ deadline then (next answer).execUntil deadline (w.answered c answer time)
    else (none, ⟨w.log ++ [⟨c, w.now, none⟩], deadline⟩)

variable {net}

/-- What is run to its end has run. -/
theorem runs_exec (p : Program C A α) (w : World C A) :
    ∃ t, Runs p t (p.exec net w).1 ∧ (p.exec net w).2.exchanges = w.exchanges ++ t := by
  induction p generalizing w with
  | done a => exact ⟨[], .done a, (List.append_nil _).symm⟩
  | call c next ih =>
    rcases hnet : net w.log c with ⟨answer, time⟩
    obtain ⟨t, hruns, hexchanges⟩ := ih answer (w.answered c answer time)
    refine ⟨⟨c, answer⟩ :: t, ?_, ?_⟩
    · simp only [exec, hnet]
      exact .call answer hruns
    · simp only [exec, hnet]
      rw [hexchanges, World.exchanges_answered, List.append_assoc, List.singleton_append]

theorem now_le_exec (p : Program C A α) (w : World C A) : w.now ≤ (p.exec net w).2.now := by
  induction p generalizing w with
  | done a => exact Nat.le_refl _
  | call c next ih =>
    rcases hnet : net w.log c with ⟨answer, time⟩
    have hstep : w.now ≤ (w.answered c answer time).now := Nat.le_add_right _ _
    simp only [exec, hnet]
    exact Nat.le_trans hstep (ih answer _)

/-- What ends by its deadline is what is run to its end. -/
theorem exec_of_execUntil {deadline : ℕ} {p : Program C A α} {w w' : World C A} {a : α}
    (h : p.execUntil net deadline w = (some a, w')) : p.exec net w = (a, w') := by
  induction p generalizing w with
  | done b =>
    obtain ⟨hb, rfl⟩ := Prod.mk.inj h
    rw [exec, Option.some.inj hb]
  | call c next ih =>
    rcases hnet : net w.log c with ⟨answer, time⟩
    simp only [execUntil, hnet] at h
    split_ifs at h
    · simp only [exec, hnet]
      exact ih answer h
    · cases (Prod.mk.inj h).1

/-- **What takes no longer than it may is not given up.** -/
theorem execUntil_eq {deadline : ℕ} {p : Program C A α} {w : World C A}
    (h : (p.exec net w).2.now ≤ deadline) :
    p.execUntil net deadline w = (some (p.exec net w).1, (p.exec net w).2) := by
  induction p generalizing w with
  | done a => rfl
  | call c next ih =>
    rcases hnet : net w.log c with ⟨answer, time⟩
    simp only [exec, execUntil, hnet] at h ⊢
    have hstep : w.now + time ≤ deadline :=
      Nat.le_trans (now_le_exec (next answer) (w.answered c answer time)) h
    rw [if_pos hstep]
    exact ih answer h

/-- **What ends by its deadline has run.** -/
theorem runs_of_execUntil {deadline : ℕ} {p : Program C A α} {w w' : World C A} {a : α}
    (h : p.execUntil net deadline w = (some a, w')) :
    ∃ t, Runs p t a ∧ w'.exchanges = w.exchanges ++ t := by
  obtain ⟨t, hruns, hexchanges⟩ := @runs_exec _ _ _ net p w
  rw [exec_of_execUntil h] at hruns hexchanges
  exact ⟨t, hruns, hexchanges⟩

/-! ### Loops -/

/-- Something for each element, whatever the others come to; what each gives, in order. -/
def collect (f : α → Program C A (List β)) : List α → Program C A (List β)
  | [] => done []
  | a :: rest => do
    let found ← f a
    let more ← collect f rest
    return found ++ more

/-- **Nothing is found if nothing is found of any element.** -/
theorem runs_collect_nil {f : α → Program C A (List β)} {l : List α} {t : List (Exchange C A)} :
    Runs (collect f l) t [] ↔ ∃ parts : List (List (Exchange C A)),
      List.Forall₂ (fun a part => Runs (f a) part []) l parts ∧ t = parts.flatten := by
  induction l generalizing t with
  | nil =>
    rw [collect, runs_done]
    constructor
    · rintro ⟨rfl, -⟩
      exact ⟨[], .nil, rfl⟩
    · rintro ⟨parts, hparts, rfl⟩
      rw [List.forall₂_nil_left_iff] at hparts
      simp [hparts]
  | cons a rest ih =>
    simp only [collect, runs_bind, pure_eq, runs_done]
    constructor
    · rintro ⟨first, before, _, rfl, hfirst, more, after, _, rfl, hmore, rfl, hnil⟩
      obtain ⟨rfl, rfl⟩ := List.append_eq_nil_iff.mp hnil.symm
      obtain ⟨parts, hparts, rfl⟩ := ih.mp hmore
      exact ⟨before :: parts, .cons hfirst hparts, by simp⟩
    · rintro ⟨parts, hparts, rfl⟩
      obtain ⟨before, parts, hfirst, hrest, rfl⟩ := List.forall₂_cons_left_iff.mp hparts
      exact ⟨[], before, parts.flatten, by simp, hfirst, [], parts.flatten, [], by simp,
        ih.mpr ⟨parts, hrest, rfl⟩, rfl, rfl⟩

/-- What a loop does for one of its elements. -/
theorem exists_part {R : α → List β → Prop} {l : List α} {parts : List (List β)}
    (h : List.Forall₂ R l parts) {a : α} (ha : a ∈ l) :
    ∃ part before after, R a part ∧ parts.flatten = before ++ part ++ after := by
  induction h with
  | nil => cases ha
  | @cons a' part l parts hpart h ih =>
    rcases List.mem_cons.mp ha with rfl | ha
    · exact ⟨part, [], parts.flatten, hpart, rfl⟩
    · obtain ⟨part', before, after, hpart', heq⟩ := ih ha
      exact ⟨part', part ++ before, after, hpart', by simp [heq]⟩

/-- All that it does is for one of them. -/
theorem exists_of_mem_flatten {R : α → List β → Prop} {l : List α} {parts : List (List β)}
    (h : List.Forall₂ R l parts) {b : β} (hb : b ∈ parts.flatten) :
    ∃ a ∈ l, ∃ part, R a part ∧ b ∈ part := by
  induction h with
  | nil => cases hb
  | @cons a part l parts hpart h ih =>
    rcases List.mem_append.mp (List.flatten_cons ▸ hb) with hb | hb
    · exact ⟨a, List.mem_cons_self, part, hpart, hb⟩
    · obtain ⟨a', ha', hrest⟩ := ih hb
      exact ⟨a', List.mem_cons_of_mem _ ha', hrest⟩

end Program

end WeaveAuth
