import WeaveAuth.ForMathlib.Program

/-!
# A program and a server that others use too

A program calls a server that keeps a state, and others change that state at any time. A run is the
order in which the program's calls are served and the others act; a theorem about every run is one
about every interleaving.

## Main results

* `exists_served`: a run, up to the next call that is served
* `run_done`: what has ended stays so, and only the others act
* `Serves.invariant`: what the others and the calls keep, a trace keeps
* `exists_trace_append`, `exists_trace_served`: where the calls of a trace are parted, it is

## Implementation notes

What the others may do is a relation `may` between a state and the one after it, so that a theorem
can assume that they keep to an interface, or that they do nothing at all. A trace keeps everything
that happened in one list, since a statement about what happened between two calls is one about its
parts.
-/

namespace WeaveAuth

namespace SharedServer

open Program

variable {C : Type} {A : C → Type} {α S U : Type}

/-- What answers a call from a state, and the state after it. -/
def Server (C : Type) (A : C → Type) (S : Type) : Type := (c : C) → S → A c × S

/-- One step of a run. -/
inductive Event (U : Type) where
  /-- Somebody else does something. -/
  | other (u : U)
  /-- The program's next call is served. -/
  | served

/-- What the others have done. -/
def others (events : List (Event U)) : List U :=
  events.filterMap fun event =>
    match event with
    | .other u => some u
    | .served => none

variable (server : Server C A S) (act : S → U → S)

def step : Program C A α × S → Event U → Program C A α × S
  | (p, s), .other u => (p, act s u)
  | (call c next, s), .served => (next (server c s).1, (server c s).2)
  | (done a, s), .served => (done a, s)

def run (events : List (Event U)) (start : Program C A α × S) : Program C A α × S :=
  events.foldl (step server act) start

variable {server act}

theorem run_append (before after : List (Event U)) (start : Program C A α × S) :
    run server act (before ++ after) start = run server act after (run server act before start) :=
  List.foldl_append

theorem others_append (before after : List (Event U)) :
    others (before ++ after) = others before ++ others after := List.filterMap_append

theorem others_map (us : List U) : others (us.map Event.other) = us := by
  induction us with
  | nil => rfl
  | cons u us ih => rw [List.map_cons, others, List.filterMap_cons, ← others, ih]

/-- The others alone change the state only. -/
theorem run_map (us : List U) (p : Program C A α) (s : S) :
    run server act (us.map Event.other) (p, s) = (p, us.foldl act s) := by
  induction us generalizing s with
  | nil => rfl
  | cons u us ih => exact ih (act s u)

/-- **What has ended stays so.** -/
theorem run_done (events : List (Event U)) (a : α) (s : S) :
    run server act events (done a, s) = (done a, (others events).foldl act s) := by
  induction events generalizing s with
  | nil => rfl
  | cons event events ih =>
    cases event with
    | other u => exact ih (act s u)
    | served => exact ih s

/-- **The next call that is served**, if any is. -/
theorem exists_served (events : List (Event U)) :
    (∃ us : List U, events = us.map Event.other) ∨
      ∃ (us : List U) (rest : List (Event U)), events = us.map Event.other ++ .served :: rest := by
  induction events with
  | nil => exact .inl ⟨[], rfl⟩
  | cons event events ih =>
    cases event with
    | served => exact .inr ⟨[], events, rfl⟩
    | other u =>
      rcases ih with ⟨us, rfl⟩ | ⟨us, rest, rfl⟩
      · exact .inl ⟨u :: us, rfl⟩
      · exact .inr ⟨u :: us, rest, rfl⟩

/-- Two calls are served: one after `before`, and the next one after `between`. -/
def servedTwice (before between : List U) (rest : List (Event U)) : List (Event U) :=
  before.map Event.other ++ .served :: (between.map Event.other ++ .served :: rest)

theorem others_servedTwice (before between : List U) (rest : List (Event U)) :
    others (servedTwice before between rest) = before ++ (between ++ others rest) := by
  rw [servedTwice, others_append, others_map, others, List.filterMap_cons, ← others, others_append,
    others_map, others, List.filterMap_cons, ← others]

theorem servedTwice_append (before between : List U) (rest more : List (Event U)) :
    servedTwice before between rest ++ more = servedTwice before between (rest ++ more) := by
  simp [servedTwice]

/-- A run up to the first call and on from there. -/
theorem run_served (us : List U) (rest : List (Event U)) (c : C) (next : A c → Program C A α)
    (s : S) : run server act (us.map Event.other ++ .served :: rest) (call c next, s) =
      run server act rest (next (server c (us.foldl act s)).1, (server c (us.foldl act s)).2) := by
  rw [run_append, run_map]
  rfl

/-! ### Traces -/

/-- What happens at a server. -/
inductive Item (C : Type) (A : C → Type) (U : Type) where
  | other (u : U)
  | served (e : Exchange C A)

/-- The calls that were served. -/
def exchangesOf (items : List (Item C A U)) : List (Exchange C A) :=
  items.filterMap fun item =>
    match item with
    | .other _ => none
    | .served e => some e

/-- What happened leads from one state to another; `may` says what the others may do. -/
inductive Serves (server : Server C A S) (may : S → U → S → Prop) :
    S → List (Item C A U) → S → Prop where
  | nil (s : S) : Serves server may s [] s
  | other {s s' s'' : S} {u : U} {items : List (Item C A U)} (hmay : may s u s')
      (h : Serves server may s' items s'') : Serves server may s (.other u :: items) s''
  | served {s s' : S} (c : C) {items : List (Item C A U)}
      (h : Serves server may (server c s).2 items s') :
      Serves server may s (.served ⟨c, (server c s).1⟩ :: items) s'

variable {may : S → U → S → Prop} {s s' : S} {items : List (Item C A U)}

theorem exchangesOf_append (xs ys : List (Item C A U)) :
    exchangesOf (xs ++ ys) = exchangesOf xs ++ exchangesOf ys := List.filterMap_append

theorem exchangesOf_other (u : U) (items : List (Item C A U)) :
    exchangesOf (.other u :: items) = exchangesOf items := rfl

theorem exchangesOf_served (e : Exchange C A) (items : List (Item C A U)) :
    exchangesOf (.served e :: items) = e :: exchangesOf items := rfl

theorem mem_exchangesOf {e : Exchange C A} : e ∈ exchangesOf items ↔ .served e ∈ items := by
  induction items with
  | nil => simp [exchangesOf]
  | cons item items ih =>
    cases item with
    | other u => rw [exchangesOf_other, ih]; simp
    | served e' => rw [exchangesOf_served, List.mem_cons, List.mem_cons, ih, Item.served.injEq]

theorem serves_append {xs ys : List (Item C A U)} :
    Serves server may s (xs ++ ys) s' ↔
      ∃ mid, Serves server may s xs mid ∧ Serves server may mid ys s' := by
  induction xs generalizing s with
  | nil =>
    constructor
    · intro h
      exact ⟨s, .nil s, h⟩
    · rintro ⟨_, ⟨⟩, h⟩
      exact h
  | cons item xs ih =>
    constructor
    · intro h
      cases h with
      | other hmay h =>
        obtain ⟨mid, hxs, hys⟩ := ih.mp h
        exact ⟨mid, .other hmay hxs, hys⟩
      | served c h =>
        obtain ⟨mid, hxs, hys⟩ := ih.mp h
        exact ⟨mid, .served c hxs, hys⟩
    · rintro ⟨mid, hxs, hys⟩
      cases hxs with
      | other hmay h => exact .other hmay (ih.mpr ⟨mid, h, hys⟩)
      | served c h => exact .served c (ih.mpr ⟨mid, h, hys⟩)

theorem serves_served {c : C} {answer : A c} :
    Serves server may s (.served ⟨c, answer⟩ :: items) s' ↔
      (server c s).1 = answer ∧ Serves server may (server c s).2 items s' := by
  constructor
  · intro h
    cases h with
    | served c h => exact ⟨rfl, h⟩
  · rintro ⟨rfl, h⟩
    exact .served c h

theorem serves_other {u : U} : Serves server may s (.other u :: items) s' ↔
    ∃ mid, may s u mid ∧ Serves server may mid items s' := by
  constructor
  · intro h
    cases h with
    | other hmay h => exact ⟨_, hmay, h⟩
  · rintro ⟨mid, hmay, h⟩
    exact .other hmay h

/-- **What the others and the calls keep, a trace keeps.** -/
theorem Serves.invariant {I : S → Prop} (h : Serves server may s items s')
    (hother : ∀ u, .other u ∈ items → ∀ s s', I s → may s u s' → I s')
    (hserved : ∀ e ∈ exchangesOf items, ∀ s, I s → I (server e.call s).2) (hs : I s) : I s' := by
  induction h with
  | nil => exact hs
  | @other s mid _ u items hmay _ ih =>
    exact ih (fun u hu => hother u (List.mem_cons_of_mem _ hu)) hserved
      (hother u List.mem_cons_self s mid hs hmay)
  | @served s _ c items _ ih =>
    exact ih (fun u hu => hother u (List.mem_cons_of_mem _ hu))
      (fun e he => hserved e (List.mem_cons_of_mem _ he)) (hserved _ List.mem_cons_self s hs)

/-- **Where the calls of a trace are parted, it is.** -/
theorem exists_trace_append {before after : List (Exchange C A)}
    (h : exchangesOf items = before ++ after) :
    ∃ xs ys, items = xs ++ ys ∧ exchangesOf xs = before ∧ exchangesOf ys = after := by
  induction items generalizing before with
  | nil =>
    obtain ⟨rfl, rfl⟩ := List.append_eq_nil_iff.mp h.symm
    exact ⟨[], [], rfl, rfl, rfl⟩
  | cons item items ih =>
    cases item with
    | other u =>
      obtain ⟨xs, ys, rfl, rfl, rfl⟩ := ih h
      exact ⟨.other u :: xs, ys, rfl, rfl, rfl⟩
    | served e =>
      cases before with
      | nil => exact ⟨[], _, rfl, rfl, h⟩
      | cons e' before =>
        obtain ⟨rfl, hrest⟩ := List.cons.inj h
        obtain ⟨xs, ys, rfl, rfl, rfl⟩ := ih hrest
        exact ⟨.served e :: xs, ys, rfl, rfl, rfl⟩

/-- **One call of a trace.** -/
theorem exists_trace_served {before after : List (Exchange C A)} {e : Exchange C A}
    (h : exchangesOf items = before ++ e :: after) :
    ∃ xs ys, items = xs ++ .served e :: ys ∧ exchangesOf xs = before ∧ exchangesOf ys = after := by
  induction items generalizing before with
  | nil => cases before <;> cases h
  | cons item items ih =>
    cases item with
    | other u =>
      obtain ⟨xs, ys, rfl, rfl, rfl⟩ := ih h
      exact ⟨.other u :: xs, ys, rfl, rfl, rfl⟩
    | served e' =>
      cases before with
      | nil =>
        obtain ⟨rfl, hrest⟩ := List.cons.inj h
        exact ⟨[], items, rfl, rfl, hrest⟩
      | cons e'' before =>
        obtain ⟨rfl, hrest⟩ := List.cons.inj h
        obtain ⟨xs, ys, rfl, rfl, rfl⟩ := ih hrest
        exact ⟨.served e' :: xs, ys, rfl, rfl, rfl⟩

/-- The state in which it was served. -/
theorem Serves.at_served (h : Serves server may s items s') {before after : List (Exchange C A)}
    {c : C} {answer : A c} (hsplit : exchangesOf items = before ++ ⟨c, answer⟩ :: after) :
    ∃ xs ys mid, items = xs ++ .served ⟨c, answer⟩ :: ys ∧ exchangesOf xs = before ∧
      exchangesOf ys = after ∧ Serves server may s xs mid ∧ (server c mid).1 = answer ∧
      Serves server may (server c mid).2 ys s' := by
  obtain ⟨xs, ys, rfl, hbefore, hafter⟩ := exists_trace_served hsplit
  obtain ⟨mid, hxs, hys⟩ := serves_append.mp h
  obtain ⟨hanswer, hrest⟩ := serves_served.mp hys
  exact ⟨xs, ys, mid, rfl, hbefore, hafter, hxs, hanswer, hrest⟩

end SharedServer

end WeaveAuth
