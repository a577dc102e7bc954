import WeaveAuth.Hooks.AfterRegistration

/-!
# Attempts to register an identity

Kratos calls the after-registration hook again when an attempt has failed or has taken too long
for it, so that attempts for one identity may follow and overlap each other in any way. They share
nothing: each reads the identity once, at its start.

## The model

An attempt takes a step when what it waits for arrives: an answer, whatever it is and whenever it
comes, or the end of its budget. `tokio::time::timeout` looks at the work before it looks at the
clock, so an answer may still be taken after that. An attempt may also be dropped, by a caller that
hangs up or by the timeout of the whole request: then it returns nothing.

## Main results

* `attempts_delete`: an attempt asks for the identity's deletion if its own work fails or runs out
  of time, and before it answers so; one that answers success never does
* `deleted_after_success`: another attempt may, also after that success

## Scope

Nothing is assumed of what answers: a deletion that was asked for may fail or never be answered, and
an attempt may read an identity that another one has had deleted. How often Kratos calls the hook,
and when it does so again, is left open, so every theorem is for any number of attempts in any
order.
-/

namespace WeaveAuth

namespace Hooks

open Bff (Json Uuid)
open Program Transition

/-! ### The transition system -/

/-- What an attempt has done. -/
inductive Mark where
  | started (attempt : ℕ) (req : AfterRegistrationRequest) (time : ℕ)
  | sent (attempt : ℕ) (request : Call)
  | received (attempt : ℕ) (exchange : Exchange Call Call.Answer)
  | timedOut (attempt : ℕ) (time : ℕ)
  | answered (attempt : ℕ) (result : Registered)

/-- The clock, and all that the attempts have done, in order. -/
structure Attempts where
  now : ℕ
  history : List Mark

def Attempts.mark (w : Attempts) (m : Mark) : Attempts := ⟨w.now, w.history ++ [m]⟩

/-- What an attempt waits for. -/
inductive Phase where
  /-- An answer that the work waits for, within the budget. -/
  | working (request : Call) (next : request.Answer → Calls Registered)
  /-- An answer that is waited for once the work is over. -/
  | concluding (request : Call) (next : request.Answer → Calls Registered)
  /-- Nothing: it has answered or was dropped. -/
  | over

structure Attempt where
  /-- When the budget ends. -/
  deadline : ℕ
  phase : Phase

/-- What can happen next. -/
inductive AttemptEvent where
  | start (attempt : ℕ) (req : AfterRegistrationRequest) (now : ℕ)
  | answer (attempt : ℕ) (reply : (request : Call) → request.Answer) (now : ℕ)
  | timeOut (attempt : ℕ) (now : ℕ)
  | drop (attempt : ℕ)

/-- The attempt, its work over, goes on to its next call or answers. -/
def conclude (t : ℕ) (w : Attempts) : Calls Registered → Attempts × Phase
  | .done result => (w.mark (.answered t result), .over)
  | .call request next => (w.mark (.sent t request), .concluding request next)

/-- The attempt works on, up to its next call or the end of its work. -/
def work (id : Uuid) (t : ℕ) (w : Attempts) : Calls Registered → Attempts × Phase
  | .done result => conclude t w (concludeRegistration id result)
  | .call request next => (w.mark (.sent t request), .working request next)

/-- A thread that has moved on. -/
def moveOn (c : Threads Attempts Attempt) (t deadline : ℕ) (p : Attempts × Phase) :
    Threads Attempts Attempt :=
  c.move t p.1 (some ⟨deadline, p.2⟩)

/-- Attempts for the identity `id`. -/
def attemptStep (state : AppState) (id : Uuid) (c : Threads Attempts Attempt) :
    AttemptEvent → Option (Threads Attempts Attempt)
  | .start t req now =>
    match c.thread t with
    | none =>
      if c.shared.now ≤ now ∧ req.identityId = id then
        let w := (⟨now, c.shared.history⟩ : Attempts).mark (.started t req now)
        some (moveOn c t (now + state.requestTimeout / 2)
          (work id t w (collectAndForward state req)))
      else none
    | some _ => none
  | .answer t reply now =>
    if c.shared.now ≤ now then
      match c.thread t with
      | some ⟨deadline, .working request next⟩ =>
        let w := (⟨now, c.shared.history⟩ : Attempts).mark (.received t ⟨request, reply request⟩)
        some (moveOn c t deadline (work id t w (next (reply request))))
      | some ⟨deadline, .concluding request next⟩ =>
        let w := (⟨now, c.shared.history⟩ : Attempts).mark (.received t ⟨request, reply request⟩)
        some (moveOn c t deadline (conclude t w (next (reply request))))
      | some ⟨_, .over⟩ | none => none
    else none
  | .timeOut t now =>
    if c.shared.now ≤ now then
      match c.thread t with
      | some ⟨deadline, .working _ _⟩ =>
        if deadline ≤ now then
          let w := (⟨now, c.shared.history⟩ : Attempts).mark (.timedOut t now)
          some (moveOn c t deadline
            (conclude t w
              (concludeRegistration id (.error (.timedOut (state.requestTimeout / 2))))))
        else none
      | some ⟨_, .concluding _ _⟩ | some ⟨_, .over⟩ | none => none
    else none
  | .drop t =>
    match c.thread t with
    | some ⟨deadline, .working _ _⟩ | some ⟨deadline, .concluding _ _⟩ =>
      some (moveOn c t deadline (c.shared, .over))
    | some ⟨_, .over⟩ | none => none

/-- No attempt yet. -/
def noAttempts (now : ℕ) : Threads Attempts Attempt := ⟨⟨now, []⟩, fun _ => none⟩

/-! ### What an attempt has done -/

/-- The exchanges of the attempt. -/
def exchanges (t : ℕ) (history : List Mark) : List (Exchange Call Call.Answer) :=
  history.filterMap fun m =>
    match m with
    | .received u exchange => if u = t then some exchange else none
    | _ => none

def Mark.attempt : Mark → ℕ
  | .started t _ _ | .sent t _ | .received t _ | .timedOut t _ | .answered t _ => t

variable {state : AppState} {id : Uuid} {t u : ℕ} {history : List Mark} {m : Mark}

theorem exchanges_append (history history' : List Mark) :
    exchanges t (history ++ history') = exchanges t history ++ exchanges t history' :=
  List.filterMap_append

theorem exchanges_of_ne (h : ∀ m ∈ history, m.attempt ≠ t) : exchanges t history = [] := by
  refine List.filterMap_eq_nil_iff.mpr fun m hm => ?_
  cases m with
  | received u exchange => exact if_neg (h _ hm)
  | _ => rfl

/-- The attempt's own work has failed, or has run out of time. -/
def WorkFailed (state : AppState) (t : ℕ) (history : List Mark) : Prop :=
  ∃ req start, .started t req start ∈ history ∧
    ((∃ result, Runs (collectAndForward state req) (exchanges t history) result ∧ Fails result) ∨
      ∃ now, .timedOut t now ∈ history ∧ start + state.requestTimeout / 2 ≤ now)

/-- What an attempt does is right after what was done before. -/
def Right (state : AppState) (id : Uuid) (history : List Mark) : Mark → Prop
  | .sent t request => request = .deleteIdentity id →
      WorkFailed state t history ∧ ∀ result, .answered t result ∉ history
  | .answered t result => Fails result ↔ .sent t (.deleteIdentity id) ∈ history
  | _ => True

/-- It has always been. -/
def AllRight (state : AppState) (id : Uuid) (history : List Mark) : Prop :=
  ∀ before m after, history = before ++ m :: after → Right state id before m

theorem allRight_nil : AllRight state id [] := fun _ _ _ h => by simp at h

theorem AllRight.append (h : AllRight state id history) (hm : Right state id history m) :
    AllRight state id (history ++ [m]) := by
  intro before m' after heq
  rcases List.eq_nil_or_concat after with rfl | ⟨after, m'', rfl⟩
  · obtain ⟨rfl, hlast⟩ := List.append_inj' heq rfl
    rwa [List.cons.inj hlast |>.1] at hm
  · rw [List.concat_eq_append, ← List.cons_append, ← List.append_assoc] at heq
    obtain ⟨rfl, -⟩ := List.append_inj' heq rfl
    exact h before m' after rfl

/-! ### Where an attempt stands -/

/-- The attempt has neither asked for the deletion nor answered. -/
def Undecided (id : Uuid) (t : ℕ) (history : List Mark) : Prop :=
  .sent t (.deleteIdentity id) ∉ history ∧ ∀ result, .answered t result ∉ history

/-- `p` is what is left of the attempt's work. -/
structure Working (state : AppState) (id : Uuid) (t : ℕ) (history : List Mark) (deadline : ℕ)
    (p : Calls Registered) : Prop where
  started : ∃ req start, .started t req start ∈ history ∧
    deadline = start + state.requestTimeout / 2 ∧ ∀ rest result, Runs p rest result →
      Runs (collectAndForward state req) (exchanges t history ++ rest) result
  only : p.OnlyCalls (Call.Collects id)
  undecided : Undecided id t history

def Stands (state : AppState) (id : Uuid) (t : ℕ) : Option Attempt → List Mark → Prop
  | none, history => ∀ m ∈ history, m.attempt ≠ t
  | some ⟨deadline, .working request next⟩, history =>
    Working state id t history deadline (.call request next)
  | some ⟨_, .concluding _ next⟩, history =>
    .sent t (.deleteIdentity id) ∈ history ∧ ∃ result, Fails result ∧
      ∀ answer, next answer = .done result
  | some ⟨_, .over⟩, _ => True

/-- What others do says nothing about the attempt. -/
theorem mem_append_of_ne {marks : List Mark} (hmarks : ∀ m ∈ marks, m.attempt = u) (h : t ≠ u)
    (hm : m.attempt = t) : m ∈ history ++ marks ↔ m ∈ history := by
  rw [List.mem_append, or_iff_left]
  intro hmem
  exact h (hm.symm.trans (hmarks m hmem))

theorem exchanges_append_of_ne {marks : List Mark} (hmarks : ∀ m ∈ marks, m.attempt = u)
    (h : t ≠ u) : exchanges t (history ++ marks) = exchanges t history := by
  have hnone : exchanges t marks = [] := exchanges_of_ne fun m hm => by
    rw [hmarks m hm]
    exact h.symm
  rw [exchanges_append, hnone, List.append_nil]

theorem Undecided.append {marks : List Mark} (hundecided : Undecided id t history)
    (hmarks : ∀ m ∈ marks, m.attempt = u) (h : t ≠ u) : Undecided id t (history ++ marks) := by
  refine ⟨fun hmem => hundecided.1 ?_, fun result hmem => hundecided.2 result ?_⟩
  · rwa [mem_append_of_ne hmarks h rfl] at hmem
  · rwa [mem_append_of_ne hmarks h rfl] at hmem

theorem Stands.append {o : Option Attempt} {marks : List Mark}
    (hstands : Stands state id t o history) (hmarks : ∀ m ∈ marks, m.attempt = u) (h : t ≠ u) :
    Stands state id t o (history ++ marks) := by
  match o with
  | none =>
    intro m hm
    rcases List.mem_append.mp hm with hm | hm
    · exact hstands m hm
    · rw [hmarks m hm]
      exact h.symm
  | some ⟨deadline, .working request next⟩ =>
    obtain ⟨⟨req, start, hstarted, hdeadline, hruns⟩, honly, hundecided⟩ := hstands
    refine ⟨⟨req, start, List.mem_append_left _ hstarted, hdeadline, ?_⟩, honly,
      hundecided.append hmarks h⟩
    rwa [exchanges_append_of_ne hmarks h]
  | some ⟨_, .concluding _ next⟩ => exact ⟨List.mem_append_left _ hstands.1, hstands.2⟩
  | some ⟨_, .over⟩ => trivial

/-! ### What a step keeps -/

/-- What was right stays right, the attempt stands where it has got to, and nothing else was done
but by it. -/
structure Goes (state : AppState) (id : Uuid) (t deadline : ℕ) (w : Attempts)
    (p : Attempts × Phase) : Prop where
  right : AllRight state id p.1.history
  stands : Stands state id t (some ⟨deadline, p.2⟩) p.1.history
  own : ∃ marks, p.1.history = w.history ++ marks ∧ ∀ m ∈ marks, m.attempt = t

variable {w : Attempts} {deadline : ℕ}

/-- The work is over. -/
theorem goes_concludeRegistration (hright : AllRight state id w.history)
    (hundecided : Undecided id t w.history) {result : Registered}
    (hfailed : Fails result → WorkFailed state t w.history) :
    Goes state id t deadline w (conclude t w (concludeRegistration id result)) := by
  by_cases hfails : Fails result
  · rw [concludeRegistration_of_fails id hfails]
    refine ⟨hright.append fun _ => ⟨hfailed hfails, hundecided.2⟩, ⟨?_, result, hfails, ?_⟩,
      [.sent t (.deleteIdentity id)], rfl, by simp [Mark.attempt]⟩
    · exact List.mem_append_right _ (List.mem_singleton_self _)
    · exact fun _ => rfl
  · rw [concludeRegistration_of_not id hfails]
    refine ⟨hright.append ?_, trivial, [.answered t result], rfl, by simp [Mark.attempt]⟩
    exact iff_of_false hfails hundecided.1

/-- The deletion has been answered. -/
theorem goes_answered (hright : AllRight state id w.history) {result : Registered}
    (hfails : Fails result) (hsent : .sent t (.deleteIdentity id) ∈ w.history) :
    Goes state id t deadline w (conclude t w (.done result)) :=
  ⟨hright.append (iff_of_true hfails hsent), trivial, [.answered t result], rfl,
    by simp [Mark.attempt]⟩

/-- The work goes on. -/
theorem goes_work (hright : AllRight state id w.history) {p : Calls Registered}
    (hworking : Working state id t w.history deadline p) :
    Goes state id t deadline w (work id t w p) := by
  obtain ⟨⟨req, start, hstarted, hdeadline, hruns⟩, honly, hundecided⟩ := hworking
  cases p with
  | done result =>
    refine goes_concludeRegistration hright hundecided fun hfails => ?_
    have hrun := hruns [] result (.done result)
    rw [List.append_nil] at hrun
    exact ⟨req, start, hstarted, .inl ⟨result, hrun, hfails⟩⟩
  | call request next =>
    have hother : request ≠ .deleteIdentity id := fun h => by simpa [h, Call.Collects] using honly.1
    refine ⟨hright.append fun h => absurd h hother, ⟨⟨req, start, ?_, hdeadline, ?_⟩, honly, ?_⟩,
      [.sent t request], rfl, by simp [Mark.attempt]⟩
    · exact List.mem_append_left _ hstarted
    · have hnone : exchanges t [.sent t request] = [] := rfl
      intro rest result hrun
      show Runs _ (exchanges t (w.history ++ [.sent t request]) ++ rest) result
      rw [exchanges_append, hnone, List.append_nil]
      exact hruns rest result hrun
    · have hmem {m : Mark} (hm : m ∈ w.history ++ [.sent t request])
          (hne : m ≠ .sent t request) : m ∈ w.history := by simpa [hne] using hm
      exact ⟨fun h => hundecided.1 (hmem h (by simpa using hother.symm)),
        fun result h => hundecided.2 result (hmem h nofun)⟩

/-! ### Every run -/

/-- What holds of every state that is reached. -/
def AttemptsInv (state : AppState) (id : Uuid) : Threads Attempts Attempt → Prop :=
  Threads.Holds (fun w => AllRight state id w.history)
    fun t o w => Stands state id t o w.history

theorem AttemptsInv.moveOn {c : Threads Attempts Attempt} (hinv : AttemptsInv state id c)
    {p : Attempts × Phase} (hgoes : Goes state id t deadline c.shared p) :
    AttemptsInv state id (moveOn c t deadline p) := by
  obtain ⟨marks, hhistory, hmarks⟩ := hgoes.own
  refine Threads.Holds.move hgoes.right hgoes.stands fun u hu => ?_
  show Stands state id u (c.thread u) p.1.history
  rw [hhistory]
  exact (hinv.thread u).append hmarks hu

/-- A mark that comes first. -/
theorem Goes.after {p : Attempts × Phase} {now : ℕ} (hm : m.attempt = t)
    (h : Goes state id t deadline ((⟨now, w.history⟩ : Attempts).mark m) p) :
    Goes state id t deadline w p := by
  obtain ⟨hright, hstands, marks, hhistory, hmarks⟩ := h
  refine ⟨hright, hstands, m :: marks, hhistory.trans (List.append_assoc _ _ _), ?_⟩
  exact List.forall_mem_cons.mpr ⟨hm, hmarks⟩

theorem Undecided.mark (h : Undecided id t history) (hsent : ∀ request, m ≠ .sent t request)
    (hanswered : ∀ result, m ≠ .answered t result) : Undecided id t (history ++ [m]) := by
  refine ⟨fun hmem => ?_, fun result hmem => ?_⟩
  · rcases List.mem_append.mp hmem with hmem | hmem
    · exact h.1 hmem
    · exact hsent _ (List.mem_singleton.mp hmem).symm
  · rcases List.mem_append.mp hmem with hmem | hmem
    · exact h.2 result hmem
    · exact hanswered _ (List.mem_singleton.mp hmem).symm

/-- An answer takes the work on. -/
theorem Working.received {request : Call} {next : request.Answer → Calls Registered}
    (h : Working state id t history deadline (.call request next)) (answer : request.Answer) :
    Working state id t (history ++ [.received t ⟨request, answer⟩]) deadline (next answer) := by
  obtain ⟨⟨req, start, hstarted, hdeadline, hruns⟩, honly, hundecided⟩ := h
  refine ⟨⟨req, start, List.mem_append_left _ hstarted, hdeadline, fun rest result hrun => ?_⟩,
    honly.2 answer, hundecided.mark nofun nofun⟩
  have hone : exchanges t [.received t ⟨request, answer⟩] = [⟨request, answer⟩] :=
    List.filterMap_cons_some (if_pos rfl)
  rw [exchanges_append, hone, List.append_assoc]
  exact hruns _ result (.call answer hrun)

/-- An attempt that has done nothing starts on its work. -/
theorem working_of_start {req : AfterRegistrationRequest} {now : ℕ}
    (hstands : Stands state id t none history) (hid : req.identityId = id) :
    Working state id t (history ++ [.started t req now]) (now + state.requestTimeout / 2)
      (collectAndForward state req) where
  started := by
    refine ⟨req, now, List.mem_append_right _ (List.mem_singleton_self _), rfl, ?_⟩
    intro rest result hrun
    have hone : exchanges t [.started t req now] = [] := rfl
    have hnone : exchanges t (history ++ [.started t req now]) = [] := by
      rw [exchanges_append, exchanges_of_ne hstands, hone, List.append_nil]
    rwa [hnone, List.nil_append]
  only := hid ▸ onlyCalls_collectAndForward req
  undecided :=
    Undecided.mark ⟨fun hmem => hstands _ hmem rfl, fun result hmem => hstands _ hmem rfl⟩
      nofun nofun

/-- Its deadline is when its time is over. -/
theorem Working.timedOut {p : Calls Registered} {now : ℕ}
    (h : Working state id t history deadline p) (hlate : deadline ≤ now) :
    WorkFailed state t (history ++ [.timedOut t now]) := by
  obtain ⟨req, start, hstarted, hdeadline, -⟩ := h.started
  refine ⟨req, start, List.mem_append_left _ hstarted, .inr ⟨now, ?_, ?_⟩⟩
  · exact List.mem_append_right _ (List.mem_singleton_self _)
  · rwa [← hdeadline]

theorem attemptsInv_step {c c' : Threads Attempts Attempt} {e : AttemptEvent}
    (hinv : AttemptsInv state id c) (hs : attemptStep state id c e = some c') :
    AttemptsInv state id c' := by
  cases e with
  | start t req now =>
    have hstands := hinv.thread t
    simp only [attemptStep] at hs
    split at hs
    · next hthread =>
      split_ifs at hs with h
      cases hs
      rw [hthread] at hstands
      have hright : AllRight state id (c.shared.history ++ [.started t req now]) :=
        hinv.shared.append trivial
      exact hinv.moveOn (Goes.after rfl (goes_work hright (working_of_start hstands h.2)))
    · cases hs
  | answer t reply now =>
    have hstands := hinv.thread t
    simp only [attemptStep] at hs
    split_ifs at hs
    split at hs
    · next deadline request next hthread =>
      cases hs
      rw [hthread] at hstands
      have hright : AllRight state id
          (c.shared.history ++ [.received t ⟨request, reply request⟩]) := hinv.shared.append trivial
      exact hinv.moveOn (Goes.after rfl (goes_work hright
        (Working.received hstands (reply request))))
    · next deadline request next hthread =>
      cases hs
      rw [hthread] at hstands
      obtain ⟨hsent, result, hfails, hnext⟩ := hstands
      have hright : AllRight state id
          (c.shared.history ++ [.received t ⟨request, reply request⟩]) := hinv.shared.append trivial
      rw [hnext]
      exact hinv.moveOn (Goes.after rfl (goes_answered hright hfails
        (List.mem_append_left _ hsent)))
    · cases hs
    · cases hs
  | timeOut t now =>
    have hstands := hinv.thread t
    simp only [attemptStep] at hs
    split_ifs at hs
    split at hs
    · next deadline request next hthread =>
      split_ifs at hs with hlate
      cases hs
      rw [hthread] at hstands
      have hright : AllRight state id (c.shared.history ++ [.timedOut t now]) :=
        hinv.shared.append trivial
      have hworking : Working state id t c.shared.history deadline (.call request next) := hstands
      have hundecided : Undecided id t (c.shared.history ++ [.timedOut t now]) :=
        hworking.undecided.mark nofun nofun
      exact hinv.moveOn (Goes.after rfl (goes_concludeRegistration hright hundecided
        fun _ => hworking.timedOut hlate))
    · cases hs
    · cases hs
    · cases hs
  | drop t =>
    have hover (deadline : ℕ) :
        AttemptsInv state id (Hooks.moveOn c t deadline (c.shared, .over)) :=
      hinv.moveOn ⟨hinv.shared, trivial, [], (List.append_nil _).symm, by simp⟩
    simp only [attemptStep] at hs
    split at hs
    · cases hs
      exact hover _
    · cases hs
      exact hover _
    · cases hs
    · cases hs

theorem attemptsInv_of_reaches {now : ℕ} {c : Threads Attempts Attempt}
    (h : Reaches (attemptStep state id) Any (noAttempts now) c) : AttemptsInv state id c :=
  h.invariant ⟨allRight_nil, fun _ _ hm => absurd hm List.not_mem_nil⟩
    fun _ _ _ hinv _ hs => attemptsInv_step hinv hs

/-- Nothing is asked for after the answer. -/
theorem AllRight.not_sent (h : AllRight state id history) {result : Registered}
    (hfails : ¬Fails result) (hanswered : .answered t result ∈ history) :
    .sent t (.deleteIdentity id) ∉ history := by
  intro hsent
  obtain ⟨before, after, rfl⟩ := List.append_of_mem hanswered
  rcases List.mem_append.mp hsent with hbefore | hafter
  · exact hfails ((h before _ after rfl).mpr hbefore)
  · obtain ⟨between, rest, rfl⟩ := List.append_of_mem ((List.mem_cons.mp hafter).resolve_left nofun)
    have hright := h (before ++ .answered t result :: between) (.sent t (.deleteIdentity id)) rest
      (by simp)
    exact (hright rfl).2 result (by simp)

/-- **An attempt that answers success never asks for the deletion; one that does has failed itself,
or has run out of its own time; and whoever fails so asks for it before answering.** -/
theorem attempts_delete {now : ℕ} {c : Threads Attempts Attempt}
    (h : Reaches (attemptStep state id) Any (noAttempts now) c) :
    (∀ t result, .answered t result ∈ c.shared.history → ¬Fails result →
      .sent t (.deleteIdentity id) ∉ c.shared.history) ∧
    (∀ t before after, c.shared.history = before ++ .sent t (.deleteIdentity id) :: after →
      WorkFailed state t before) ∧
    (∀ t result before after, c.shared.history = before ++ .answered t result :: after →
      Fails result → .sent t (.deleteIdentity id) ∈ before) := by
  have hright := (attemptsInv_of_reaches h).shared
  refine ⟨fun t result hanswered hfails => hright.not_sent hfails hanswered,
    fun t before after heq => ?_, fun t result before after heq hfails => ?_⟩
  · exact (hright before _ after heq rfl).1
  · exact (hright before _ after heq).mp hfails

/-! ### Two attempts that overlap -/

def registeringState : AppState := { sampleState with registration := true }

def sampleRegistration : AfterRegistrationRequest :=
  ⟨0x11111111111111111111111111111111, "a@b.c", [], none, none⟩

def acceptingAnswer : (request : Call) → request.Answer
  | .getIdentity _ _ => .response 200 (.ok sampleIdentity)
  | .deleteIdentity _ => .response 204 (.error "no body")
  | .webhook _ _ => .response 200 none [] none
  | .profileApis _ _ => []
  | .replaceIdentity _ _ | .deleteOidcLink _ _ | .deleteCredential _ _ | .removePasskey _
  | .listSessions _ | .revokeSession _ | .revokeAllSessions _ | .revokeConsentSessions _
  | .revokeLoginSessions _ | .revokeInBff _ => .failed "not called"

/-- The handler hangs for the first attempt and accepts the second. -/
def overlapping : List AttemptEvent :=
  [.start 0 sampleRegistration 0, .answer 0 acceptingAnswer (fromSecs 1),
    .start 1 sampleRegistration (fromSecs 5), .answer 1 acceptingAnswer (fromSecs 6),
    .answer 1 acceptingAnswer (fromSecs 7), .timeOut 0 (fromSecs 15)]

def overlappingHistory : List Mark :=
  let id := sampleRegistration.identityId
  let registration := Call.webhook .registration (WebhookHandler.registrationPayload sampleCrates id
    "a@b.c" false [])
  [.started 0 sampleRegistration 0, .sent 0 (.getIdentity id false),
    .received 0 ⟨.getIdentity id false, acceptingAnswer _⟩, .sent 0 registration,
    .started 1 sampleRegistration (fromSecs 5), .sent 1 (.getIdentity id false),
    .received 1 ⟨.getIdentity id false, acceptingAnswer _⟩, .sent 1 registration,
    .received 1 ⟨registration, acceptingAnswer _⟩, .answered 1 (.ok ()),
    .timedOut 0 (fromSecs 15), .sent 0 (.deleteIdentity id)]

theorem reaches_overlapping : ∃ c : Threads Attempts Attempt,
    Reaches (attemptStep registeringState sampleRegistration.identityId) Any (noAttempts 0) c ∧
      c.shared.history = overlappingHistory := by
  have hrun : ∃ c, run (attemptStep registeringState sampleRegistration.identityId) (noAttempts 0)
      overlapping = some c ∧ c.shared.history = overlappingHistory := ⟨_, rfl, rfl⟩
  obtain ⟨c, hc, hhistory⟩ := hrun
  exact ⟨c, reaches_of_run (allowed_of_forall (fun _ _ => trivial) _ _) hc, hhistory⟩

/-- The first attempt asks for the deletion once the second has been answered success. -/
theorem deleted_after_success : ∃ c : Threads Attempts Attempt,
    Reaches (attemptStep registeringState sampleRegistration.identityId) Any (noAttempts 0) c ∧
      ∃ before after, c.shared.history = before ++ .answered 1 (.ok ()) :: after ∧
        .sent 0 (.deleteIdentity sampleRegistration.identityId) ∈ after := by
  obtain ⟨c, hc, hhistory⟩ := reaches_overlapping
  refine ⟨c, hc, overlappingHistory.take 9, overlappingHistory.drop 10, hhistory.trans rfl, ?_⟩
  exact .tail _ (.head _)

theorem attempts_delete_overlapping : ∃ c : Threads Attempts Attempt,
    Reaches (attemptStep registeringState sampleRegistration.identityId) Any (noAttempts 0) c ∧
      .sent 1 (.deleteIdentity sampleRegistration.identityId) ∉ c.shared.history ∧
      WorkFailed registeringState 0 (overlappingHistory.take 11) := by
  obtain ⟨c, hc, hhistory⟩ := reaches_overlapping
  obtain ⟨hsuccess, hdeletes, -⟩ := attempts_delete hc
  refine ⟨c, hc, hsuccess 1 (.ok ()) ?_ nofun, hdeletes 0 _ [] (hhistory.trans rfl)⟩
  rw [hhistory]
  exact List.mem_of_getElem? (i := 9) rfl

end Hooks

end WeaveAuth
