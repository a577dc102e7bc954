import WeaveAuth.ForMathlib.Transition
import WeaveAuth.Login.Throttle

/-!
# The throttle in use

Any number of login attempts, for any identifiers, each admitted and later settled at most once,
and any number of sweeps, while the clock runs.

## Main results

* `attempts_le`: how high an entry counts

## Scope

A run is any sequence of events for any keys. An attempt is admitted at one event and settled at
another, at most once and with any outcome, or never. A theorem that needs a condition on a run
brings its own.

## How the proof goes

`Bounded` bounds each entry's count by the time of its last attempt. Up to ten there is nothing to
show; beyond, an attempt that is counted has waited five minutes after the one before, so the bound
has grown by one. No other event raises a count or sets a time back.
-/

namespace WeaveAuth

namespace Login

open Transition

/-- An attempt that was admitted. -/
structure Attempt where
  key : Key
  admittedAt : Instant
  /-- What it was settled with. -/
  outcome : Option Outcome
  /-- A success for its key was settled since. -/
  superseded : Bool
  deriving DecidableEq

/-- The throttle, every attempt that it admitted, and the clock. -/
structure World where
  throttle : LoginThrottle
  attempts : List Attempt
  now : Instant

def World.start : World := ⟨⟨∅⟩, [], 0⟩

inductive Event where
  | admitKey (key : Key) (now : Instant)
  /-- Kratos answered an attempt, given by its number. -/
  | settle (attempt : ℕ) (outcome : Outcome) (now : Instant)
  | sweep (now : Instant)
  /-- The entries come to be iterated in another order. -/
  | rehash (entries : HashMap Key Entry)

def Attempt.settle (attempt : Attempt) (outcome : Outcome) : Attempt :=
  { attempt with outcome := some outcome }

/-- A success for `key` is settled. -/
def Attempt.supersede (key : Key) (attempt : Attempt) : Attempt :=
  if attempt.key = key then { attempt with superseded := true } else attempt

/-- The attempts after one of them is settled. -/
def settled (attempts : List Attempt) (i : ℕ) (attempt : Attempt) (outcome : Outcome) :
    List Attempt :=
  let attempts := attempts.set i (attempt.settle outcome)
  if outcome = .succeeded then attempts.map (Attempt.supersede attempt.key) else attempts

theorem settled_of_ne {attempts before after : List Attempt} {attempt : Attempt}
    (hattempts : attempts = before ++ attempt :: after) {outcome : Outcome}
    (houtcome : outcome ≠ .succeeded) :
    settled attempts before.length attempt outcome = before ++ attempt.settle outcome :: after := by
  rw [settled, if_neg houtcome, hattempts]
  simp

namespace World

/-- `admit` has answered. -/
def answered (w : World) (key : Key) (now : Instant) (admission : Admission)
    (throttle : LoginThrottle) : World :=
  let admitted := if admission = .admitted then [⟨key, now, none, false⟩] else []
  ⟨throttle, w.attempts ++ admitted, now⟩

def step (w : World) : Event → Option World
  | .admitKey key now =>
    if now < w.now then none
    else
      let (admission, throttle) := w.throttle.admitKey key now
      some (w.answered key now admission throttle)
  | .settle i outcome now =>
    if now < w.now then none
    else
      match w.attempts[i]? with
      | none => none
      | some attempt =>
        if attempt.outcome = none then
          some ⟨w.throttle.settle attempt.key outcome, settled w.attempts i attempt outcome, now⟩
        else none
  | .sweep now => if now < w.now then none else some ⟨w.throttle.sweep now, w.attempts, now⟩
  | .rehash entries =>
    if w.throttle.entries.entries.entries.Perm entries.entries.entries then
      some { w with throttle := ⟨entries⟩ }
    else none

variable {w w' : World} {e : Event}

/-- What an event does. -/
inductive Steps (w : World) : Event → World → Prop where
  | wait {key : Key} {now : Instant} {remaining : ℕ} (hnow : w.now ≤ now)
      (h : w.throttle.admitKey key now = (.wait remaining, w.throttle)) :
      Steps w (.admitKey key now) { w with now := now }
  | admitted {key : Key} {now : Instant} {throttle : LoginThrottle} (hnow : w.now ≤ now)
      (h : w.throttle.admitKey key now = (.admitted, throttle)) :
      Steps w (.admitKey key now) ⟨throttle, w.attempts ++ [⟨key, now, none, false⟩], now⟩
  | settle {before after : List Attempt} {attempt : Attempt} {outcome : Outcome} {now : Instant}
      (hnow : w.now ≤ now) (hattempts : w.attempts = before ++ attempt :: after)
      (hopen : attempt.outcome = none) :
      Steps w (.settle before.length outcome now)
        ⟨w.throttle.settle attempt.key outcome,
          settled w.attempts before.length attempt outcome, now⟩
  | sweep {now : Instant} (hnow : w.now ≤ now) :
      Steps w (.sweep now) ⟨w.throttle.sweep now, w.attempts, now⟩
  | rehash {entries : HashMap Key Entry} (h : w.throttle.entries.Rehash entries) :
      Steps w (.rehash entries) { w with throttle := ⟨entries⟩ }

theorem steps_of_admitKey {key : Key} {now : Instant} (hnow : w.now ≤ now) :
    Steps w (.admitKey key now)
      (w.answered key now (w.throttle.admitKey key now).1 (w.throttle.admitKey key now).2) := by
  rcases hanswer : w.throttle.admitKey key now with ⟨admission, throttle⟩
  cases admission with
  | admitted => exact .admitted hnow hanswer
  | wait remaining =>
    obtain rfl := LoginThrottle.eq_of_wait (LoginThrottle.admits_of_eq hanswer)
    simpa [answered] using Steps.wait hnow hanswer

theorem steps_of_step (h : w.step e = some w') : Steps w e w' := by
  cases e with
  | admitKey key now =>
    obtain ⟨hnow, h⟩ := Option.ite_none_left_eq_some.mp h
    obtain rfl := Option.some.inj h
    exact steps_of_admitKey (not_lt.mp hnow)
  | settle i outcome now =>
    obtain ⟨hnow, h⟩ := Option.ite_none_left_eq_some.mp h
    split at h
    · cases h
    · next attempt hattempt =>
      obtain ⟨hopen, h⟩ := Option.ite_none_right_eq_some.mp h
      obtain rfl := Option.some.inj h
      obtain ⟨hi, hget⟩ := List.getElem?_eq_some_iff.mp hattempt
      have hsplit : w.attempts = w.attempts.take i ++ attempt :: w.attempts.drop (i + 1) := by
        rw [← hget, List.getElem_cons_drop, List.take_append_drop]
      have hlength : (w.attempts.take i).length = i := by simp [hi.le]
      have hsettle : Steps w (.settle (w.attempts.take i).length outcome now) _ :=
        .settle (not_lt.mp hnow) hsplit hopen
      rwa [hlength] at hsettle
  | sweep now =>
    obtain ⟨hnow, h⟩ := Option.ite_none_left_eq_some.mp h
    exact Option.some.inj h ▸ .sweep (not_lt.mp hnow)
  | rehash entries =>
    obtain ⟨hperm, h⟩ := Option.ite_none_right_eq_some.mp h
    exact Option.some.inj h ▸ .rehash hperm

/-! ### Evictions -/

/-- The entry of `key` is not evicted. -/
def NotEvicted (key : Key) (w : World) : Event → Prop
  | .admitKey key' now => w.throttle.entries.get key ≠ none →
      (w.throttle.admitKey key' now).2.entries.get key ≠ none
  | .settle _ _ _ | .sweep _ | .rehash _ => True

instance (key : Key) (w : World) : (e : Event) → Decidable (NotEvicted key w e)
  | .admitKey _ _ => inferInstanceAs (Decidable (_ → _))
  | .settle _ _ _ | .sweep _ | .rehash _ => inferInstanceAs (Decidable True)

theorem get_of_notEvicted {key key' : Key} {now : Instant} {throttle : LoginThrottle}
    (hok : NotEvicted key w (.admitKey key' now)) (hne : key ≠ key')
    (hanswer : w.throttle.admitKey key' now = (.admitted, throttle)) :
    throttle.entries.get key = w.throttle.entries.get key := by
  rcases (LoginThrottle.admits_of_eq hanswer).get_ne hne with hgone | hsame
  · by_contra hother
    rw [hgone] at hother
    refine hok (Ne.symm hother) ?_
    rwa [hanswer]
  · exact hsame

/-! ### How high an entry counts -/

/-- Beyond ten, an attempt takes five minutes. -/
def Bounded (w : World) : Prop :=
  ∀ key entry, w.throttle.entries.get key = some entry →
    entry.lastAttempt ≤ w.now ∧ entry.attempts ≤ 10 + entry.lastAttempt / longDelay

theorem bounded_again {entry : Entry} {now : Instant} (hwaited : entry.waitUntil ≤ now)
    (h : entry.attempts ≤ 10 + entry.lastAttempt / longDelay) :
    entry.attempts + 1 ≤ 10 + now / longDelay := by
  by_cases hfew : entry.attempts < 10
  · exact Nat.le_add_right_of_le hfew
  · have hdelay : delayAfter entry.attempts = longDelay := by
      rw [delayAfter, if_neg (by simp only [freeAttempts]; omega),
        if_neg (by simp only [freeAttempts, shortDelayAttempts]; omega)]
    have hnow : entry.lastAttempt + longDelay ≤ now := by rwa [Entry.waitUntil, hdelay] at hwaited
    have hdiv := Nat.div_le_div_right (c := longDelay) hnow
    rw [Nat.add_div_right _ (by decide)] at hdiv
    omega

theorem bounded_step (h : w.Bounded) (hs : w.step e = some w') : w'.Bounded := by
  intro key entry hget
  cases steps_of_step hs with
  | wait hnow =>
    obtain ⟨hlast, hle⟩ := h key entry hget
    exact ⟨hlast.trans hnow, hle⟩
  | @admitted admitted now throttle hnow hanswer =>
    have hadmits := LoginThrottle.admits_of_eq hanswer
    by_cases hkey : key = admitted
    · subst hkey
      cases hadmits with
      | again hget' _ hwaited =>
        obtain rfl := Option.some.inj ((HashMap.get_insert_self _ _ _).symm.trans hget)
        exact ⟨le_rfl, bounded_again hwaited (h key _ hget').2⟩
      | first =>
        obtain rfl := Option.some.inj ((LoginThrottle.get_track_self _ _ _).symm.trans hget)
        exact ⟨le_rfl, Nat.le_add_right_of_le (show 1 ≤ 10 by decide)⟩
    · have hold : w.throttle.entries.get key = some entry := by
        rcases hadmits.get_ne hkey with hgone | hsame
        · rw [hgone] at hget
          cases hget
        · rwa [hsame] at hget
      obtain ⟨hlast, hle⟩ := h key entry hold
      exact ⟨hlast.trans hnow, hle⟩
  | @settle before after attempt outcome now hnow =>
    obtain ⟨entry', hget', hlast, hle⟩ := w.throttle.get_settle_le hget
    obtain ⟨hlast', hle'⟩ := h key entry' hget'
    rw [hlast]
    exact ⟨hlast'.trans hnow, hle.trans hle'⟩
  | sweep hnow =>
    rw [LoginThrottle.get_sweep] at hget
    obtain ⟨hlast, hle⟩ := h key entry (Option.filter_eq_some_iff.mp hget).1
    exact ⟨hlast.trans hnow, hle⟩
  | rehash hrehash => exact h key entry ((HashMap.get_eq_of_rehash hrehash key).symm.trans hget)

/-- **An entry counts one attempt more than ten for each five minutes the clock has run.** -/
theorem attempts_le (h : Reaches step Any start w) {key : Key} {entry : Entry}
    (hget : w.throttle.entries.get key = some entry) : entry.attempts ≤ 10 + w.now / longDelay := by
  have hbounded : w.Bounded := h.invariant (by intro key entry hget; cases hget)
    fun _ _ _ hbounded _ hs => bounded_step hbounded hs
  obtain ⟨hlast, hle⟩ := hbounded key entry hget
  exact hle.trans (Nat.add_le_add_left (Nat.div_le_div_right hlast) 10)

end World

end Login

end WeaveAuth
