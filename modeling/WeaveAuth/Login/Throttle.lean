import Mathlib.Data.List.Sort
import WeaveAuth.Chrono
import WeaveAuth.ForMathlib.HashMap
import WeaveAuth.Text

/-!
# The login throttle

`login/src/throttle.rs`: a growing delay between the attempts for one identifier.

`attempts` is a `u32` there and a natural number here. An entry counts one attempt more than ten for
each five minutes that the clock has run (`ThrottleRuns.attempts_le`), so the two agree for forty
thousand years.

## Main results

* `delayAfter_mono`: more attempts wait no less
* `admits_admitKey`, `get_settle_ne`, `get_settle_notAnAttempt`, `get_sweep`: what each call does

## What is left out

The mutex: `admit`, `settle` and `sweep` await nothing while they hold it. The keys are the
identifiers as `LoginFields` folds them. `Instant` does not go back, and a run's clock does not
either.

## Implementation notes

An eviction takes entries by a rank, and which of several of one rank it takes is left to the map's
order of iteration; `ThrottleEviction` says what holds of every choice.
-/

namespace WeaveAuth

namespace Login

/-- Attempts allowed back to back before the delay starts. -/
def freeAttempts : ℕ := 5

/-- Attempts after the free ones that wait `shortDelay`; beyond them, `longDelay`. -/
def shortDelayAttempts : ℕ := 5

def shortDelay : ℕ := fromSecs 30

def longDelay : ℕ := fromSecs 300

/-- An identifier nobody tried for this long starts from zero again. -/
def forgetAfter : ℕ := fromSecs 3600

/-- Cap on tracked identifiers. -/
def maxTracked : ℕ := 100000

/-! ### Keys -/

/-- A hash of the normalized identifier: 32 bytes. -/
abbrev Key := BitVec 256

/-- The SHA-256 of a text, and what `char::to_lowercase` yields, are given. -/
def Key.of (digest : List Char → Key) (toLowercase : Char → List Char) (identifier : List Char) :
    Key :=
  digest ((trim identifier).map fun c => (toLowercase c).head?.getD c)

/-! ### Entries -/

inductive Admission where
  | admitted
  /-- Refused until then. -/
  | wait (remaining : ℕ)
  deriving DecidableEq

/-- What Kratos' answer says about an admitted attempt. -/
inductive Outcome where
  /-- Wrong credentials: the attempt stays counted. -/
  | failed
  /-- The right ones: the identifier starts from zero. -/
  | succeeded
  /-- Kratos refused it before looking at the password, so it is given back. -/
  | notAnAttempt
  deriving DecidableEq

structure Entry where
  /-- Admitted attempts that haven't succeeded, in flight ones included. -/
  attempts : ℕ
  lastAttempt : Instant
  deriving DecidableEq

def delayAfter (attempts : ℕ) : ℕ :=
  if attempts < freeAttempts then 0
  else if attempts < freeAttempts + shortDelayAttempts then shortDelay
  else longDelay

theorem delayAfter_mono {m n : ℕ} (h : m ≤ n) : delayAfter m ≤ delayAfter n := by
  have hshort : shortDelay ≤ longDelay := by decide
  unfold delayAfter
  split_ifs <;> omega

def Entry.waitUntil (entry : Entry) : Instant := entry.lastAttempt + delayAfter entry.attempts

/-- The order in which entries are evicted: first those not yet delaying anyone, oldest first. -/
def Entry.rankLe (a b : Entry) : Bool :=
  if freeAttempts ≤ a.attempts then
    decide (freeAttempts ≤ b.attempts ∧ a.lastAttempt ≤ b.lastAttempt)
  else decide (freeAttempts ≤ b.attempts ∨ a.lastAttempt ≤ b.lastAttempt)

/-- The keys of the batch. Entries of one rank are taken in the order of the iteration, which may
be any. -/
def evicted (entries : HashMap Key Entry) : List Key :=
  let ranked := entries.pairs.insertionSort fun a b => a.2.rankLe b.2
  (ranked.take (min (max (maxTracked / 10) 1) ranked.length)).map Prod.fst

def evict (entries : HashMap Key Entry) : HashMap Key Entry :=
  (evicted entries).foldl HashMap.remove entries

/-- `LoginThrottle`. -/
structure LoginThrottle where
  entries : HashMap Key Entry

namespace LoginThrottle

/-- How many attempts for `key` are counted. -/
def tracked (t : LoginThrottle) (key : Key) : ℕ := ((t.entries.get key).map Entry.attempts).getD 0

/-- What `admit` does where there is no entry for `key`, or an expired one. -/
def track (t : LoginThrottle) (key : Key) (now : Instant) : LoginThrottle :=
  let entries := if maxTracked ≤ t.entries.pairs.length then evict t.entries else t.entries
  ⟨entries.insert key ⟨1, now⟩⟩

/-- `admit`. -/
def admitKey (t : LoginThrottle) (key : Key) (now : Instant) : Admission × LoginThrottle :=
  match t.entries.get key with
  | some entry =>
    if now < entry.lastAttempt + forgetAfter then
      if now < entry.waitUntil then (.wait (entry.waitUntil - now), t)
      else (.admitted, ⟨t.entries.insert key ⟨entry.attempts + 1, now⟩⟩)
    else (.admitted, t.track key now)
  | none => (.admitted, t.track key now)

def settle (t : LoginThrottle) (key : Key) : Outcome → LoginThrottle
  | .failed => t
  | .succeeded => ⟨t.entries.remove key⟩
  | .notAnAttempt =>
    match t.entries.get key with
    | none => t
    | some entry =>
      if entry.attempts - 1 = 0 then ⟨t.entries.remove key⟩
      else ⟨t.entries.insert key ⟨entry.attempts - 1, entry.lastAttempt⟩⟩

def sweep (t : LoginThrottle) (now : Instant) : LoginThrottle :=
  ⟨t.entries.retain fun _ entry => now < entry.lastAttempt + forgetAfter⟩

/-! ### What the calls do -/

/-- What `admit` comes to. -/
inductive Admits (t : LoginThrottle) (key : Key) (now : Instant) :
    Admission → LoginThrottle → Prop where
  | wait {entry : Entry} (hget : t.entries.get key = some entry)
      (hrecent : now < entry.lastAttempt + forgetAfter) (hwait : now < entry.waitUntil) :
      Admits t key now (.wait (entry.waitUntil - now)) t
  | again {entry : Entry} (hget : t.entries.get key = some entry)
      (hrecent : now < entry.lastAttempt + forgetAfter) (hwaited : entry.waitUntil ≤ now) :
      Admits t key now .admitted ⟨t.entries.insert key ⟨entry.attempts + 1, now⟩⟩
  | first (hexpired : ∀ entry, t.entries.get key = some entry →
      entry.lastAttempt + forgetAfter ≤ now) : Admits t key now .admitted (t.track key now)

theorem admits_admitKey (t : LoginThrottle) (key : Key) (now : Instant) :
    Admits t key now (t.admitKey key now).1 (t.admitKey key now).2 := by
  unfold admitKey
  split
  · next entry hget =>
    split_ifs with hrecent hwait
    · exact .wait hget hrecent hwait
    · exact .again hget hrecent (not_lt.mp hwait)
    · refine .first fun entry' hget' => ?_
      rw [← Option.some.inj (hget.symm.trans hget')]
      exact not_lt.mp hrecent
  · next hget =>
    refine .first fun entry hsome => ?_
    rw [hget] at hsome
    cases hsome

theorem admits_of_eq {t t' : LoginThrottle} {key : Key} {now : Instant} {admission : Admission}
    (h : t.admitKey key now = (admission, t')) : Admits t key now admission t' := by
  have hadmits := admits_admitKey t key now
  rwa [h] at hadmits

/-- Who has to wait changes nothing. -/
theorem eq_of_wait {t t' : LoginThrottle} {key : Key} {now : Instant} {remaining : ℕ}
    (h : Admits t key now (.wait remaining) t') : t' = t := by
  cases h with
  | wait => rfl

theorem admitKey_of_expired {t : LoginThrottle} {key : Key} {now : Instant}
    (h : ∀ entry, t.entries.get key = some entry → entry.lastAttempt + forgetAfter ≤ now) :
    t.admitKey key now = (.admitted, t.track key now) := by
  rw [admitKey]
  cases hget : t.entries.get key with
  | none => rfl
  | some entry =>
    dsimp only
    rw [if_neg (not_lt.mpr (h entry hget))]

theorem track_of_lt {t : LoginThrottle} (h : t.entries.pairs.length < maxTracked) (key : Key)
    (now : Instant) : t.track key now = ⟨t.entries.insert key ⟨1, now⟩⟩ := by
  rw [track, if_neg (not_le.mpr h)]

/-- A new key for which there is room. -/
theorem admitKey_of_new {t : LoginThrottle} {key : Key} (now : Instant)
    (hnew : t.entries.get key = none) (hroom : t.entries.pairs.length < maxTracked) :
    t.admitKey key now = (.admitted, ⟨t.entries.insert key ⟨1, now⟩⟩) := by
  rw [admitKey_of_expired (by simp [hnew]), track_of_lt hroom]

theorem length_insert_of_new {t : LoginThrottle} {key : Key} (entry : Entry)
    (hnew : t.entries.get key = none) :
    (t.entries.insert key entry).pairs.length = t.entries.pairs.length + 1 := by
  rw [HashMap.length_insert, HashMap.length_remove, if_pos hnew]

theorem get_foldl_remove (keys : List Key) (entries : HashMap Key Entry) (key : Key) :
    (keys.foldl HashMap.remove entries).get key =
      if key ∈ keys then none else entries.get key := by
  induction keys generalizing entries with
  | nil => simp
  | cons k keys ih =>
    rw [List.foldl_cons, ih, HashMap.get_remove]
    by_cases hk : key = k <;> simp [hk]

/-- Eviction removes entries and changes none. -/
theorem get_evict (entries : HashMap Key Entry) (key : Key) :
    (evict entries).get key = if key ∈ evicted entries then none else entries.get key :=
  get_foldl_remove _ entries key

theorem get_track_self (t : LoginThrottle) (key : Key) (now : Instant) :
    (t.track key now).entries.get key = some ⟨1, now⟩ :=
  HashMap.get_insert_self _ key _

/-- Another key keeps its entry or is evicted. -/
theorem get_track_ne (t : LoginThrottle) {key key' : Key} (hne : key' ≠ key) (now : Instant) :
    (t.track key now).entries.get key' = none ∨
      (t.track key now).entries.get key' = t.entries.get key' := by
  rw [track, HashMap.get_insert_ne _ hne]
  split_ifs
  · rw [get_evict]
    split_ifs <;> simp
  · exact Or.inr rfl

/-- An attempt that is admitted is counted, with those before it, for which it has waited. -/
theorem Admits.get_self {t t' : LoginThrottle} {key : Key} {now : Instant}
    (h : Admits t key now .admitted t') : ∃ n, t'.entries.get key = some ⟨n + 1, now⟩ ∧
      (t.entries.get key = none → n = 0) ∧
      ∀ entry, t.entries.get key = some entry → now < entry.lastAttempt + forgetAfter →
        n = entry.attempts ∧ entry.waitUntil ≤ now := by
  cases h with
  | again hget hrecent hwaited =>
    refine ⟨_, HashMap.get_insert_self _ _ _, fun hnone => ?_, fun entry hentry _ => ?_⟩
    · rw [hget] at hnone
      cases hnone
    · obtain rfl := Option.some.inj (hget.symm.trans hentry)
      exact ⟨rfl, hwaited⟩
  | first hexpired =>
    exact ⟨0, t.get_track_self key now, fun _ => rfl, fun entry hentry hrecent =>
      absurd (hexpired entry hentry) (not_le.mpr hrecent)⟩

theorem Admits.get_ne {t t' : LoginThrottle} {key key' : Key} {now : Instant}
    {admission : Admission} (h : Admits t key now admission t') (hne : key' ≠ key) :
    t'.entries.get key' = none ∨ t'.entries.get key' = t.entries.get key' := by
  cases h with
  | wait => exact Or.inr rfl
  | again => exact Or.inr (HashMap.get_insert_ne _ hne _)
  | first => exact t.get_track_ne hne now

theorem get_settle_ne (t : LoginThrottle) {key key' : Key} (hne : key' ≠ key) (outcome : Outcome) :
    (t.settle key outcome).entries.get key' = t.entries.get key' := by
  cases outcome with
  | failed => rfl
  | succeeded => exact HashMap.get_remove_ne _ hne
  | notAnAttempt =>
    simp only [settle]
    split
    · rfl
    · split_ifs
      · exact HashMap.get_remove_ne _ hne
      · exact HashMap.get_insert_ne _ hne _

/-- An attempt given back is one less, and an entry without any goes. -/
theorem get_settle_notAnAttempt (t : LoginThrottle) (key : Key) :
    (t.settle key .notAnAttempt).entries.get key = (t.entries.get key).bind fun entry =>
      if entry.attempts - 1 = 0 then none else some ⟨entry.attempts - 1, entry.lastAttempt⟩ := by
  simp only [settle]
  split
  · next hget => rw [hget, Option.bind_none]
  · next entry hget =>
    rw [hget, Option.bind_some]
    split_ifs
    · exact HashMap.get_remove_self _ key
    · exact HashMap.get_insert_self _ key _

/-- Settling makes no entry, and counts none higher. -/
theorem get_settle_le (t : LoginThrottle) {key key' : Key} {outcome : Outcome} {entry : Entry}
    (h : (t.settle key outcome).entries.get key' = some entry) :
    ∃ entry', t.entries.get key' = some entry' ∧ entry.lastAttempt = entry'.lastAttempt ∧
      entry.attempts ≤ entry'.attempts := by
  by_cases hkey : key' = key
  · subst hkey
    cases outcome with
    | failed => exact ⟨entry, h, rfl, le_rfl⟩
    | succeeded =>
      rw [show (t.settle key' .succeeded).entries = t.entries.remove key' from rfl,
        HashMap.get_remove_self] at h
      cases h
    | notAnAttempt =>
      rw [get_settle_notAnAttempt] at h
      obtain ⟨entry', hget, h⟩ := Option.bind_eq_some_iff.mp h
      obtain ⟨-, h⟩ := Option.ite_none_left_eq_some.mp h
      obtain rfl := Option.some.inj h
      exact ⟨entry', hget, rfl, Nat.sub_le _ _⟩
  · rw [t.get_settle_ne hkey] at h
    exact ⟨entry, h, rfl, le_rfl⟩

theorem get_sweep (t : LoginThrottle) (now : Instant) (key : Key) :
    (t.sweep now).entries.get key =
      (t.entries.get key).filter fun entry => now < entry.lastAttempt + forgetAfter :=
  HashMap.get_retain _ _ key

/-- An entry that has not expired is not swept. -/
theorem get_sweep_of_recent (t : LoginThrottle) {now : Instant} {key : Key}
    (h : ∀ entry ∈ t.entries.get key, now < entry.lastAttempt + forgetAfter) :
    (t.sweep now).entries.get key = t.entries.get key := by
  rw [get_sweep]
  cases hget : t.entries.get key with
  | none => rfl
  | some entry => exact Option.filter_eq_some_iff.mpr ⟨rfl, decide_eq_true (h entry hget)⟩

theorem tracked_settle_notAnAttempt (t : LoginThrottle) (key : Key) :
    (t.settle key .notAnAttempt).tracked key = t.tracked key - 1 := by
  rw [tracked, tracked, get_settle_notAnAttempt]
  cases t.entries.get key with
  | none => rfl
  | some entry =>
    rw [Option.bind_some]
    split_ifs with hzero
    · simpa using hzero.symm
    · simp

end LoginThrottle

end Login

end WeaveAuth
