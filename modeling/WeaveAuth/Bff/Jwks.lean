import WeaveAuth.Bff.LogoutToken
import WeaveAuth.Chrono
import WeaveAuth.ForMathlib.Transition

/-!
# Hydra's signing keys

`bff/src/hydra/jwks.rs`. `keys_for` holds the cache's mutex from its beginning to its end, and can
be dropped only while its fetch is under way; so a run is a sequence of calls, each `beginCall` and,
where that begins a fetch, `endCall` or nothing more. Every reading of the clock is its own.

A run's log says what happened, the last first. It is what the promises are about; the program
keeps none.

## Main results

* `inv_of_reaches`: what holds between any two events
* `kept_of_reaches`: how often keys are fetched, and how old those are that are handed back

## What is assumed

Of `find`, which looks for a `kid` among keys, nothing; of the answers nothing; of the clock that it
is not set back, which `std::time::Instant` promises. `Ordered` says so of the readings of one call.

## Implementation notes

A call that begins a fetch keeps the mutex until it ends, so there is at most one `Fetching` and no
other call between its two events. That is a fact of the code and not of this model: the guard lives
across the await of the fetch. A call that is dropped there gives the mutex back, and the attempt
that it has recorded stays.
-/

namespace WeaveAuth

namespace Bff

namespace Jwks

/-- `Keys`: the same keys for `openidconnect` and for `jsonwebtoken`. -/
structure Keys (OpenId Jwt : Type) where
  openid : OpenId
  jwt : Jwt

/-- What the cache calls of `openidconnect`, `jsonwebtoken` and `serde_json`; an unreadable body
comes with the text of its error. -/
structure KeySets (OpenId Jwt : Type) where
  openid : List ℕ → Except String OpenId
  jwt : List ℕ → Except String Jwt
  /-- `JwkSet::find` finds it. -/
  find : Jwt → String → Bool

/-- What the HTTP client hands over: the cause of having no response, or a status with a body, which
may break off. -/
abbrev Answer := Except String (ℕ × Except String (List ℕ))

/-- The ages in nanoseconds; keys are trusted for some time. -/
structure JwksCache where
  minRefresh : ℕ
  maxAge : ℕ
  maxAge_pos : 0 < maxAge

/-- How long fetched keys are trusted. -/
def maxAge : ℕ := fromSecs (60 * 60)

def JwksCache.new (minRefresh : ℕ) : JwksCache where
  minRefresh := minRefresh
  maxAge := Jwks.maxAge
  maxAge_pos := by decide

/-- `Cached`. -/
structure Cached (K : Type) where
  keys : Option (K × Instant)
  lastAttempt : Option Instant

section KeysFor

variable {OpenId Jwt : Type} (sets : KeySets OpenId Jwt)

/-- `Keys::parse`. -/
def parse (body : List ℕ) : Except JwksError (Keys OpenId Jwt) :=
  match sets.openid body, sets.jwt body with
  | .error cause, _ => .error (.unreadable cause)
  | .ok _, .error cause => .error (.unreadable cause)
  | .ok openid, .ok jwt => .ok ⟨openid, jwt⟩

def hasKid (keys : Keys OpenId Jwt) (kid : String) : Bool := sets.find keys.jwt kid

def fetch : Answer → Except JwksError (Keys OpenId Jwt)
  | .error cause => .error (.unreachable cause)
  | .ok (status, body) =>
    if 200 ≤ status ∧ status < 300 then
      match body with
      | .error cause => .error (.unreachable cause)
      | .ok body => parse sets body
    else .error (.unavailable status)

/-- The readings of the clock before the fetch: the two of the keys' age, the one of the last
attempt's, and the one it is replaced by. -/
structure Readings where
  fresh : Instant
  stale : Instant
  attempt : Instant
  start : Instant

/-- How a call came by its answer. -/
inductive Course where
  | cached
  | throttled
  | fetched
  | failed
  deriving DecidableEq

/-- What a call has come to when it first gives up the thread: its answer, or a fetch and the keys
it falls back on. -/
inductive Begun (K : Type) where
  | answered (course : Course) (result : Except JwksError K)
  | fetching (stale : Option K)

variable (cache : JwksCache)

/-- The keys that are too old, but not too old to serve when there are no others. -/
def staleKeys (cached : Cached (Keys OpenId Jwt)) (kid : Option String) (now : Instant) :
    Option (Keys OpenId Jwt) :=
  match cached.keys, kid with
  | some (keys, fetchedAt), some kid =>
    if hasKid sets keys kid && now - fetchedAt < cache.maxAge * 2 then some keys else none
  | _, _ => none

/-- `ok_or`. -/
def okOr {K : Type} (keys : Option K) (error : JwksError) : Except JwksError K :=
  match keys with
  | some keys => .ok keys
  | none => .error error

/-- `keys_for`, up to the fetch. -/
def beginCall (cached : Cached (Keys OpenId Jwt)) (kid : Option String) (clock : Readings) :
    Cached (Keys OpenId Jwt) × Begun (Keys OpenId Jwt) :=
  match cached.keys.filter fun (keys, fetchedAt) =>
      clock.fresh - fetchedAt < cache.maxAge && kid.all (hasKid sets keys) with
  | some (keys, _) => (cached, .answered .cached (.ok keys))
  | none =>
    let stale := staleKeys sets cache cached kid clock.stale
    if cached.lastAttempt.any fun attempt => clock.attempt - attempt < cache.minRefresh then
      (cached, .answered .throttled (okOr stale .throttled))
    else ({ cached with lastAttempt := some clock.start }, .fetching stale)

/-- `keys_for`, from the fetch on; `now` is read if it succeeded. -/
def endCall (cached : Cached (Keys OpenId Jwt)) (kid : Option String)
    (stale : Option (Keys OpenId Jwt)) (fetched : Except JwksError (Keys OpenId Jwt))
    (now : Instant) : Cached (Keys OpenId Jwt) × Course × Except JwksError (Keys OpenId Jwt) :=
  match fetched with
  | .error error => (cached, .failed, okOr stale error)
  | .ok keys =>
    ({ cached with keys := some (keys, now) }, .fetched,
      match kid with
      | some kid => if !hasKid sets keys kid then .error (.unknownKey kid) else .ok keys
      | none => .ok keys)

end KeysFor

/-! ### Runs -/

/-- A call that was answered. -/
structure Answered (K : Type) where
  kid : Option String
  /-- When it last asked how old the cached keys are. -/
  checkedAt : Instant
  course : Course
  result : Except JwksError K

inductive Entry (K : Type) where
  | started (at_ : Instant)
  | succeeded (keys : K) (at_ : Instant)
  | failed
  | dropped
  | answered (call : Answered K)

/-- A call that waits for its fetch. -/
structure Fetching (K : Type) where
  kid : Option String
  checkedAt : Instant
  stale : Option K

structure World (K : Type) where
  cached : Cached K
  clock : Instant
  fetching : Option (Fetching K)
  log : List (Entry K)

/-- `JwksCache::new` at some time. -/
def World.new {K : Type} (clock : Instant) : World K := ⟨⟨none, none⟩, clock, none, []⟩

inductive Event where
  | call (kid : Option String) (clock : Readings)
  | fetched (answer : Answer) (now : Instant)
  /-- The call is dropped during its fetch. -/
  | dropped

/-- The readings come in order, after those before the call. -/
def Readings.Ordered (clock : Readings) (before : Instant) : Prop :=
  before ≤ clock.fresh ∧ clock.fresh ≤ clock.stale ∧ clock.stale ≤ clock.attempt ∧
    clock.attempt ≤ clock.start

instance (clock : Readings) (before : Instant) : Decidable (clock.Ordered before) :=
  inferInstanceAs (Decidable (_ ∧ _))

section Step

variable {OpenId Jwt : Type} (sets : KeySets OpenId Jwt) (cache : JwksCache)

def begin (w : World (Keys OpenId Jwt)) (kid : Option String) (clock : Readings) :
    World (Keys OpenId Jwt) :=
  match beginCall sets cache w.cached kid clock with
  | (cached, .answered course result) =>
    let checkedAt := if course = .cached then clock.fresh else clock.stale
    ⟨cached, clock.start, none, .answered ⟨kid, checkedAt, course, result⟩ :: w.log⟩
  | (cached, .fetching stale) =>
    ⟨cached, clock.start, some ⟨kid, clock.stale, stale⟩, .started clock.start :: w.log⟩

def finish (w : World (Keys OpenId Jwt)) (call : Fetching (Keys OpenId Jwt))
    (fetched : Except JwksError (Keys OpenId Jwt)) (now : Instant) : World (Keys OpenId Jwt) :=
  let (cached, course, result) := endCall sets w.cached call.kid call.stale fetched now
  let entry := match fetched with
    | .ok keys => Entry.succeeded keys now
    | .error _ => .failed
  ⟨cached, now, none, .answered ⟨call.kid, call.checkedAt, course, result⟩ :: entry :: w.log⟩

def step (w : World (Keys OpenId Jwt)) : Event → Option (World (Keys OpenId Jwt))
  | .call kid clock =>
    if w.fetching.isNone ∧ clock.Ordered w.clock then some (begin sets cache w kid clock) else none
  | .fetched answer now =>
    w.fetching.bind fun call =>
      if w.clock ≤ now then some (finish sets w call (fetch sets answer) now) else none
  | .dropped => w.fetching.map fun _ => { w with fetching := none, log := .dropped :: w.log }

end Step

/-! ### What a call does -/

theorem lt_of_age_lt {now since span : ℕ} (h : now - since < span) : now < since + span := by
  omega

section Call

variable {OpenId Jwt : Type} {sets : KeySets OpenId Jwt} {cache : JwksCache}
  {cached : Cached (Keys OpenId Jwt)} {kid : Option String} {keys : Keys OpenId Jwt}

/-- Keys that may serve although too old: the cached ones, with the `kid` that is asked for. -/
def Fallback (sets : KeySets OpenId Jwt) (cache : JwksCache) (cached : Cached (Keys OpenId Jwt))
    (kid : Option String) (now : Instant) (keys : Keys OpenId Jwt) : Prop :=
  ∃ fetchedAt wanted, cached.keys = some (keys, fetchedAt) ∧ kid = some wanted ∧
    hasKid sets keys wanted = true ∧ now < fetchedAt + 2 * cache.maxAge

theorem fallback_of_staleKeys {now : Instant}
    (h : staleKeys sets cache cached kid now = some keys) :
    Fallback sets cache cached kid now keys := by
  unfold staleKeys at h
  split at h
  · next keys' fetchedAt wanted hkeys =>
    split_ifs at h with hserves
    cases h
    obtain ⟨hhas, hage⟩ := Bool.and_eq_true_iff.mp hserves
    have hlt := lt_of_age_lt (of_decide_eq_true hage)
    exact ⟨fetchedAt, wanted, hkeys, rfl, hhas, by rwa [Nat.mul_comm] at hlt⟩
  · cases h

theorem okOr_eq_ok {K : Type} {stale : Option K} {error : JwksError} {k : K}
    (h : okOr stale error = .ok k) : stale = some k := by
  cases stale with
  | none => cases h
  | some keys => cases h; rfl

/-- **How a call begins.** -/
theorem beginCall_cases (sets : KeySets OpenId Jwt) (cache : JwksCache)
    (cached : Cached (Keys OpenId Jwt)) (kid : Option String) (clock : Readings) :
    (∃ keys fetchedAt, cached.keys = some (keys, fetchedAt) ∧
        clock.fresh < fetchedAt + cache.maxAge ∧ kid.all (hasKid sets keys) = true ∧
        beginCall sets cache cached kid clock = (cached, .answered .cached (.ok keys))) ∨
      (∃ attempt, cached.lastAttempt = some attempt ∧
        clock.attempt < attempt + cache.minRefresh ∧
        beginCall sets cache cached kid clock =
          (cached, .answered .throttled
            (okOr (staleKeys sets cache cached kid clock.stale) .throttled))) ∨
      (∀ attempt ∈ cached.lastAttempt, cache.minRefresh ≤ clock.attempt - attempt) ∧
        beginCall sets cache cached kid clock =
          ({ cached with lastAttempt := some clock.start },
            .fetching (staleKeys sets cache cached kid clock.stale)) := by
  rw [beginCall]
  split
  · next keys fetchedAt hfresh =>
    obtain ⟨hkeys, hserves⟩ := Option.filter_eq_some_iff.mp hfresh
    obtain ⟨hage, hall⟩ := Bool.and_eq_true_iff.mp hserves
    have hlt := lt_of_age_lt (of_decide_eq_true hage)
    exact Or.inl ⟨keys, fetchedAt, hkeys, hlt, hall, rfl⟩
  · refine Or.inr ?_
    dsimp only
    split_ifs with hthrottled
    · obtain ⟨attempt, hattempt, hrecent⟩ := (Option.any_eq_true _ _).mp hthrottled
      exact Or.inl ⟨attempt, hattempt, lt_of_age_lt (of_decide_eq_true hrecent), rfl⟩
    · refine Or.inr ⟨?_, rfl⟩
      intro attempt hattempt
      rw [Option.mem_def.mp hattempt] at hthrottled
      simpa using hthrottled

/-- **How a call ends.** -/
theorem endCall_ok (sets : KeySets OpenId Jwt) (cached : Cached (Keys OpenId Jwt))
    (kid : Option String) (stale : Option (Keys OpenId Jwt)) (keys : Keys OpenId Jwt)
    (now : Instant) : ∃ result,
      endCall sets cached kid stale (.ok keys) now =
        ({ cached with keys := some (keys, now) }, .fetched, result) ∧
      ∀ keys', result = .ok keys' → keys' = keys ∧ kid.all (hasKid sets keys) = true := by
  refine ⟨_, rfl, ?_⟩
  intro keys' h
  cases kid with
  | none => cases h; exact ⟨rfl, rfl⟩
  | some kid =>
    dsimp only at h
    split_ifs at h with hhas
    cases h
    exact ⟨rfl, by simpa using hhas⟩

end Call

/-! ### What is promised -/

section Promises

variable {K : Type}

/-- When the fetches started, the last first. -/
def starts (log : List (Entry K)) : List Instant :=
  log.filterMap fun
    | .started start => some start
    | _ => none

/-- The keys of the last fetch that succeeded, and when it did. -/
def lastFetched : List (Entry K) → Option (K × Instant)
  | [] => none
  | .succeeded keys now :: _ => some (keys, now)
  | _ :: log => lastFetched log

/-- No fetch failed, and none was dropped. -/
def Smooth (log : List (Entry K)) : Prop := ∀ entry ∈ log, entry ≠ .failed ∧ entry ≠ .dropped

/-- The call's fetch has just failed, or none was made because the last is too recent. -/
def NoFetch (cache : JwksCache) (call : Answered K) (before : List (Entry K)) : Prop :=
  call.course = .failed ∧ before.head? = some .failed ∨
    call.course = .throttled ∧
      ∃ start, (starts before).head? = some start ∧ call.checkedAt < start + cache.minRefresh

/-- What is known of keys that are handed back. -/
structure Handed (has : K → String → Bool) (cache : JwksCache) (call : Answered K)
    (before : List (Entry K)) (keys : K) (fetchedAt : Instant) : Prop where
  /-- No later fetch has succeeded. -/
  latest : lastFetched before = some (keys, fetchedAt)
  hasKid : ∀ kid, call.kid = some kid → has keys kid = true
  age_lt : call.checkedAt < fetchedAt + 2 * cache.maxAge
  stale : fetchedAt + cache.maxAge ≤ call.checkedAt →
    call.kid.isSome = true ∧ NoFetch cache call before
  smooth : Smooth before → cache.minRefresh ≤ cache.maxAge →
    call.checkedAt < fetchedAt + cache.maxAge

/-- So are all that the log says were handed back. -/
def AllHanded (has : K → String → Bool) (cache : JwksCache) (log : List (Entry K)) : Prop :=
  ∀ call before, .answered call :: before <:+ log → ∀ keys, call.result = .ok keys →
    ∃ fetchedAt, Handed has cache call before keys fetchedAt

structure Kept (has : K → String → Bool) (cache : JwksCache) (w : World K) : Prop where
  spaced : (starts w.log).Pairwise fun later earlier => earlier + cache.minRefresh ≤ later
  handed : AllHanded has cache w.log
  /-- Only a fetch that succeeds changes the cached keys. -/
  current : w.cached.keys = lastFetched w.log

theorem AllHanded.answered {has : K → String → Bool} {cache : JwksCache} {log : List (Entry K)}
    (h : AllHanded has cache log) {call : Answered K}
    (hcall : ∀ keys, call.result = .ok keys →
      ∃ fetchedAt, Handed has cache call log keys fetchedAt) :
    AllHanded has cache (.answered call :: log) := by
  intro call' before hsuffix
  obtain heq | hsuffix := List.suffix_cons_iff.mp hsuffix
  · cases heq
    exact hcall
  · exact h call' before hsuffix

/-- An entry that is not an answer hands nothing back. -/
theorem AllHanded.cons {has : K → String → Bool} {cache : JwksCache} {log : List (Entry K)}
    (h : AllHanded has cache log) {entry : Entry K} (hentry : ∀ call, .answered call ≠ entry) :
    AllHanded has cache (entry :: log) := by
  intro call before hsuffix
  obtain heq | hsuffix := List.suffix_cons_iff.mp hsuffix
  · exact absurd (List.cons_eq_cons.mp heq).1 (hentry call)
  · exact h call before hsuffix

theorem Smooth.tail {entry : Entry K} {log : List (Entry K)} (h : Smooth (entry :: log)) :
    Smooth log := fun e he => h e (List.mem_cons_of_mem _ he)

/-- Every fetch started before the last one by the least interval. -/
theorem spaced_cons {log : List (Entry K)} {minRefresh : ℕ} {start : Instant}
    (h : (starts log).Pairwise fun later earlier => earlier + minRefresh ≤ later)
    (hlast : ∀ last ∈ (starts log).head?, last + minRefresh ≤ start) :
    (start :: starts log).Pairwise fun later earlier => earlier + minRefresh ≤ later := by
  refine List.pairwise_cons.mpr ⟨?_, h⟩
  intro earlier hmem
  rcases hstarts : starts log with - | ⟨last, rest⟩
  · rw [hstarts] at hmem
    cases hmem
  · rw [hstarts] at hmem h hlast
    have hle : last + minRefresh ≤ start := hlast last rfl
    obtain rfl | hmem := List.mem_cons.mp hmem
    · exact hle
    · have hearlier := (List.pairwise_cons.mp h).1 earlier hmem
      exact hearlier.trans ((Nat.le_add_right _ _).trans hle)

end Promises

/-! ### What holds between any two events -/

section Invariant

variable {OpenId Jwt : Type} {sets : KeySets OpenId Jwt} {cache : JwksCache}
  {w w' : World (Keys OpenId Jwt)}

structure Inv (sets : KeySets OpenId Jwt) (cache : JwksCache) (w : World (Keys OpenId Jwt)) : Prop
    extends Kept (hasKid sets) cache w where
  attempt : w.cached.lastAttempt = (starts w.log).head?
  attempt_le : ∀ start ∈ w.cached.lastAttempt, start ≤ w.clock
  fetched_le : ∀ keys fetchedAt, w.cached.keys = some (keys, fetchedAt) → fetchedAt ≤ w.clock
  fallback : ∀ call ∈ w.fetching, call.checkedAt ≤ w.clock ∧
    ∀ keys, call.stale = some keys → Fallback sets cache w.cached call.kid call.checkedAt keys
  /-- The last attempt brought the keys, if all did that were made. -/
  settled : Smooth w.log → w.fetching = none → ∀ start ∈ w.cached.lastAttempt,
    ∃ keys fetchedAt, w.cached.keys = some (keys, fetchedAt) ∧ start ≤ fetchedAt

theorem inv_new (clock : Instant) : Inv sets cache (World.new clock) where
  spaced := List.Pairwise.nil
  handed := by
    intro call before hsuffix
    exact absurd (List.suffix_nil.mp hsuffix) (List.cons_ne_nil _ _)
  current := rfl
  attempt := rfl
  attempt_le := by rintro start ⟨⟩
  fetched_le := by rintro keys fetchedAt ⟨⟩
  fallback := by rintro call ⟨⟩
  settled := by rintro - - start ⟨⟩

/-- Stale keys are the last ones fetched, and are handed back for want of others. -/
theorem handed_of_fallback {call : Answered (Keys OpenId Jwt)} {keys : Keys OpenId Jwt}
    {before : List (Entry (Keys OpenId Jwt))} (hcurrent : w.cached.keys = lastFetched before)
    (hfallback : Fallback sets cache w.cached call.kid call.checkedAt keys)
    (hnoFetch : NoFetch cache call before)
    (hsmooth : Smooth before → cache.minRefresh ≤ cache.maxAge → ∀ fetchedAt,
      w.cached.keys = some (keys, fetchedAt) → call.checkedAt < fetchedAt + cache.maxAge) :
    ∃ fetchedAt, Handed (hasKid sets) cache call before keys fetchedAt := by
  obtain ⟨fetchedAt, wanted, hkeys, hwanted, hhas, hage⟩ := hfallback
  refine ⟨fetchedAt, hcurrent.symm.trans hkeys, ?_, hage, ?_, ?_⟩
  · intro kid hkid
    obtain rfl : wanted = kid := Option.some.inj (hwanted.symm.trans hkid)
    exact hhas
  · intro _
    exact ⟨by rw [hwanted]; rfl, hnoFetch⟩
  · intro hs hle
    exact hsmooth hs hle fetchedAt hkeys

/-- A call that ends at once leaves the cache as it is. -/
theorem Inv.answered (h : Inv sets cache w) {call : Answered (Keys OpenId Jwt)} {now : Instant}
    (hnow : w.clock ≤ now) (hfetching : w.fetching = none)
    (hcall : ∀ keys, call.result = .ok keys →
      ∃ fetchedAt, Handed (hasKid sets) cache call w.log keys fetchedAt) :
    Inv sets cache ⟨w.cached, now, none, .answered call :: w.log⟩ where
  spaced := h.spaced
  handed := h.handed.answered hcall
  current := h.current
  attempt := h.attempt
  attempt_le start hstart := (h.attempt_le start hstart).trans hnow
  fetched_le keys fetchedAt hkeys := (h.fetched_le keys fetchedAt hkeys).trans hnow
  fallback := by rintro call ⟨⟩
  settled hsmooth _ := h.settled hsmooth.tail hfetching

theorem Inv.begin (h : Inv sets cache w) (hfetching : w.fetching = none) {kid : Option String}
    {clock : Readings} (hclock : clock.Ordered w.clock) :
    Inv sets cache (begin sets cache w kid clock) := by
  obtain ⟨hfresh, hstale, hattempt, hstart⟩ := hclock
  have hnow : w.clock ≤ clock.start :=
    hfresh.trans (hstale.trans (hattempt.trans hstart))
  obtain ⟨keys, fetchedAt, hkeys, hage, hall, heq⟩ | ⟨attempt, hlast, hrecent, heq⟩ |
    ⟨hgap, heq⟩ := beginCall_cases sets cache w.cached kid clock
  · rw [Jwks.begin, heq]
    refine h.answered hnow hfetching ?_
    rintro keys' ⟨⟩
    refine ⟨fetchedAt, h.current.symm.trans hkeys, ?_, ?_, ?_, ?_⟩
    · rintro wanted rfl
      simpa using hall
    · exact lt_of_lt_of_le hage (Nat.add_le_add_left (Nat.le_mul_of_pos_left _ Nat.two_pos) _)
    · intro hold
      exact absurd hage (not_lt.mpr hold)
    · intro _ _
      exact hage
  · rw [Jwks.begin, heq]
    refine h.answered hnow hfetching ?_
    intro keys hkeys
    refine handed_of_fallback h.current (fallback_of_staleKeys (okOr_eq_ok hkeys)) ?_ ?_
    · exact Or.inr ⟨rfl, attempt, h.attempt ▸ hlast, lt_of_le_of_lt hattempt hrecent⟩
    · intro hsmooth hle fetchedAt hcached
      obtain ⟨keys', fetchedAt', hcached', hbefore⟩ := h.settled hsmooth hfetching attempt hlast
      obtain ⟨rfl, rfl⟩ : keys = keys' ∧ fetchedAt = fetchedAt' := by
        simpa using hcached.symm.trans hcached'
      calc clock.stale
          ≤ clock.attempt := hattempt
        _ < attempt + cache.minRefresh := hrecent
        _ ≤ fetchedAt + cache.maxAge := Nat.add_le_add hbefore hle
  · rw [Jwks.begin, heq]
    have hspaced : ∀ last ∈ (starts w.log).head?, last + cache.minRefresh ≤ clock.start := by
      intro last hmem
      rw [← h.attempt] at hmem
      have hle := (h.attempt_le last hmem).trans (hfresh.trans hstale)
      exact (Nat.add_le_of_le_sub' (hle.trans hattempt) (hgap last hmem)).trans hstart
    exact {
      spaced := spaced_cons h.spaced hspaced
      handed := h.handed.cons (by rintro call ⟨⟩)
      current := h.current
      attempt := rfl
      attempt_le := by
        rintro start ⟨⟩
        exact le_rfl
      fetched_le := fun keys fetchedAt hkeys => (h.fetched_le keys fetchedAt hkeys).trans hnow
      fallback := by
        rintro call ⟨⟩
        exact ⟨hattempt.trans hstart, fun keys hkeys => fallback_of_staleKeys hkeys⟩
      settled := by rintro - ⟨⟩ }

theorem Inv.finish (h : Inv sets cache w) {call : Fetching (Keys OpenId Jwt)}
    (hcall : w.fetching = some call) {fetched : Except JwksError (Keys OpenId Jwt)} {now : Instant}
    (hnow : w.clock ≤ now) : Inv sets cache (finish sets w call fetched now) := by
  obtain ⟨hchecked, hfallback⟩ := h.fallback call hcall
  cases fetched with
  | error error =>
    have hsmooth {entry : Entry (Keys OpenId Jwt)} : ¬Smooth (entry :: .failed :: w.log) :=
      fun hs => (hs.tail .failed (List.mem_cons_self ..)).1 rfl
    exact {
      spaced := h.spaced
      handed := by
        have hfailed : AllHanded (hasKid sets) cache (.failed :: w.log) :=
          h.handed.cons (by rintro call ⟨⟩)
        refine hfailed.answered ?_
        intro keys hkeys
        refine handed_of_fallback h.current (hfallback keys (okOr_eq_ok hkeys))
          (Or.inl ⟨rfl, rfl⟩) ?_
        intro hs
        exact absurd rfl (hs .failed (List.mem_cons_self ..)).1
      current := h.current
      attempt := h.attempt
      attempt_le := fun start hstart => (h.attempt_le start hstart).trans hnow
      fetched_le := fun keys fetchedAt hkeys => (h.fetched_le keys fetchedAt hkeys).trans hnow
      fallback := by rintro call ⟨⟩
      settled := fun hs => absurd hs hsmooth }
  | ok keys =>
    obtain ⟨result, heq, hresult⟩ := endCall_ok sets w.cached call.kid call.stale keys now
    rw [Jwks.finish, heq]
    have hbefore : call.checkedAt < now + cache.maxAge :=
      lt_of_le_of_lt (hchecked.trans hnow) (Nat.lt_add_of_pos_right cache.maxAge_pos)
    exact {
      spaced := h.spaced
      handed := by
        have hsucceeded : AllHanded (hasKid sets) cache (.succeeded keys now :: w.log) :=
          h.handed.cons (by rintro call ⟨⟩)
        refine hsucceeded.answered ?_
        intro keys' hkeys
        obtain ⟨rfl, hall⟩ := hresult keys' hkeys
        refine ⟨now, rfl, ?_, ?_, ?_, ?_⟩
        · intro kid hkid
          rw [show call.kid = some kid from hkid] at hall
          simpa using hall
        · exact lt_of_lt_of_le hbefore
            (Nat.add_le_add_left (Nat.le_mul_of_pos_left _ Nat.two_pos) _)
        · intro hold
          exact absurd hbefore (not_lt.mpr hold)
        · intro _ _
          exact hbefore
      current := rfl
      attempt := h.attempt
      attempt_le := fun start hstart => (h.attempt_le start hstart).trans hnow
      fetched_le := by
        rintro _ _ ⟨⟩
        exact le_rfl
      fallback := by rintro call ⟨⟩
      settled := fun _ _ start hstart =>
        ⟨keys, now, rfl, (h.attempt_le start hstart).trans hnow⟩ }

theorem Inv.dropped (h : Inv sets cache w) :
    Inv sets cache { w with fetching := none, log := .dropped :: w.log } where
  spaced := h.spaced
  handed := h.handed.cons (by rintro call ⟨⟩)
  current := h.current
  attempt := h.attempt
  attempt_le := h.attempt_le
  fetched_le := h.fetched_le
  fallback := by rintro call ⟨⟩
  settled hsmooth := absurd rfl (hsmooth .dropped (List.mem_cons_self ..)).2

theorem Inv.step (h : Inv sets cache w) {e : Event} (hs : step sets cache w e = some w') :
    Inv sets cache w' := by
  cases e with
  | call kid clock =>
    rw [Jwks.step] at hs
    split_ifs at hs with hguard
    cases hs
    exact h.begin (Option.isNone_iff_eq_none.mp hguard.1) hguard.2
  | fetched answer now =>
    obtain ⟨call, hcall, hs⟩ := Option.bind_eq_some_iff.mp hs
    split_ifs at hs with hnow
    cases hs
    exact h.finish hcall hnow
  | dropped =>
    obtain ⟨call, -, rfl⟩ := Option.map_eq_some_iff.mp hs
    exact h.dropped

/-- **What holds between any two events of a run.** -/
theorem inv_of_reaches {clock : Instant}
    (h : Transition.Reaches (Jwks.step sets cache) Transition.Any (World.new clock) w) :
    Inv sets cache w :=
  h.invariant (inv_new clock) fun _ _ _ hinv _ hs => hinv.step hs

/-- **What the cache promises.** In any run of calls, none of them made during another's fetch:
fetches start `minRefresh` apart at least; keys are handed back that are those of the last fetch
that succeeded, that have the `kid` asked for, that are not `2 * maxAge` old, that are younger than
`maxAge` unless a `kid` is asked for and the call's fetch failed or could not be made, and that are
younger than `maxAge` in any case as long as no fetch fails; and only such a fetch changes the
cached keys. -/
theorem kept_of_reaches {clock : Instant}
    (h : Transition.Reaches (Jwks.step sets cache) Transition.Any (World.new clock) w) :
    Kept (hasKid sets) cache w :=
  (inv_of_reaches h).toKept

end Invariant

/-- The JWKS as a list of `kid`s, the bytes being characters of theirs. -/
def kids : KeySets Unit (List String) where
  openid _ := .ok ()
  jwt body := .ok (body.map fun b => String.singleton (Char.ofNat b))
  find := fun keys kid => keys.contains kid

def servedAfterFailure (w : World (Keys Unit (List String))) : Bool :=
  match w.log with
  | .answered ⟨_, _, .failed, .ok keys⟩ :: _ => keys.jwt = ["a", "b"]
  | _ => false

/-- Keys `a` and `b` are fetched; an hour later Hydra is down, and they still serve for `a`. -/
theorem kept_of_reaches_outage : ∃ w : World (Keys Unit (List String)),
    Kept (hasKid kids) (JwksCache.new (fromSecs 60)) w ∧ servedAfterFailure w = true := by
  let at_ (n : ℕ) : Readings := ⟨fromSecs n, fromSecs n, fromSecs n, fromSecs n⟩
  have hrun : (Transition.run (step kids (JwksCache.new (fromSecs 60))) (World.new 0)
      [.call none (at_ 1), .fetched (.ok (200, .ok [0x61, 0x62])) (fromSecs 2),
        .call (some "a") (at_ 4000), .fetched (.error "down") (fromSecs 4001)]).any
      servedAfterFailure = true := by
    decide +kernel
  obtain ⟨w, -, hreaches, hserved⟩ := Transition.exists_run servedAfterFailure hrun
  exact ⟨w, kept_of_reaches hreaches, hserved⟩

end Jwks

end Bff

end WeaveAuth
