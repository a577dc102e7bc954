import WeaveAuth.Http
import WeaveAuth.Login.ThrottleEviction

/-!
# The wait that is announced

What becomes of an identifier that has to wait, while the throttle is called for others, and the
page that says so.

## Main results

* `entry_of_reaches`: the entry of who waits stays
* `announced_wait`: the wait counts down to an attempt that is admitted, and `Retry-After` is its
  length in whole seconds

## Scope

Other keys may be called for in any number, as long as the entry of who waits is not evicted
(`Elsewhere`). The page says a number of whole seconds, rounded up, so who waits for as long as it
says is admitted.
-/

namespace WeaveAuth

namespace Login

open Transition

/-! ### The page -/

/-- The seconds that `throttled_page` announces. -/
def retryAfterSecs (wait : ℕ) : ℕ := wait / 1000000000 + if 0 < wait % 1000000000 then 1 else 0

/-- `throttled_page`; the rest of the error page is given. -/
def throttledPage {B : Type} (errorPage : ℕ → String → Response B) (wait : ℕ) : Response B :=
  let seconds := toString (retryAfterSecs wait)
  let response := errorPage 429
    ("Too many sign-in attempts. Try again in " ++ seconds ++ " seconds.")
  match HeaderValue.ofStr seconds.toList with
  | none => response
  | some value => { response with headers := response.headers.insert .retryAfter value }

/-- The seconds are rounded up. -/
theorem retryAfterSecs_le_iff {wait seconds : ℕ} :
    retryAfterSecs wait ≤ seconds ↔ wait ≤ fromSecs seconds := by
  unfold retryAfterSecs fromSecs
  split_ifs <;> omega

theorem retryAfter_throttledPage {B : Type} (errorPage : ℕ → String → Response B) (wait : ℕ) :
    ∃ value : HeaderValue, (throttledPage errorPage wait).headers.get .retryAfter = some value ∧
      value.toStr = some (toString (retryAfterSecs wait)).toList := by
  obtain ⟨value, hvalue, htext⟩ := HeaderValue.toStr_ofStr
    (s := (toString (retryAfterSecs wait)).toList) fun c hc => .inr <| by
      have := digit_of_mem_toString hc
      omega
  refine ⟨value, ?_, htext⟩
  simp only [throttledPage, hvalue]
  rfl

/-- Nobody is forgotten while waiting. -/
theorem Entry.waitUntil_lt (entry : Entry) : entry.waitUntil < entry.lastAttempt + forgetAfter := by
  have hshort : shortDelay < forgetAfter := by decide
  have hlong : longDelay < forgetAfter := by decide
  refine Nat.add_lt_add_left ?_ _
  unfold delayAfter
  split_ifs
  · exact (Nat.zero_le _).trans_lt hshort
  · exact hshort
  · exact hlong

namespace LoginThrottle

/-! ### What happens meanwhile -/

/-- What may happen between two times: nothing for the key, which is not evicted either. -/
def Elsewhere (key : Key) (now later : Instant) (t : LoginThrottle) : Call → Prop
  | .admitKey key' at' => key' ≠ key ∧ now ≤ at' ∧ at' ≤ later ∧
      (t.entries.get key ≠ none → (t.admitKey key' at').2.entries.get key ≠ none)
  | .settle key' _ => key' ≠ key
  | .sweep at' => now ≤ at' ∧ at' ≤ later
  | .rehash _ => True

/-- The entry is there, unless the time is over. -/
def Kept (key : Key) (entry : Entry) (later : Instant) (t : LoginThrottle) : Prop :=
  t.entries.get key = some entry ∨ t.entries.get key = none ∧ entry.waitUntil ≤ later

theorem kept_call {t t' : LoginThrottle} {key : Key} {entry : Entry} {now later : Instant}
    {c : Call} (h : t.Kept key entry later) (hok : Elsewhere key now later t c)
    (hs : t.call c = some t') : t'.Kept key entry later := by
  cases c with
  | admitKey key' at' =>
    obtain ⟨hne, -, -, hkept⟩ := hok
    obtain rfl := Option.some.inj hs
    rcases (admits_admitKey t key' at').get_ne hne.symm with hgone | hsame
    · refine h.imp (fun hget => ?_) fun hget => ⟨hgone, hget.2⟩
      exact absurd hgone (hkept (by simp [hget]))
    · rwa [Kept, hsame]
  | settle key' outcome =>
    obtain rfl := Option.some.inj hs
    rwa [Kept, get_settle_ne _ (Ne.symm hok)]
  | sweep at' =>
    obtain rfl := Option.some.inj hs
    rw [Kept, get_sweep]
    rcases h with hget | ⟨hget, hover⟩
    · rw [hget, Option.filter_some]
      split_ifs with hrecent
      · exact .inl rfl
      · rw [decide_eq_true_eq, not_lt] at hrecent
        exact .inr ⟨rfl, (entry.waitUntil_lt.le.trans hrecent).trans hok.2⟩
    · exact .inr ⟨by rw [hget]; rfl, hover⟩
  | rehash entries =>
    obtain ⟨hperm, hs⟩ := Option.ite_none_right_eq_some.mp hs
    obtain rfl := Option.some.inj hs
    rwa [Kept, HashMap.get_eq_of_rehash hperm]

theorem entry_of_reaches {t u : LoginThrottle} {key : Key} {entry : Entry} {now later : Instant}
    (h : t.Kept key entry later) (hreach : Reaches call (Elsewhere key now later) t u) :
    u.Kept key entry later :=
  hreach.invariant h fun _ _ _ hkept hok hs => kept_call hkept hok hs

/-- Who comes back too early waits for the rest, and is admitted then. -/
theorem admitKey_of_kept {t : LoginThrottle} {key : Key} {entry : Entry} {later : Instant}
    (h : t.Kept key entry later) :
    (t.admitKey key later).1 =
      if later < entry.waitUntil then .wait (entry.waitUntil - later) else .admitted := by
  unfold admitKey
  rcases h with hget | ⟨hget, hover⟩
  · rw [hget]
    dsimp only
    split_ifs with hrecent hwait hwait
    · rfl
    · rfl
    · exact absurd (hwait.trans entry.waitUntil_lt) hrecent
    · rfl
  · rw [hget, if_neg (not_lt.mpr hover)]

/-- **The wait that is announced is right.** -/
theorem announced_wait {t t' : LoginThrottle} {key : Key} {now : Instant} {wait : ℕ}
    (h : t.admitKey key now = (.wait wait, t')) :
    t' = t ∧ 0 < wait ∧
    (∀ later u, now ≤ later → Reaches call (Elsewhere key now later) t u →
      (later < now + wait → (u.admitKey key later).1 = .wait (now + wait - later)) ∧
      (now + wait ≤ later → (u.admitKey key later).1 = .admitted)) ∧
    (∀ {B : Type} (errorPage : ℕ → String → Response B), ∃ value : HeaderValue,
      (throttledPage errorPage wait).headers.get .retryAfter = some value ∧
      value.toStr = some (toString (retryAfterSecs wait)).toList) ∧
    ∀ seconds u, Reaches call (Elsewhere key now (now + fromSecs seconds)) t u →
      ((u.admitKey key (now + fromSecs seconds)).1 = .admitted ↔
        retryAfterSecs wait ≤ seconds) := by
  cases admits_of_eq h with
  | @wait entry hget hrecent hwait =>
    have hover : now + (entry.waitUntil - now) = entry.waitUntil := Nat.add_sub_cancel' hwait.le
    refine ⟨rfl, Nat.sub_pos_of_lt hwait, fun later u _ hreach => ?_,
      fun errorPage => retryAfter_throttledPage errorPage _, fun seconds u hreach => ?_⟩
    · rw [hover, admitKey_of_kept (entry_of_reaches (.inl hget) hreach)]
      exact ⟨fun hearly => if_pos hearly, fun hlate => if_neg (not_lt.mpr hlate)⟩
    · rw [retryAfterSecs_le_iff, admitKey_of_kept (entry_of_reaches (.inl hget) hreach)]
      split_ifs with hearly
      · exact iff_of_false (by simp) (not_le.mpr (Nat.lt_sub_iff_add_lt'.mpr hearly))
      · exact iff_of_true rfl (Nat.sub_le_iff_le_add'.mpr (not_lt.mp hearly))

/-- The sixth attempt for an identifier, ten nanoseconds after five others. -/
theorem announced_wait_sixth : let t : LoginThrottle := ⟨(∅ : HashMap Key Entry).insert 1 ⟨5, 0⟩⟩
    0 < 29999999990 ∧ (t.admitKey 1 20).1 = .wait (10 + 29999999990 - 20) ∧
      ((t.admitKey 1 (10 + fromSecs 30)).1 = .admitted ↔ retryAfterSecs 29999999990 ≤ 30) := by
  intro t
  have h : t.admitKey 1 10 = (.wait 29999999990, t) := Prod.ext (by decide +kernel) rfl
  obtain ⟨-, hpos, hmeanwhile, -, hseconds⟩ := announced_wait h
  exact ⟨hpos, (hmeanwhile 20 t (by decide) .refl).1 (by decide), hseconds 30 t .refl⟩

end LoginThrottle

end Login

end WeaveAuth
