import Mathlib.Algebra.BigOperators.Intervals
import Mathlib.Data.List.Chain
import WeaveAuth.Login.ThrottleRuns

/-!
# How fast an identifier can be tried

Attempts that are given back lower the count again, and an entry may go and come back. What is
kept is a statement about all the ways to choose attempts that were not given back, each soon after
the one before: as many as are chosen are counted, as long as the last is not forgotten.

## Main results

* `World.rate_bound`: how long `n` attempts take that are not given back

## Implementation notes

What is counted is a choice of events of the run, each within an hour of the one before. The
invariant speaks of all such choices at once, since which of them is the longest changes with every
event.

## How the proof goes

`Paced` is the invariant: every chosen sublist takes its time, and is counted by the entry as long
as its last attempt is not forgotten. An admission adds one to a choice, and has waited for the
delay of as many as the entry counts, which are at least as many as were chosen. An attempt that is
given back is in no choice any more. But what is chosen without it could have been chosen with it,
so the entry counted one more than it has to, and may lower its count.
-/

namespace WeaveAuth

namespace Login

open Transition

/-- When the attempts for `key` were admitted that have not been given back. -/
def kept (key : Key) (attempts : List Attempt) : List Instant :=
  (attempts.filter fun a => a.key = key ∧ a.outcome ≠ some .notAnAttempt).map Attempt.admittedAt

/-- Each soon after the one before. -/
abbrev Soon (times : List Instant) : Prop :=
  times.IsChain fun earlier later => later < earlier + forgetAfter

/-- How long `n` attempts take. -/
def minSpan (n : ℕ) : ℕ := ∑ i ∈ Finset.range n, delayAfter i

theorem minSpan_succ (n : ℕ) : minSpan (n + 1) = minSpan n + delayAfter n :=
  Finset.sum_range_succ _ _

/-- Thirty seconds for each of the second five, and five minutes for each beyond. -/
theorem minSpan_eq {n : ℕ} (h : 6 ≤ n) :
    minSpan n = fromSecs (30 * (min n 10 - 5) + 300 * (n - 10)) := by
  induction n, h using Nat.le_induction with
  | base => decide
  | succ n hn ih =>
    rw [minSpan_succ, ih, delayAfter]
    split_ifs with hfree hshort <;>
      simp only [freeAttempts, shortDelayAttempts, shortDelay, longDelay, fromSecs] at * <;> omega

/-! ### The attempts kept -/

theorem kept_append (key : Key) (l l' : List Attempt) :
    kept key (l ++ l') = kept key l ++ kept key l' := by
  simp [kept]

theorem kept_admitted (key : Key) (now : Instant) : kept key [⟨key, now, none, false⟩] = [now] := by
  simp [kept]

theorem kept_admitted_ne {key key' : Key} (hne : key' ≠ key) (now : Instant) :
    kept key [⟨key', now, none, false⟩] = [] := by
  simp [kept, hne]

/-- A success changes no time. -/
theorem kept_supersede (key key' : Key) (l : List Attempt) :
    kept key (l.map (Attempt.supersede key')) = kept key l := by
  have hsame : ∀ a : Attempt, (a.supersede key').key = a.key ∧
      (a.supersede key').outcome = a.outcome ∧ (a.supersede key').admittedAt = a.admittedAt := by
    intro a
    unfold Attempt.supersede
    split_ifs <;> simp
  simp [kept, List.filter_map, Function.comp_def, hsame]

/-- An attempt that is settled stays, unless it is given back. -/
theorem kept_settled (key : Key) {attempts before after : List Attempt} {attempt : Attempt}
    (hattempts : attempts = before ++ attempt :: after) (hopen : attempt.outcome = none)
    {outcome : Outcome} (h : attempt.key ≠ key ∨ outcome ≠ .notAnAttempt) :
    kept key (settled attempts before.length attempt outcome) = kept key attempts := by
  have hset : kept key (before ++ attempt.settle outcome :: after) = kept key attempts := by
    rw [hattempts, kept_append, kept_append]
    by_cases hkey : attempt.key = key
    · have hkept : some outcome ≠ some Outcome.notAnAttempt := fun heq =>
        h.elim (absurd hkey) (fun hne => hne (Option.some.inj heq))
      simp [kept, Attempt.settle, hkey, hopen, hkept]
    · simp [kept, Attempt.settle, hkey]
  by_cases houtcome : outcome = .succeeded
  · rw [settled, if_pos houtcome, kept_supersede, ← hset, hattempts]
    simp
  · rw [settled_of_ne hattempts houtcome, hset]

/-- One that is given back goes. -/
theorem kept_given_back {attempts before after : List Attempt} {attempt : Attempt}
    (hattempts : attempts = before ++ attempt :: after) (hopen : attempt.outcome = none) :
    kept attempt.key attempts =
      kept attempt.key before ++ attempt.admittedAt :: kept attempt.key after ∧
    kept attempt.key (settled attempts before.length attempt .notAnAttempt) =
      kept attempt.key before ++ kept attempt.key after := by
  rw [settled_of_ne hattempts (by decide), hattempts, kept_append, kept_append]
  simp [kept, Attempt.settle, hopen]

/-! ### Choosing attempts -/

/-- With a new attempt, it is chosen, as the last one, or not. -/
theorem sublist_concat {times l : List Instant} {now : Instant} (h : times.Sublist (l ++ [now])) :
    times.Sublist l ∨ ∃ before, before.Sublist l ∧ times = before ++ [now] := by
  obtain ⟨before, last, rfl, hbefore, hlast⟩ := List.sublist_append_iff.mp h
  rcases List.sublist_singleton.mp hlast with rfl | rfl
  · exact Or.inl (by rwa [List.append_nil])
  · exact Or.inr ⟨before, hbefore, rfl⟩

/-- An attempt in the middle may be chosen too, if the first one after it comes soon after it. -/
theorem soon_insert {before after : List Instant} {at' : Instant}
    (hsoon : Soon (before ++ after)) (hordered : ∀ t ∈ after, at' ≤ t)
    (hbefore : after = [] → ∀ t ∈ before.getLast?, at' < t + forgetAfter)
    (hafter : ∀ t ∈ after, t < at' + forgetAfter) : Soon (before ++ at' :: after) := by
  obtain ⟨hsoonBefore, hsoonAfter, hjoin⟩ := List.isChain_append.mp hsoon
  refine List.isChain_append.mpr ⟨hsoonBefore, ?_, fun t ht at'' hat => ?_⟩
  · exact List.isChain_cons.mpr ⟨fun t ht => hafter t (List.mem_of_mem_head? ht), hsoonAfter⟩
  · obtain rfl := Option.some.inj hat
    cases after with
    | nil => exact hbefore rfl t ht
    | cons next after =>
      exact (hordered next List.mem_cons_self).trans_lt (hjoin t ht next rfl)

/-- Times that come soon after each other still do with one more between them, and the last of them
is no earlier then. -/
theorem soon_with {before after : List Instant} {at' last now : Instant}
    (hsoon : Soon (before ++ after)) (hlast : last ∈ (before ++ after).getLast?)
    (hrecent : now < last + forgetAfter) (hnow : at' ≤ now) (hbefore : ∀ t ∈ before, t ≤ at')
    (hafter : ∀ t ∈ after, at' ≤ t ∧ t < at' + forgetAfter) :
    Soon (before ++ at' :: after) ∧ ∃ last' ∈ (before ++ at' :: after).getLast?, last ≤ last' := by
  refine ⟨soon_insert hsoon (fun t ht => (hafter t ht).1) (fun hnil t ht => ?_)
    fun t ht => (hafter t ht).2, ?_⟩
  · rw [hnil, List.append_nil] at hlast
    obtain rfl := Option.some.inj (ht.symm.trans hlast)
    exact hnow.trans_lt hrecent
  -- The last one is the same, unless the new one comes after it.
  · cases after with
    | nil =>
      rw [List.append_nil] at hlast
      exact ⟨at', by simp, hbefore last (List.mem_of_mem_getLast? hlast)⟩
    | cons t after => exact ⟨last, by simpa using hlast, le_rfl⟩

namespace World

variable {key : Key} {w w' : World} {e : Event}

/-- No success is settled for `key`, and what is settled for it was admitted lately. -/
def SettledSoon (key : Key) (w : World) : Event → Prop
  | .settle i outcome now => ∀ attempt ∈ w.attempts[i]?, attempt.key = key →
      outcome ≠ .succeeded ∧ now < attempt.admittedAt + forgetAfter
  | .admitKey _ _ | .sweep _ | .rehash _ => True

/-- Of the attempts kept, any that were made soon after each other have taken their time, and are
all counted as long as the last of them is not forgotten. -/
structure Paced (key : Key) (w : World) : Prop where
  ordered : (kept key w.attempts).Pairwise (· ≤ ·)
  le_now : ∀ t ∈ kept key w.attempts, t ≤ w.now
  span : ∀ times, times.Sublist (kept key w.attempts) → Soon times → ∀ first ∈ times.head?,
    ∀ last ∈ times.getLast?, first + minSpan times.length ≤ last
  counted : ∀ times, times.Sublist (kept key w.attempts) → Soon times →
    ∀ last ∈ times.getLast?, w.now < last + forgetAfter →
    ∃ entry, w.throttle.entries.get key = some entry ∧ times.length ≤ entry.attempts ∧
      last ≤ entry.lastAttempt

theorem paced_start (key : Key) : start.Paced key where
  ordered := .nil
  le_now := by rintro t ht; cases ht
  span := by
    intro times hsub _ first hfirst
    rw [List.sublist_nil.mp hsub] at hfirst
    cases hfirst
  counted := by
    intro times hsub _ last hlast
    rw [List.sublist_nil.mp hsub] at hlast
    cases hlast

/-- What keeps the attempts kept only has to keep the entry. -/
theorem Paced.of_kept (h : w.Paced key) (hnow : w.now ≤ w'.now)
    (hkept : kept key w'.attempts = kept key w.attempts)
    (hentry : ∀ entry, w.throttle.entries.get key = some entry →
      w'.now < entry.lastAttempt + forgetAfter → w'.throttle.entries.get key = some entry) :
    w'.Paced key where
  ordered := hkept ▸ h.ordered
  le_now t ht := (h.le_now t (hkept ▸ ht)).trans hnow
  span := hkept ▸ h.span
  counted := by
    intro times hsub hsoon last hlast hrecent
    rw [hkept] at hsub
    obtain ⟨entry, hget, hcount, hle⟩ :=
      h.counted times hsub hsoon last hlast (hnow.trans_lt hrecent)
    exact ⟨entry, hentry entry hget (hrecent.trans_le (Nat.add_le_add_right hle _)), hcount, hle⟩

/-- The last of some attempts that were kept was made before now. -/
theorem Paced.last_le_now (h : w.Paced key) {times : List Instant}
    (hsub : times.Sublist (kept key w.attempts)) {last : Instant} (hlast : last ∈ times.getLast?) :
    last ≤ w.now :=
  h.le_now last (hsub.subset (List.mem_of_mem_getLast? hlast))

/-- A new attempt has waited for those chosen before, if the last of them is not forgotten. -/
theorem Paced.waited (h : w.Paced key) {now : Instant} (hnow : w.now ≤ now)
    {throttle : LoginThrottle} (hadmits : w.throttle.Admits key now .admitted throttle) :
    ∃ n, throttle.entries.get key = some ⟨n + 1, now⟩ ∧
      ∀ times, times.Sublist (kept key w.attempts) → Soon times → ∀ last ∈ times.getLast?,
        now < last + forgetAfter → times.length ≤ n ∧ last + delayAfter times.length ≤ now := by
  obtain ⟨n, hself, -, hwaited⟩ := hadmits.get_self
  refine ⟨n, hself, fun times hsub hsoon last hlast hrecent => ?_⟩
  obtain ⟨entry, hget, hle, hlastLe⟩ :=
    h.counted times hsub hsoon last hlast (hnow.trans_lt hrecent)
  obtain ⟨rfl, hwait⟩ := hwaited entry hget (hrecent.trans_le (Nat.add_le_add_right hlastLe _))
  exact ⟨hle, (Nat.add_le_add hlastLe (delayAfter_mono hle)).trans hwait⟩

/-- The new attempt adds what it has waited. -/
theorem Paced.span_concat (h : w.Paced key) {before : List Instant} {now : Instant}
    (hbefore : before.Sublist (kept key w.attempts)) (hsoon : Soon before)
    (hwait : ∀ last ∈ before.getLast?, last + delayAfter before.length ≤ now) {first : Instant}
    (hfirst : first ∈ (before ++ [now]).head?) :
    first + minSpan (before ++ [now]).length ≤ now := by
  cases hend : before.getLast? with
  | none =>
    obtain rfl := List.getLast?_eq_none_iff.mp hend
    obtain rfl : now = first := by simpa using hfirst
    exact le_rfl
  | some last =>
    have hfirst' : first ∈ before.head? := by
      cases before with
      | nil => cases hend
      | cons => exact hfirst
    have hspan := h.span before hbefore hsoon first hfirst' last hend
    rw [List.length_append, List.length_singleton, minSpan_succ, ← Nat.add_assoc]
    exact (Nat.add_le_add_right hspan _).trans (hwait last hend)

theorem Paced.admitted (h : w.Paced key) {now : Instant} (hnow : w.now ≤ now)
    {throttle : LoginThrottle} (hadmits : w.throttle.Admits key now .admitted throttle) :
    Paced key ⟨throttle, w.attempts ++ [⟨key, now, none, false⟩], now⟩ := by
  obtain ⟨n, hself, hwaited⟩ := h.waited hnow hadmits
  have hkept : kept key (w.attempts ++ [⟨key, now, none, false⟩]) =
      kept key w.attempts ++ [now] := by
    rw [kept_append, kept_admitted]
  have hwait : ∀ before : List Instant, before.Sublist (kept key w.attempts) →
      Soon (before ++ [now]) → ∀ last ∈ before.getLast?,
        before.length ≤ n ∧ last + delayAfter before.length ≤ now := by
    intro before hsub hsoon last hlast
    obtain ⟨hbefore, -, hjoin⟩ := List.isChain_append.mp hsoon
    exact hwaited before hsub hbefore last hlast (hjoin last hlast now rfl)
  refine ⟨?_, ?_, ?_, ?_⟩
  · rw [hkept]
    refine List.pairwise_append.mpr ⟨h.ordered, List.pairwise_singleton _ _, fun t ht t' ht' => ?_⟩
    rw [List.mem_singleton.mp ht']
    exact (h.le_now t ht).trans hnow
  · rw [hkept]
    intro t ht
    rcases List.mem_append.mp ht with hold | hnew
    · exact (h.le_now t hold).trans hnow
    · exact (List.mem_singleton.mp hnew).le
  · rw [hkept]
    intro times hsub hsoon first hfirst last hlast
    rcases sublist_concat hsub with hold | ⟨before, hbefore, rfl⟩
    · exact h.span times hold hsoon first hfirst last hlast
    · obtain rfl : now = last := by simpa using hlast
      obtain ⟨hsoonBefore, -, -⟩ := List.isChain_append.mp hsoon
      exact h.span_concat hbefore hsoonBefore
        (fun last' hlast' => (hwait before hbefore hsoon last' hlast').2) hfirst
  · rw [hkept]
    intro times hsub hsoon last hlast hrecent
    refine ⟨_, hself, ?_⟩
    rcases sublist_concat hsub with hold | ⟨before, hbefore, rfl⟩
    · exact ⟨(hwaited times hold hsoon last hlast hrecent).1.trans (Nat.le_succ n),
        (h.last_le_now hold hlast).trans hnow⟩
    · obtain rfl : now = last := by simpa using hlast
      refine ⟨?_, le_rfl⟩
      rw [List.length_append, List.length_singleton]
      cases hend : before.getLast? with
      | none =>
        rw [List.getLast?_eq_none_iff.mp hend]
        exact Nat.le_add_left _ n
      | some last' => exact Nat.add_le_add_right (hwait before hbefore hsoon last' hend).1 1

/-- Whatever is chosen without the attempt that is given back could have been chosen with it. -/
theorem Paced.given_back {before after : List Attempt} {attempt : Attempt} (h : w.Paced attempt.key)
    (hattempts : w.attempts = before ++ attempt :: after) (hopen : attempt.outcome = none)
    {now : Instant} (hnow : w.now ≤ now) (hlate : now < attempt.admittedAt + forgetAfter) :
    Paced attempt.key ⟨w.throttle.settle attempt.key .notAnAttempt,
      settled w.attempts before.length attempt .notAnAttempt, now⟩ := by
  obtain ⟨hwith, hwithout⟩ := kept_given_back hattempts hopen
  generalize kept attempt.key before = earlier at hwith hwithout
  generalize kept attempt.key after = later at hwith hwithout
  have hfewer : (earlier ++ later).Sublist (kept attempt.key w.attempts) := by
    rw [hwith]
    exact (List.Sublist.refl earlier).append (List.sublist_cons_self _ later)
  have hordered := h.ordered
  rw [hwith, List.pairwise_append, List.pairwise_cons] at hordered
  obtain ⟨-, ⟨hlater, -⟩, hearlier⟩ := hordered
  refine ⟨?_, ?_, ?_, ?_⟩
  · rw [hwithout]
    exact h.ordered.sublist hfewer
  · rw [hwithout]
    exact fun t ht => (h.le_now t (hfewer.subset ht)).trans hnow
  · rw [hwithout]
    exact fun times hsub => h.span times (hsub.trans hfewer)
  · rw [hwithout]
    intro times hsub hsoon last hlast hrecent
    obtain ⟨front, back, rfl, hfront, hback⟩ := List.sublist_append_iff.mp hsub
    have hchosen : (front ++ attempt.admittedAt :: back).Sublist (kept attempt.key w.attempts) := by
      rw [hwith]
      exact hfront.append (hback.cons_cons _)
    have hafter : ∀ t ∈ back, attempt.admittedAt ≤ t ∧ t < attempt.admittedAt + forgetAfter := by
      intro t ht
      have hle := h.le_now t (hfewer.subset (List.mem_append_right _ (hback.subset ht)))
      exact ⟨hlater t (hback.subset ht), (hle.trans hnow).trans_lt hlate⟩
    have hnowLe : attempt.admittedAt ≤ now :=
      (h.le_now _ (hchosen.subset (by simp))).trans hnow
    obtain ⟨hsoon', last', hlast', hle'⟩ := soon_with hsoon hlast hrecent hnowLe
      (fun t ht => hearlier t (hfront.subset ht) _ List.mem_cons_self) hafter
    obtain ⟨entry, hget, hcount, hlastLe⟩ := h.counted _ hchosen hsoon' last' hlast'
      (hnow.trans_lt (hrecent.trans_le (Nat.add_le_add_right hle' _)))
    rw [List.length_append, List.length_cons] at hcount
    have hpos : 0 < (front ++ back).length :=
      List.length_pos_of_mem (List.mem_of_mem_getLast? hlast)
    rw [List.length_append] at hpos ⊢
    have hleft : front.length + back.length ≤ entry.attempts - 1 := by omega
    refine ⟨⟨entry.attempts - 1, entry.lastAttempt⟩, ?_, hleft, hle'.trans hlastLe⟩
    rw [LoginThrottle.get_settle_notAnAttempt, hget, Option.bind_some, if_neg (by omega)]

theorem paced_step (h : w.Paced key) (hevicted : NotEvicted key w e) (hsoon : SettledSoon key w e)
    (hs : w.step e = some w') : w'.Paced key := by
  cases steps_of_step hs with
  | wait hnow => exact h.of_kept hnow rfl fun _ hget _ => hget
  | @admitted key' now throttle hnow hanswer =>
    by_cases hkey : key' = key
    · subst hkey
      exact h.admitted hnow (LoginThrottle.admits_of_eq hanswer)
    · refine h.of_kept hnow (by rw [kept_append, kept_admitted_ne hkey, List.append_nil])
        fun entry hget _ => ?_
      exact (get_of_notEvicted hevicted (Ne.symm hkey) hanswer).trans hget
  | @settle before after attempt outcome now hnow hattempts hopen =>
    have hsettle : attempt.key = key → outcome ≠ .succeeded ∧
        now < attempt.admittedAt + forgetAfter := hsoon attempt (by rw [hattempts]; simp)
    by_cases hkey : attempt.key = key
    · subst hkey
      obtain ⟨hfailed, hlate⟩ := hsettle rfl
      cases outcome with
      | succeeded => exact absurd rfl hfailed
      | failed =>
        have hstays : Outcome.failed ≠ .notAnAttempt := by decide
        exact h.of_kept hnow (kept_settled _ hattempts hopen (Or.inr hstays))
          fun _ hget _ => hget
      | notAnAttempt => exact h.given_back hattempts hopen hnow hlate
    · refine h.of_kept hnow (kept_settled key hattempts hopen (Or.inl hkey)) fun entry hget _ => ?_
      exact (w.throttle.get_settle_ne (Ne.symm hkey) outcome).trans hget
  | sweep hnow =>
    refine h.of_kept hnow rfl fun entry hget hrecent => ?_
    rw [← hget]
    refine w.throttle.get_sweep_of_recent fun entry' hget' => ?_
    rwa [← Option.some.inj (hget.symm.trans hget')]
  | rehash hrehash =>
    exact h.of_kept le_rfl rfl fun _ hget _ => (HashMap.get_eq_of_rehash hrehash key).trans hget

/-- **How fast an identifier can be tried.** In a run in which no success is settled for it, what is
settled for it comes soon after it was admitted, and its entry is not evicted: any six or more of
its attempts that have not been given back, each soon after the one before, take half a minute for
each of the second five, and five minutes for each beyond. -/
theorem rate_bound (h : Reaches step (fun w e => NotEvicted key w e ∧ SettledSoon key w e) start w)
    {times : List Instant} (hsub : times.Sublist (kept key w.attempts)) (hn : 6 ≤ times.length)
    (hsoon : Soon times) :
    ∀ first ∈ times.head?, ∀ last ∈ times.getLast?,
      fromSecs (30 * (min times.length 10 - 5) + 300 * (times.length - 10)) ≤ last - first := by
  have hpaced : w.Paced key := h.invariant (paced_start key)
    fun _ _ _ hpaced hok hs => paced_step hpaced hok.1 hok.2 hs
  intro first hfirst last hlast
  rw [← minSpan_eq hn]
  exact Nat.le_sub_of_add_le' (hpaced.span times hsub hsoon first hfirst last hlast)

instance (key : Key) (w : World) : (e : Event) → Decidable (SettledSoon key w e)
  | .settle _ _ _ => inferInstanceAs (Decidable (∀ attempt ∈ _, _))
  | .admitKey _ _ | .sweep _ | .rehash _ => inferInstanceAs (Decidable True)

/-- Six attempts are kept of seven, and the sixth comes half a minute after the fifth. -/
theorem rate_bound_sixth : ∃ w,
    Reaches step (fun w e => NotEvicted 1 w e ∧ SettledSoon 1 w e) start w ∧
    kept 1 w.attempts = [0, 0, 0, 0, fromSecs 1, fromSecs 31] ∧
    fromSecs (30 * (min 6 10 - 5) + 300 * (6 - 10)) ≤ fromSecs 31 - 0 := by
  obtain ⟨w, -, hreaches, hkept⟩ := exists_run_of (fun w e => NotEvicted 1 w e ∧ SettledSoon 1 w e)
    (fun w => decide (kept 1 w.attempts = [0, 0, 0, 0, fromSecs 1, fromSecs 31]))
    (by decide +kernel : (run (guarded step _) start
      [.admitKey 1 0, .admitKey 1 0, .admitKey 2 0, .admitKey 1 0, .admitKey 1 0, .admitKey 1 0,
        .settle 1 .notAnAttempt 0, .admitKey 1 (fromSecs 1), .settle 0 .failed (fromSecs 2),
        .admitKey 1 (fromSecs 30), .admitKey 1 (fromSecs 31)]).any _ = true)
  have hkept := of_decide_eq_true hkept
  have hsub : [0, 0, 0, 0, fromSecs 1, fromSecs 31].Sublist (kept 1 w.attempts) := hkept ▸ .refl _
  have hsoon : Soon [0, 0, 0, 0, fromSecs 1, fromSecs 31] := by decide
  exact ⟨w, hreaches, hkept, rate_bound hreaches hsub (by decide) hsoon 0 rfl _ rfl⟩

end World

end Login

end WeaveAuth
