import WeaveAuth.Login.ThrottleRuns

/-!
# What the throttle counts

An entry should count the attempts since the last success that failed or are still open. `settle`
knows an attempt by its key alone, though: an attempt that is given back after a success for its
key, which it was older than, takes back another one.

## Main results

* `World.tracked_eq`: the count is right in a run in which that does not happen
* `World.takes_back_another`: a run in which it does

## The condition

`NothingStale` looks at the step that gives an attempt back: it may not be one from before a success
for its key while later ones are counted. It can be told from the attempts and the map before the
step. It is asked of attempts that are given back only: settling a failed one changes nothing, and a
success drops the entry. `NoGap` says that the entry has not expired meanwhile, as the count is of
the last hour.
-/

namespace WeaveAuth

namespace Login

open Transition

/-- The attempt is for `key`, was admitted after the last success for it, and failed or is open. -/
def Attempt.counts (key : Key) (attempt : Attempt) : Bool :=
  attempt.key = key ∧ attempt.superseded = false ∧
    (attempt.outcome = none ∨ attempt.outcome = some .failed)

theorem counts_settle_failed {attempt : Attempt} (hopen : attempt.outcome = none) (key : Key) :
    (attempt.settle .failed).counts key = attempt.counts key := by
  simp [Attempt.counts, Attempt.settle, hopen]

theorem counts_settle {attempt : Attempt} {outcome : Outcome} (h : outcome ≠ .failed) (key : Key) :
    (attempt.settle outcome).counts key = false := by
  simp [Attempt.counts, Attempt.settle, h]

theorem counts_of_open {attempt : Attempt} (hopen : attempt.outcome = none) :
    attempt.counts attempt.key = !attempt.superseded := by
  simp [Attempt.counts, hopen]

theorem counts_of_ne {attempt : Attempt} {key : Key} (h : attempt.key ≠ key) :
    attempt.counts key = false := by
  simp [Attempt.counts, h]

theorem counts_supersede (attempt : Attempt) (key key' : Key) :
    (attempt.supersede key').counts key = (attempt.counts key && decide (key ≠ key')) := by
  unfold Attempt.supersede
  split_ifs with hkey
  · subst hkey
    by_cases hsame : attempt.key = key <;> simp [Attempt.counts, hsame]
  · by_cases hsame : attempt.key = key
    · subst hsame
      simp [hkey]
    · rw [counts_of_ne hsame, Bool.false_and]

namespace World

variable {key : Key} {w w' : World} {e : Event}

/-- How many attempts an entry for `key` should count. -/
def owed (key : Key) (w : World) : ℕ := w.attempts.countP (Attempt.counts key)

/-- The key is tried, and the entries are swept, before its entry expires. -/
def NoGap (key : Key) (w : World) : Event → Prop
  | .admitKey key' now => key' = key → ∀ entry ∈ w.throttle.entries.get key,
      now < entry.lastAttempt + forgetAfter
  | .sweep now => ∀ entry ∈ w.throttle.entries.get key, now < entry.lastAttempt + forgetAfter
  | .settle _ _ _ | .rehash _ => True

/-- No attempt from before a success for `key` is given back while later ones are counted. -/
def NothingStale (key : Key) (w : World) : Event → Prop
  | .settle i outcome _ => ∀ attempt ∈ w.attempts[i]?, attempt.key = key →
      attempt.superseded = true → outcome = .notAnAttempt → w.throttle.entries.get key = none
  | .admitKey _ _ | .sweep _ | .rehash _ => True

theorem owed_split (key : Key) {before after : List Attempt} {attempt : Attempt}
    (hattempts : w.attempts = before ++ attempt :: after) : w.owed key =
      before.countP (Attempt.counts key) + after.countP (Attempt.counts key) +
        if attempt.counts key then 1 else 0 := by
  rw [owed, hattempts, List.countP_append, List.countP_cons, Nat.add_assoc]

/-- What a settled attempt changes in what is owed. -/
theorem countP_settled {before after : List Attempt} {attempt : Attempt}
    (hattempts : w.attempts = before ++ attempt :: after) {outcome : Outcome}
    (houtcome : outcome ≠ .succeeded) :
    (settled w.attempts before.length attempt outcome).countP (Attempt.counts key) =
      before.countP (Attempt.counts key) + after.countP (Attempt.counts key) +
        if (attempt.settle outcome).counts key then 1 else 0 := by
  rw [settled_of_ne hattempts houtcome, List.countP_append, List.countP_cons, Nat.add_assoc]

/-- After a success nothing is owed. -/
theorem countP_settled_succeeded (attempts : List Attempt) (i : ℕ) (attempt : Attempt) :
    (settled attempts i attempt .succeeded).countP (Attempt.counts attempt.key) = 0 := by
  rw [settled, if_pos rfl, List.countP_map, List.countP_eq_zero]
  simp [counts_supersede]

theorem tracked_settle (h : w.throttle.tracked key = w.owed key)
    {before after : List Attempt} {attempt : Attempt} {outcome : Outcome}
    (hattempts : w.attempts = before ++ attempt :: after) (hopen : attempt.outcome = none)
    (hkey : attempt.key = key)
    (hstale : attempt.superseded = true → outcome = .notAnAttempt →
      w.throttle.entries.get key = none) :
    (w.throttle.settle key outcome).tracked key =
      (settled w.attempts before.length attempt outcome).countP (Attempt.counts key) := by
  subst hkey
  have howed := owed_split attempt.key hattempts
  cases outcome with
  | failed =>
    rw [countP_settled hattempts (by decide), counts_settle_failed hopen, ← howed]
    exact h
  | succeeded =>
    rw [countP_settled_succeeded]
    simp [LoginThrottle.tracked, LoginThrottle.settle]
  | notAnAttempt =>
    rw [countP_settled hattempts (by decide), counts_settle (by decide),
      LoginThrottle.tracked_settle_notAnAttempt, h, howed, counts_of_open hopen]
    cases hsuperseded : attempt.superseded with
    | false => simp
    | true =>
      have hnone : w.owed attempt.key = 0 := by
        rw [← h, LoginThrottle.tracked, hstale hsuperseded rfl]
        rfl
      rw [howed] at hnone
      simp only [counts_of_open hopen, hsuperseded] at hnone
      simp only [Bool.not_true, Bool.false_eq_true, if_false] at hnone ⊢
      rw [hnone]

/-- A settled attempt is nothing to another key. -/
theorem countP_settled_ne {before after : List Attempt} {attempt : Attempt} {outcome : Outcome}
    (hattempts : w.attempts = before ++ attempt :: after) (hkey : attempt.key ≠ key) :
    (settled w.attempts before.length attempt outcome).countP (Attempt.counts key) =
      w.owed key := by
  have hset : (w.attempts.set before.length (attempt.settle outcome)).countP (Attempt.counts key) =
      w.owed key := by
    have hsame : (attempt.settle outcome).counts key = attempt.counts key := by
      rw [counts_of_ne hkey, counts_of_ne (show (attempt.settle outcome).key ≠ key from hkey)]
    rw [owed, hattempts, List.set_append_right _ _ le_rfl, Nat.sub_self, List.set_cons_zero,
      List.countP_append, List.countP_append, List.countP_cons, List.countP_cons, hsame]
  rw [settled]
  split_ifs with hsucceeded
  · rw [← hset, List.countP_map]
    refine List.countP_congr fun a _ => ?_
    simp [counts_supersede, Ne.symm hkey]
  · exact hset

theorem tracked_start (key : Key) : start.throttle.tracked key = start.owed key := rfl

theorem tracked_step (h : w.throttle.tracked key = w.owed key) (hgap : NoGap key w e)
    (hevicted : NotEvicted key w e) (hstale : NothingStale key w e) (hs : w.step e = some w') :
    w'.throttle.tracked key = w'.owed key := by
  cases steps_of_step hs with
  | wait => exact h
  | @admitted key' now throttle hnow hanswer =>
    rw [owed, List.countP_append, List.countP_singleton]
    by_cases hkey : key' = key
    · subst hkey
      obtain ⟨n, hself, hnone, hagain⟩ := (LoginThrottle.admits_of_eq hanswer).get_self
      have hn : n = w.throttle.tracked key' := by
        rw [LoginThrottle.tracked]
        cases hget : w.throttle.entries.get key' with
        | none => exact hnone hget
        | some entry => exact (hagain entry hget (hgap rfl entry hget)).1
      rw [LoginThrottle.tracked, hself, if_pos (by simp [Attempt.counts]), ← owed, ← h, ← hn]
      rfl
    · rw [LoginThrottle.tracked, get_of_notEvicted hevicted (Ne.symm hkey) hanswer,
        if_neg (by simp [Attempt.counts, hkey]), Nat.add_zero]
      exact h
  | @settle before after attempt outcome now hnow hattempts hopen =>
    have hget : w.attempts[before.length]? = some attempt := by
      rw [hattempts]
      simp
    by_cases hkey : attempt.key = key
    · have htracked := tracked_settle h hattempts hopen hkey (hstale attempt hget hkey)
      rwa [← hkey] at htracked ⊢
    · rw [owed, countP_settled_ne hattempts hkey, LoginThrottle.tracked,
        w.throttle.get_settle_ne (Ne.symm hkey)]
      exact h
  | sweep hnow =>
    rw [LoginThrottle.tracked, w.throttle.get_sweep_of_recent hgap]
    exact h
  | rehash hrehash =>
    rw [LoginThrottle.tracked, HashMap.get_eq_of_rehash hrehash]
    exact h

/-- **What the throttle counts.** In a run in which the key has no gap, its entry is not evicted,
and no attempt from before a success is given back while later ones are counted, the entry counts
just the attempts since the last success that failed or are open. -/
theorem tracked_eq (h : Reaches step
    (fun w e => NoGap key w e ∧ NotEvicted key w e ∧ NothingStale key w e) start w) :
    w.throttle.tracked key = w.owed key :=
  h.invariant (tracked_start key)
    fun _ _ _ htracked hok hs => tracked_step htracked hok.1 hok.2.1 hok.2.2 hs

instance (key : Key) (w : World) : (e : Event) → Decidable (NoGap key w e)
  | .admitKey _ _ => inferInstanceAs (Decidable (_ = key → ∀ entry ∈ _, _))
  | .sweep _ => inferInstanceAs (Decidable (∀ entry ∈ _, _))
  | .settle _ _ _ | .rehash _ => inferInstanceAs (Decidable True)

instance (key : Key) (w : World) : (e : Event) → Decidable (NothingStale key w e)
  | .settle _ _ _ => inferInstanceAs (Decidable (∀ attempt ∈ _, _))
  | .admitKey _ _ | .sweep _ | .rehash _ => inferInstanceAs (Decidable True)

/-- One of two attempts succeeds, a third one fails, and then the other one does. -/
theorem tracked_eq_failed : ∃ w,
    Reaches step (fun w e => NoGap 1 w e ∧ NotEvicted 1 w e ∧ NothingStale 1 w e) start w ∧
    w.owed 1 = 1 ∧ w.throttle.tracked 1 = 1 := by
  obtain ⟨w, -, hreaches, howed⟩ := exists_run_of
    (fun w e => NoGap 1 w e ∧ NotEvicted 1 w e ∧ NothingStale 1 w e)
    (fun w => decide (w.owed 1 = 1))
    (by decide +kernel : (run (guarded step _) start
      [.admitKey 1 0, .admitKey 1 0, .settle 1 .succeeded 0, .admitKey 1 0, .settle 2 .failed 0,
        .settle 0 .failed 0]).any _ = true)
  have howed := of_decide_eq_true howed
  exact ⟨w, hreaches, howed, (tracked_eq hreaches).trans howed⟩

/-- **An attempt that is given back may take back another one.** One of two attempts succeeds, a
third one fails, and then the other one is given back: the failed one is not counted any more. -/
theorem takes_back_another : ∃ w,
    Reaches step (fun w e => NoGap 1 w e ∧ NotEvicted 1 w e) start w ∧
    w.attempts = [⟨1, 0, some .notAnAttempt, true⟩, ⟨1, 0, some .succeeded, true⟩,
      ⟨1, 0, some .failed, false⟩] ∧ w.owed 1 = 1 ∧ w.throttle.tracked 1 = 0 := by
  obtain ⟨w, -, hreaches, hw⟩ := exists_run_of (fun w e => NoGap 1 w e ∧ NotEvicted 1 w e)
    (fun w => decide (w.attempts = [⟨1, 0, some .notAnAttempt, true⟩,
      ⟨1, 0, some .succeeded, true⟩, ⟨1, 0, some .failed, false⟩] ∧ w.owed 1 = 1 ∧
      w.throttle.tracked 1 = 0))
    (by decide +kernel : (run (guarded step _) start
      [.admitKey 1 0, .admitKey 1 0, .settle 1 .succeeded 0, .admitKey 1 0, .settle 2 .failed 0,
        .settle 0 .notAnAttempt 0]).any _ = true)
  exact ⟨w, hreaches, of_decide_eq_true hw⟩

end World

end Login

end WeaveAuth
