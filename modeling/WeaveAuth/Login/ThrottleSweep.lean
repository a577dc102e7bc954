import Mathlib.Data.List.Infix
import WeaveAuth.Login.Throttle

/-!
# The sweep is not seen

Two runs of the throttle, one with sweeps and one without them. An entry that a sweep drops is still
in the other run's map, where `admit` takes it for none, and where it may still be settled.

## Main results

* `agree_use`: what one call keeps of the agreement
* `sweep_unobservable`: the two runs answer alike and have the same entries that still count

## Scope

Every sequence of calls, as long as the map of the run without sweeps stays below its bound: at the
bound an entry that no sweep has dropped takes a place, and an eviction sees that.

## How the proof goes

`Agree` compares the two maps at a time: each key has the same entry in both, or none in the one and
an expired one in the other. Time only makes that easier, and every call keeps it, since a call that
looks at an expired entry does with it what it does without any. There is one exception, an attempt
that is settled after its entry has expired: it changes an entry of the one run and nothing of the
other, and the entry stays expired, or goes.
-/

namespace WeaveAuth

namespace Login

/-- A call on the throttle; an attempt may be settled at any time. -/
inductive Use where
  | admitKey (key : Key) (now : Instant)
  | settle (key : Key) (outcome : Outcome)
  | sweep (now : Instant)

namespace Use

def time : Use → Option Instant
  | admitKey _ now => some now
  | settle _ _ => none
  | sweep now => some now

def isSweep : Use → Bool
  | sweep _ => true
  | _ => false

/-- The calls without the sweeps. -/
def withoutSweeps (uses : List Use) : List Use := uses.filter fun use => !use.isSweep

/-- The times of the calls, in their order. -/
def times (uses : List Use) : List Instant := uses.filterMap time

end Use

namespace LoginThrottle

/-- What a call answers. -/
def answer (t : LoginThrottle) : Use → List Admission
  | .admitKey key now => [(t.admitKey key now).1]
  | .settle _ _ | .sweep _ => []

def after (t : LoginThrottle) : Use → LoginThrottle
  | .admitKey key now => (t.admitKey key now).2
  | .settle key outcome => t.settle key outcome
  | .sweep now => t.sweep now

def afterAll (t : LoginThrottle) (uses : List Use) : LoginThrottle := uses.foldl after t

/-- What the calls answer, one after the other. -/
def answers : LoginThrottle → List Use → List Admission
  | _, [] => []
  | t, use :: uses => t.answer use ++ answers (t.after use) uses

/-! ### Two throttles that agree -/

/-- The entries are the same, but for those that have expired by now, which may be missing. -/
def Agree (now : Instant) (swept t : LoginThrottle) : Prop :=
  ∀ key, swept.entries.get key = t.entries.get key ∨
    swept.entries.get key = none ∧
      ∀ entry ∈ t.entries.get key, entry.lastAttempt + forgetAfter ≤ now

variable {now later : Instant} {swept t : LoginThrottle}

theorem Agree.mono (h : Agree now swept t) (hle : now ≤ later) : Agree later swept t :=
  fun key => (h key).imp_right fun hgone =>
    ⟨hgone.1, fun entry hentry => (hgone.2 entry hentry).trans hle⟩

/-- What still counts is in both. -/
theorem Agree.get_iff (h : Agree now swept t) {key : Key} {entry : Entry}
    (hcounts : now < entry.lastAttempt + forgetAfter) :
    swept.entries.get key = some entry ↔ t.entries.get key = some entry := by
  rcases h key with hsame | ⟨hgone, hexpired⟩
  · rw [hsame]
  · refine iff_of_false (by simp [hgone]) fun hget => ?_
    exact absurd (hexpired entry hget) (not_le.mpr hcounts)

/-- Sweeping leaves no more entries than there are. -/
theorem Agree.length_le (h : Agree now swept t) :
    swept.entries.pairs.length ≤ t.entries.pairs.length := by
  refine HashMap.length_le_of_get fun key hget => ?_
  rcases h key with hsame | ⟨hgone, -⟩
  · rwa [← hsame]
  · exact absurd hgone hget

/-- The same entry is put into both. -/
theorem Agree.insert (h : Agree now swept t) (key : Key) (entry : Entry) :
    Agree now ⟨swept.entries.insert key entry⟩ ⟨t.entries.insert key entry⟩ := by
  intro key'
  dsimp only
  rw [HashMap.get_insert, HashMap.get_insert]
  split_ifs
  · exact .inl rfl
  · exact h key'

theorem agree_admitKey (key : Key) (h : Agree now swept t)
    (hbelow : t.entries.pairs.length < maxTracked) :
    (swept.admitKey key now).1 = (t.admitKey key now).1 ∧
      Agree now (swept.admitKey key now).2 (t.admitKey key now).2 := by
  have htrack : Agree now (swept.track key now) (t.track key now) := by
    rw [track_of_lt (h.length_le.trans_lt hbelow), track_of_lt hbelow]
    exact h.insert key _
  unfold admitKey
  rcases h key with hsame | ⟨hgone, hexpired⟩
  · rw [hsame]
    split
    · split_ifs
      · exact ⟨rfl, h⟩
      · exact ⟨rfl, h.insert key _⟩
      · exact ⟨rfl, htrack⟩
    · exact ⟨rfl, htrack⟩
  · rw [hgone]
    cases hget : t.entries.get key with
    | none => exact ⟨rfl, htrack⟩
    | some entry =>
      dsimp only
      rw [if_neg (not_lt.mpr (hexpired entry hget))]
      exact ⟨rfl, htrack⟩

/-- Settling does not look at the time, and acts on an entry that is in one map only. -/
theorem agree_settle (h : Agree now swept t) (key : Key) (outcome : Outcome) :
    Agree now (swept.settle key outcome) (t.settle key outcome) := by
  intro key'
  by_cases hkey : key' = key
  · subst hkey
    cases outcome with
    | failed => exact h key'
    | succeeded => exact .inl (by simp [settle])
    | notAnAttempt =>
      rw [get_settle_notAnAttempt, get_settle_notAnAttempt]
      rcases h key' with hsame | ⟨hgone, hexpired⟩
      · exact .inl (by rw [hsame])
      · rw [hgone]
        refine .inr ⟨rfl, fun entry hentry => ?_⟩
        obtain ⟨entry', hget, hentry⟩ := Option.bind_eq_some_iff.mp hentry
        obtain ⟨-, hentry⟩ := Option.ite_none_left_eq_some.mp hentry
        obtain rfl := Option.some.inj hentry
        exact hexpired entry' hget
  · rw [get_settle_ne _ hkey, get_settle_ne _ hkey]
    exact h key'

/-- One of the two is swept. -/
theorem agree_sweep (h : Agree now swept t) : Agree now (swept.sweep now) t := by
  intro key
  rw [get_sweep]
  rcases h key with hsame | ⟨hgone, hexpired⟩
  · rw [hsame]
    cases hget : t.entries.get key with
    | none => exact .inl rfl
    | some entry =>
      rw [Option.filter_some]
      split_ifs with hcounts
      · exact .inl rfl
      · rw [decide_eq_true_eq, not_lt] at hcounts
        refine .inr ⟨rfl, fun entry' hentry' => ?_⟩
        obtain rfl := Option.some.inj hentry'
        exact hcounts
  · exact .inr ⟨by rw [hgone]; rfl, hexpired⟩

/-! ### Two runs -/

/-- The one step: a call that both runs make is answered alike, and both agree after it. -/
theorem agree_use {use : Use} (hkeep : use.isSweep = false) (h : Agree now swept t)
    (hbelow : t.entries.pairs.length < maxTracked) (hnow : ∀ at' ∈ use.time, at' = now) :
    swept.answer use = t.answer use ∧ Agree now (swept.after use) (t.after use) := by
  cases use with
  | admitKey key at' =>
    obtain rfl := hnow at' rfl
    obtain ⟨hanswer, hagree⟩ := agree_admitKey key h hbelow
    exact ⟨congrArg (fun admission => [admission]) hanswer, hagree⟩
  | settle key outcome => exact ⟨rfl, agree_settle h key outcome⟩
  | sweep at' => cases hkeep

/-- The map stays below the cap. -/
def StaysBelow (t : LoginThrottle) (uses : List Use) : Prop :=
  ∀ before ∈ uses.inits, (t.afterAll before).entries.pairs.length < maxTracked

instance (t : LoginThrottle) (uses : List Use) : Decidable (t.StaysBelow uses) :=
  inferInstanceAs (Decidable (∀ before ∈ uses.inits, _))

theorem StaysBelow.tail {use : Use} {uses : List Use} (h : t.StaysBelow (use :: uses)) :
    (t.after use).StaysBelow uses := by
  intro before hbefore
  refine h (use :: before) ?_
  rw [List.mem_inits] at hbefore ⊢
  exact List.cons_prefix_cons.mpr ⟨rfl, hbefore⟩

/-- The time of the first call, or of the calls before it. -/
theorem exists_time {use : Use} {uses : List Use}
    (h : (now :: Use.times (use :: uses)).Pairwise (· ≤ ·)) :
    ∃ at', now ≤ at' ∧ (∀ time ∈ use.time, time = at') ∧
      (at' :: Use.times uses).Pairwise (· ≤ ·) ∧
      ∀ time ∈ at' :: Use.times uses, time ∈ now :: Use.times (use :: uses) := by
  unfold Use.times at h ⊢
  cases htime : use.time with
  | none =>
    rw [List.filterMap_cons_none htime] at h ⊢
    exact ⟨now, le_rfl, by simp, h, fun time => id⟩
  | some at' =>
    rw [List.filterMap_cons_some htime] at h ⊢
    obtain ⟨hnow, hrest⟩ := List.pairwise_cons.mp h
    exact ⟨at', hnow at' List.mem_cons_self, by simp, hrest,
      fun time htime => List.mem_cons_of_mem _ htime⟩

/-- **The runs agree**, whatever is swept on the way. -/
theorem agree_run {uses : List Use} (h : Agree now swept t)
    (htimes : (now :: Use.times uses).Pairwise (· ≤ ·))
    (hbelow : t.StaysBelow (Use.withoutSweeps uses)) :
    swept.answers uses = t.answers (Use.withoutSweeps uses) ∧
      ∀ later, (∀ time ∈ now :: Use.times uses, time ≤ later) →
        Agree later (swept.afterAll uses) (t.afterAll (Use.withoutSweeps uses)) := by
  induction uses generalizing now swept t with
  | nil => exact ⟨rfl, fun later hlater => h.mono (hlater now List.mem_cons_self)⟩
  | cons use uses ih =>
    obtain ⟨at', hnow, htime, htimes, hmem⟩ := exists_time htimes
    have h := h.mono hnow
    cases hsweep : use.isSweep with
    | false =>
      have hcons : Use.withoutSweeps (use :: uses) = use :: Use.withoutSweeps uses :=
        List.filter_cons_of_pos (by simp [hsweep])
      rw [hcons] at hbelow ⊢
      obtain ⟨hanswer, hagree⟩ :=
        agree_use hsweep h (hbelow [] ((List.mem_inits _ _).mpr List.nil_prefix)) htime
      obtain ⟨hanswers, hafter⟩ := ih hagree htimes hbelow.tail
      exact ⟨congrArg₂ (· ++ ·) hanswer hanswers,
        fun later hlater => hafter later fun time hin => hlater time (hmem time hin)⟩
    | true =>
      have hcons : Use.withoutSweeps (use :: uses) = Use.withoutSweeps uses :=
        List.filter_cons_of_neg (by simp [hsweep])
      rw [hcons] at hbelow ⊢
      cases use with
      | admitKey | settle => cases hsweep
      | sweep sweptAt =>
        obtain rfl := htime sweptAt rfl
        obtain ⟨hanswers, hafter⟩ := ih (agree_sweep h) htimes hbelow
        exact ⟨hanswers,
          fun later hlater => hafter later fun time hin => hlater time (hmem time hin)⟩

/-- **The sweep is not seen**: the answers are those of the run without sweeps, and at every point
the entries that still count are the same. -/
theorem sweep_unobservable (t : LoginThrottle) {uses : List Use}
    (htimes : (Use.times uses).Pairwise (· ≤ ·)) (hbelow : t.StaysBelow (Use.withoutSweeps uses)) :
    t.answers uses = t.answers (Use.withoutSweeps uses) ∧
    ∀ before ∈ uses.inits, ∀ now, (∀ time ∈ Use.times before, time ≤ now) →
      ∀ key entry, now < entry.lastAttempt + forgetAfter →
        ((t.afterAll before).entries.get key = some entry ↔
          (t.afterAll (Use.withoutSweeps before)).entries.get key = some entry) := by
  have hstart : Agree 0 t t := fun key => .inl rfl
  have htimes₀ : ∀ {uses : List Use}, (Use.times uses).Pairwise (· ≤ ·) →
      (0 :: Use.times uses).Pairwise (· ≤ ·) := fun h =>
    List.pairwise_cons.mpr ⟨fun time _ => Nat.zero_le time, h⟩
  refine ⟨(agree_run hstart (htimes₀ htimes) hbelow).1, ?_⟩
  intro before hbefore now hnow key entry hcounts
  obtain ⟨rest, rfl⟩ := (List.mem_inits _ _).mp hbefore
  have htimes' : (Use.times before).Pairwise (· ≤ ·) := by
    rw [Use.times, List.filterMap_append] at htimes
    exact (List.pairwise_append.mp htimes).1
  have hbelow' : t.StaysBelow (Use.withoutSweeps before) := by
    intro first hfirst
    refine hbelow first ?_
    rw [List.mem_inits] at hfirst ⊢
    rw [Use.withoutSweeps, List.filter_append]
    exact hfirst.trans (List.prefix_append _ _)
  refine ((agree_run hstart (htimes₀ htimes') hbelow').2 now fun time hin => ?_).get_iff hcounts
  rcases List.mem_cons.mp hin with rfl | hin
  · exact Nat.zero_le now
  · exact hnow time hin

/-- An entry is swept an hour after its attempt, and settled after that. -/
theorem sweep_unobservable_of_late_settle :
    let uses := [Use.admitKey 1 0, .sweep (fromSecs 3600), .settle 1 .notAnAttempt,
      .admitKey 1 (fromSecs 3601)]
    LoginThrottle.answers ⟨∅⟩ uses = LoginThrottle.answers ⟨∅⟩ (Use.withoutSweeps uses) :=
  (sweep_unobservable ⟨∅⟩ (by decide) (by decide +kernel)).1

end LoginThrottle

end Login

end WeaveAuth
