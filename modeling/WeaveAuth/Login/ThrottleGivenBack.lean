import WeaveAuth.Login.ThrottleEviction
import WeaveAuth.Login.ThrottleSweep

/-!
# An attempt given back

What is left of an attempt that was admitted and given back at once: `settle` takes the attempt back
from the count and leaves its time in the entry. Two throttles are told apart by some calls that the
one may admit throughout and the other never does.

## Main results

* `not_passes_replicate`, `passes_replicate`: how many attempts are admitted back to back
* `not_passes_flood`, `passes_flood`: an entry too many shows when the map is full
* `given_back_iff`: when an attempt given back leaves no trace

## What is compared

Two throttles are the same to everybody if every sequence of calls is answered alike by both. That
is the measure here, and not a comparison of maps: an entry that nobody can tell from none is no
trace. The condition is on the state before the attempt, and it is exact.

## How the proof goes

Where the condition holds, the two maps agree on every key. Where it does not, there are calls that
tell the throttles apart. An entry that was alive has a later time now. That shows at once, in a
wait, if the attempts that are free have been made, and otherwise an hour after the first time, when
the one is forgotten and the other is not. An entry that had expired is gone. That shows once the
map is filled up to the cap: one of the throttles has to evict keys and the other has not, and a key
that went has all its free attempts again.
-/

namespace WeaveAuth

namespace Login

open Transition

namespace LoginThrottle

/-! ### What calls may answer -/

/-- The calls may answer so, whatever the order of the iteration is in each. -/
inductive Answers : LoginThrottle → List Use → List Admission → Prop where
  | nil {t : LoginThrottle} : Answers t [] []
  | cons {t : LoginThrottle} {entries : HashMap Key Entry} {use : Use} {uses : List Use}
      {rest : List Admission} (horder : t.entries.Rehash entries)
      (hrest : Answers (after ⟨entries⟩ use) uses rest) :
      Answers t (use :: uses) (answer ⟨entries⟩ use ++ rest)

/-- From now on the two may answer the same. -/
def SameAnswers (now : Instant) (t t' : LoginThrottle) : Prop :=
  ∀ uses, (∀ time ∈ Use.times uses, now ≤ time) →
    ∀ admissions, Answers t uses admissions ↔ Answers t' uses admissions

variable {t t' : LoginThrottle} {key : Key} {now : Instant} {uses : List Use}

theorem Answers.of_rehash {admissions : List Admission} (h : Answers t uses admissions)
    (hrehash : t'.entries.Rehash t.entries) : Answers t' uses admissions := by
  cases h with
  | nil => exact .nil
  | cons horder hrest => exact .cons (hrehash.trans horder) hrest

/-- Throttles with the same entries answer the same. -/
theorem sameAnswers_of_get_eq (h : ∀ key, t.entries.get key = t'.entries.get key) :
    SameAnswers now t t' := fun _ _ _ =>
  ⟨fun hanswers => hanswers.of_rehash (HashMap.rehash_of_get_eq fun key => (h key).symm),
    fun hanswers => hanswers.of_rehash (HashMap.rehash_of_get_eq h)⟩

/-- Every attempt of these may be admitted. -/
def Passes (t : LoginThrottle) (uses : List Use) : Prop :=
  ∃ admissions, Answers t uses admissions ∧ ∀ admission ∈ admissions, admission = .admitted

theorem SameAnswers.passes_iff (h : SameAnswers now t t')
    (htimes : ∀ time ∈ Use.times uses, now ≤ time) : Passes t uses ↔ Passes t' uses := by
  simp only [Passes, h uses htimes]

theorem le_of_mem_times (h : ∀ use ∈ uses, ∀ time ∈ use.time, now ≤ time) :
    ∀ time ∈ Use.times uses, now ≤ time := by
  intro time htime
  obtain ⟨use, huse, htime⟩ := List.mem_filterMap.mp htime
  exact h use huse time htime

theorem passes_nil : Passes t [] := ⟨[], .nil, by simp⟩

theorem passes_admitKey {at' : Instant} : Passes t (.admitKey key at' :: uses) ↔
    ∃ entries, t.entries.Rehash entries ∧ (admitKey ⟨entries⟩ key at').1 = .admitted ∧
      Passes (admitKey ⟨entries⟩ key at').2 uses := by
  constructor
  · rintro ⟨_, hanswers, hadmitted⟩
    cases hanswers with
    | cons horder hrest =>
      obtain ⟨hfirst, hothers⟩ := List.forall_mem_append.mp hadmitted
      exact ⟨_, horder, hfirst _ List.mem_cons_self, _, hrest, hothers⟩
  · rintro ⟨entries, horder, hfirst, rest, hrest, hothers⟩
    refine ⟨_, .cons horder hrest, List.forall_mem_append.mpr ⟨?_, hothers⟩⟩
    exact fun admission hmem => (List.mem_singleton.mp hmem).trans hfirst

theorem passes_settle {outcome : Outcome} : Passes t (.settle key outcome :: uses) ↔
    ∃ entries, t.entries.Rehash entries ∧ Passes (settle ⟨entries⟩ key outcome) uses := by
  constructor
  · rintro ⟨_, hanswers, hadmitted⟩
    cases hanswers with
    | cons horder hrest => exact ⟨_, horder, _, hrest, hadmitted⟩
  · rintro ⟨entries, horder, rest, hrest, hothers⟩
    exact ⟨_, .cons horder hrest, hothers⟩

/-- An attempt that is admitted as the entries are. -/
theorem passes_of_admitKey {at' : Instant} (hadmitted : (t.admitKey key at').1 = .admitted)
    (hrest : Passes (t.admitKey key at').2 uses) : Passes t (.admitKey key at' :: uses) :=
  passes_admitKey.mpr ⟨t.entries, .refl _, hadmitted, hrest⟩

/-! ### Attempts back to back -/

theorem admits_of_admitted {at' : Instant} (h : (t.admitKey key at').1 = .admitted) :
    Admits t key at' .admitted (t.admitKey key at').2 := h ▸ admits_admitKey t key at'

/-- Who is within the wait is not admitted. -/
theorem not_passes_of_wait {entry : Entry} {at' : Instant} (hget : t.entries.get key = some entry)
    (hrecent : at' < entry.lastAttempt + forgetAfter) (hwait : at' < entry.waitUntil) :
    ¬ Passes t (.admitKey key at' :: uses) := by
  rw [passes_admitKey]
  rintro ⟨entries, horder, hadmitted, -⟩
  obtain ⟨_, -, -, hself⟩ := (admits_of_admitted hadmitted).get_self
  have hwaited := (hself entry ((HashMap.get_eq_of_rehash horder key).trans hget) hrecent).2
  exact absurd hwait (not_lt.mpr hwaited)

theorem delayAfter_freeAttempts : delayAfter freeAttempts = shortDelay := by decide

/-- With some counted, so many more are refused. -/
theorem not_passes_replicate {n counted : ℕ} {last at' : Instant}
    (hget : t.entries.get key = some ⟨counted, last⟩) (hmany : freeAttempts < counted + n)
    (hfew : counted ≤ freeAttempts) (hrecent : at' < last + forgetAfter)
    (hfull : counted = freeAttempts → at' < last + shortDelay) :
    ¬ Passes t (List.replicate n (.admitKey key at')) := by
  induction n generalizing t counted last with
  | zero => exact absurd hmany (not_lt.mpr hfew)
  | succ n ih =>
    rw [List.replicate_succ]
    by_cases hcounted : counted = freeAttempts
    · refine not_passes_of_wait hget hrecent ?_
      rw [Entry.waitUntil, hcounted, delayAfter_freeAttempts]
      exact hfull hcounted
    · rw [passes_admitKey]
      rintro ⟨entries, horder, hadmitted, hrest⟩
      obtain ⟨m, hself, -, hcount⟩ := (admits_of_admitted hadmitted).get_self
      obtain ⟨rfl, -⟩ := hcount _ ((HashMap.get_eq_of_rehash horder key).trans hget) hrecent
      refine ih hself (by omega) (by omega) ?_ (fun _ => ?_) hrest
      · exact Nat.lt_add_of_pos_right (by decide)
      · exact Nat.lt_add_of_pos_right (by decide)

/-- So many at one time are admitted. -/
theorem passes_replicate {n counted : ℕ} {at' : Instant}
    (hget : t.entries.get key = some ⟨counted, at'⟩) (hfew : counted + n ≤ freeAttempts) :
    Passes t (List.replicate n (.admitKey key at')) := by
  induction n generalizing t counted with
  | zero => exact passes_nil
  | succ n ih =>
    have hnow : ¬ at' < (⟨counted, at'⟩ : Entry).waitUntil := by
      have hfree : counted < freeAttempts := by omega
      rw [Entry.waitUntil, delayAfter, if_pos hfree]
      exact lt_irrefl _
    have hadmits : t.admitKey key at' = (.admitted, ⟨t.entries.insert key ⟨counted + 1, at'⟩⟩) := by
      rw [admitKey, hget]
      dsimp only
      rw [if_pos (Nat.lt_add_of_pos_right (by decide)), if_neg hnow]
    refine passes_of_admitKey (by rw [hadmits]) ?_
    rw [hadmits]
    exact ih (HashMap.get_insert_self _ _ _) (by omega)

/-- As many as are free are admitted for a key that is not counted. -/
theorem passes_replicate_of_expired {n : ℕ} {at' : Instant}
    (h : ∀ entry, t.entries.get key = some entry → entry.lastAttempt + forgetAfter ≤ at')
    (hn : n ≤ freeAttempts) : Passes t (List.replicate n (.admitKey key at')) := by
  cases n with
  | zero => exact passes_nil
  | succ n =>
    refine passes_of_admitKey (by rw [admitKey_of_expired h]) ?_
    rw [admitKey_of_expired h]
    exact passes_replicate (t.get_track_self key at') (by omega)

/-! ### A flood -/

/-- Attempts for these keys that succeed. -/
def succeed (keys : List Key) : List Use := keys.map (.settle · .succeeded)

/-- One attempt for each of these keys. -/
def flood (keys : List Key) (at' : Instant) : List Use := keys.map (.admitKey · at')

theorem get_settle_succeeded (t : LoginThrottle) (key key' : Key) :
    (t.settle key .succeeded).entries.get key' =
      if key' = key then none else t.entries.get key' :=
  HashMap.get_remove _ _ _

theorem of_passes_succeed {keys : List Key} (h : Passes t (succeed keys ++ uses)) :
    ∃ cleared : LoginThrottle,
      (∀ key, cleared.entries.get key = if key ∈ keys then none else t.entries.get key) ∧
      Passes cleared uses := by
  induction keys generalizing t with
  | nil => exact ⟨t, by simp, h⟩
  | cons first keys ih =>
    obtain ⟨entries, horder, hrest⟩ := passes_settle.mp h
    obtain ⟨cleared, hget, hpasses⟩ := ih hrest
    refine ⟨cleared, fun key => ?_, hpasses⟩
    rw [hget, get_settle_succeeded, HashMap.get_eq_of_rehash horder]
    grind

theorem passes_succeed {keys : List Key} (h : ∀ cleared : LoginThrottle,
    (∀ key, cleared.entries.get key = if key ∈ keys then none else t.entries.get key) →
    Passes cleared uses) : Passes t (succeed keys ++ uses) := by
  induction keys generalizing t with
  | nil => exact h t (by simp)
  | cons first keys ih =>
    refine passes_settle.mpr ⟨t.entries, .refl _, ih fun cleared hget => h cleared fun key => ?_⟩
    rw [hget, get_settle_succeeded]
    grind

/-- Where there is room, an attempt touches its own entry only. -/
theorem admitKey_of_room (key : Key) (at' : Instant) (h : t.entries.pairs.length < maxTracked) :
    (t.admitKey key at').2.entries.pairs.length ≤ t.entries.pairs.length + 1 ∧
      ∀ other, other ≠ key →
        (t.admitKey key at').2.entries.get other = t.entries.get other := by
  generalize hanswer : t.admitKey key at' = answer
  obtain ⟨admission, t'⟩ := answer
  cases admits_of_eq hanswer with
  | wait => exact ⟨Nat.le_succ _, fun other _ => rfl⟩
  | again =>
    exact ⟨HashMap.length_insert_le _ _ _, fun other hne => HashMap.get_insert_ne _ hne _⟩
  | first =>
    rw [track_of_lt h]
    exact ⟨HashMap.length_insert_le _ _ _, fun other hne => HashMap.get_insert_ne _ hne _⟩

/-- A flood that finds room leaves the others alone. -/
theorem of_passes_flood {keys : List Key} {other : Key} {at' : Instant}
    (h : Passes t (flood keys at' ++ uses)) (hother : other ∉ keys)
    (hroom : t.entries.pairs.length + keys.length ≤ maxTracked) :
    ∃ flooded : LoginThrottle, flooded.entries.get other = t.entries.get other ∧
      Passes flooded uses := by
  induction keys generalizing t with
  | nil => exact ⟨t, rfl, h⟩
  | cons first keys ih =>
    rw [List.length_cons] at hroom
    obtain ⟨hne, hother⟩ := List.ne_and_not_mem_of_not_mem_cons hother
    obtain ⟨entries, horder, -, hrest⟩ := passes_admitKey.mp h
    have hlength := HashMap.length_of_rehash horder
    obtain ⟨hgrown, hothers⟩ := admitKey_of_room (t := ⟨entries⟩) first at'
      (by dsimp only; omega)
    obtain ⟨flooded, hget, hpasses⟩ := ih hrest hother (by dsimp only at hgrown; omega)
    refine ⟨flooded, ?_, hpasses⟩
    rw [hget, hothers other hne, HashMap.get_eq_of_rehash horder]

/-- New keys are admitted while there is room. -/
theorem passes_flood {keys : List Key} {at' : Instant} (hnodup : keys.Nodup)
    (hnew : ∀ key ∈ keys, t.entries.get key = none)
    (hroom : t.entries.pairs.length + keys.length ≤ maxTracked)
    (h : ∀ flooded : LoginThrottle,
      flooded.entries.pairs.length = t.entries.pairs.length + keys.length →
      (∀ key, flooded.entries.get key =
        if key ∈ keys then some ⟨1, at'⟩ else t.entries.get key) → Passes flooded uses) :
    Passes t (flood keys at' ++ uses) := by
  induction keys generalizing t with
  | nil => exact h t rfl (by simp)
  | cons first keys ih =>
    rw [List.length_cons] at hroom
    obtain ⟨hfirst, hnodup⟩ := List.nodup_cons.mp hnodup
    obtain ⟨hfirstNew, hnew⟩ := List.forall_mem_cons.mp hnew
    have hadmits := admitKey_of_new at' hfirstNew (by omega)
    have hgrown := length_insert_of_new ⟨1, at'⟩ hfirstNew
    refine passes_of_admitKey (by rw [hadmits]) ?_
    rw [hadmits]
    refine ih hnodup (fun key hkey => ?_) (by dsimp only; omega) fun flooded hlength hget => ?_
    · have hne : key ≠ first := by
        rintro rfl
        exact hfirst hkey
      rw [HashMap.get_insert_ne _ hne]
      exact hnew key hkey
    · refine h flooded (by rw [hlength, hgrown, List.length_cons]; omega) fun key => ?_
      rw [hget, HashMap.get_insert]
      grind

/-- An eviction takes an entry that ranks below all others but one. -/
theorem get_evict_of_lowest {entries : HashMap Key Entry} {old oldest : Key} {entry : Entry}
    (hfull : maxTracked ≤ entries.pairs.length) (hget : entries.get oldest = some entry)
    (hlowest : ∀ key entry', key ≠ old → key ≠ oldest → entries.get key = some entry' →
      ¬ entry'.rank ≤ entry.rank) : (evict entries).get oldest = none := by
  have hevicts := evicts_evict entries
  by_contra hne
  obtain ⟨kept, hkept⟩ := Option.ne_none_iff_exists'.mp hne
  obtain rfl := Option.some.inj ((hevicts.sub _ _ hkept).symm.trans hget)
  have hstay : ∀ key, (entries.remove old).get key ≠ none → (evict entries).get key ≠ none := by
    intro key hkey hgone
    rw [HashMap.get_remove] at hkey
    obtain ⟨hold, hkey⟩ : key ≠ old ∧ entries.get key ≠ none := by simpa using hkey
    obtain ⟨entry', hentry'⟩ := Option.ne_none_iff_exists'.mp hkey
    have hother : key ≠ oldest := by
      rintro rfl
      exact hne hgone
    exact hlowest key entry' hold hother hentry'
      (hevicts.rank_le key entry' oldest kept hentry' hgone hkept)
  have hlength := HashMap.length_le_of_get hstay
  rw [HashMap.length_remove] at hlength
  have hbatch : 2 ≤ batch entries :=
    le_min (by decide) ((show 2 ≤ maxTracked by decide).trans hfull)
  have hevicted := hevicts.length
  split_ifs at hlength <;> omega

/-- There are more keys than the throttle tracks. -/
theorem exists_keys (key : Key) : ∃ first last middle,
    (first :: (middle ++ [last])).Nodup ∧ key ∉ first :: (middle ++ [last]) ∧
      middle.length + 2 = maxTracked := by
  have hsmall : maxTracked + 1 ≤ 2 ^ 256 := by decide
  have hinj : ∀ i ∈ List.range (maxTracked + 1), ∀ j ∈ List.range (maxTracked + 1),
      BitVec.ofNat 256 i = BitVec.ofNat 256 j → i = j := by
    intro i hi j hj h
    have hnat := congrArg BitVec.toNat h
    rw [List.mem_range] at hi hj
    rwa [BitVec.toNat_ofNat, BitVec.toNat_ofNat, Nat.mod_eq_of_lt (hi.trans_le hsmall),
      Nat.mod_eq_of_lt (hj.trans_le hsmall)] at hnat
  have hnodup := (List.nodup_range (n := maxTracked + 1)).map_on hinj
  let all : List Key := (List.range (maxTracked + 1)).map (BitVec.ofNat 256)
  have hlength : maxTracked ≤ (all.erase key).length := by
    have := List.le_length_erase (a := key) (l := all)
    simpa [all] using this
  obtain ⟨keys, hkeys⟩ : ∃ keys, (all.erase key).take maxTracked = keys := ⟨_, rfl⟩
  have hcount : keys.length = maxTracked := by rw [← hkeys, List.length_take, min_eq_left hlength]
  have hnodupKeys : keys.Nodup := hkeys ▸ (hnodup.erase key).sublist (List.take_sublist _ _)
  have hkey : key ∉ keys := fun hmem =>
    hnodup.not_mem_erase (List.mem_of_mem_take (hkeys ▸ hmem))
  have htwo : 2 ≤ maxTracked := by decide
  obtain ⟨first, rest, rfl⟩ := List.exists_cons_of_length_pos (l := keys) (by omega)
  rw [List.length_cons] at hcount
  have hne : rest ≠ [] := by
    rintro rfl
    rw [List.length_nil] at hcount
    omega
  obtain ⟨middle, last, rfl⟩ : ∃ middle last, rest = middle ++ [last] :=
    ⟨_, _, (List.dropLast_append_getLast hne).symm⟩
  refine ⟨first, last, middle, hnodupKeys, hkey, ?_⟩
  rw [List.length_append, List.length_singleton] at hcount
  omega

/-- The entries of all others. -/
def others (t : LoginThrottle) (key : Key) : List Key :=
  (t.entries.pairs.map Prod.fst).filter (· ≠ key)

theorem mem_others {key' : Key} :
    key' ∈ t.others key ↔ key' ≠ key ∧ t.entries.get key' ≠ none := by
  rw [others, List.mem_filter, decide_eq_true_eq, and_comm, List.mem_map]
  refine and_congr_right fun _ => ⟨?_, fun hget => ?_⟩
  · rintro ⟨⟨key', entry⟩, hpair, rfl⟩
    rw [HashMap.mem_pairs.mp hpair]
    exact Option.some_ne_none entry
  · obtain ⟨entry, hentry⟩ := Option.ne_none_iff_exists'.mp hget
    exact ⟨(key', entry), HashMap.mem_pairs.mpr hentry, rfl⟩

/-- All others succeed; a new key is tried once, and as many others a little later as the map then
has room for; then the first of them as often as is free. -/
def overflow (t : LoginThrottle) (key first last : Key) (middle : List Key) (now : Instant) :
    List Use :=
  succeed (t.others key) ++ (.admitKey first now :: (flood middle (now + 1) ++
    (.admitKey last (now + 1) :: List.replicate freeAttempts (.admitKey first (now + 1)))))

section

variable {first last : Key} {middle : List Key} {entry : Entry}

/-- What is left when all others have succeeded. -/
theorem of_cleared (hget : t.entries.get key = some entry)
    (hcleared : ∀ key', t'.entries.get key' =
      if key' ∈ t.others key then none else t.entries.get key') :
    (∀ key', key' ≠ key → t'.entries.get key' = none) ∧ t'.entries.pairs.length = 1 := by
  have hnew : ∀ key', key' ≠ key → t'.entries.get key' = none := by
    intro key' hne
    rw [hcleared]
    split_ifs with hmem
    · rfl
    · rw [mem_others] at hmem
      simpa [hne] using hmem
  have hsame : ∀ key', ((∅ : HashMap Key Entry).insert key entry).get key' =
      t'.entries.get key' := by
    intro key'
    rw [HashMap.get_insert, HashMap.get_empty]
    split_ifs with heq
    · rw [hcleared, heq, if_neg (by rw [mem_others]; simp), hget]
    · exact (hnew key' heq).symm
  exact ⟨hnew, HashMap.length_of_rehash (HashMap.rehash_of_get_eq hsame)⟩

/-- A full map has no room for one more attempt: it evicts the first key, which is the oldest but
for the key itself. -/
theorem get_track_of_full (hfull : t.entries.pairs.length = maxTracked)
    (hcounted : t.entries.get first = some ⟨1, now⟩)
    (hlater : ∀ key' entry', key' ≠ key → key' ≠ first → t.entries.get key' = some entry' →
      entry' = ⟨1, now + 1⟩)
    (hne : last ≠ first) : (t.track last (now + 1)).entries.get first = none := by
  have hlowest : ∀ key' entry', key' ≠ key → key' ≠ first → t.entries.get key' = some entry' →
      ¬ entry'.rank ≤ (⟨1, now⟩ : Entry).rank := by
    intro key' entry' hother hnotFirst hentry'
    obtain rfl := hlater key' entry' hother hnotFirst hentry'
    rw [← Entry.rankLe_iff]
    simp [Entry.rankLe, freeAttempts]
  rw [track, if_pos hfull.ge, HashMap.get_insert_ne _ hne.symm]
  exact get_evict_of_lowest hfull.ge hcounted hlowest

/-- An entry too many, and the first key is evicted. -/
theorem passes_overflow (hnodup : (first :: (middle ++ [last])).Nodup)
    (hkey : key ∉ first :: (middle ++ [last])) (hlength : middle.length + 2 = maxTracked)
    (hget : t.entries.get key = some entry) :
    Passes t (t.overflow key first last middle now) := by
  obtain ⟨hfirst, hnodup⟩ := List.nodup_cons.mp hnodup
  obtain ⟨hmiddle, -, hlast⟩ := List.nodup_append.mp hnodup
  have hne : ∀ key' ∈ first :: (middle ++ [last]), key' ≠ key := by
    rintro key' hmem rfl
    exact hkey hmem
  have hlastMem : last ∈ middle ++ [last] := List.mem_append_right _ List.mem_cons_self
  have hlastFirst : last ≠ first := by
    rintro rfl
    exact hfirst hlastMem
  refine passes_succeed fun cleared hcleared => ?_
  obtain ⟨hnew, hone⟩ := of_cleared hget hcleared
  have hfirstNew := hnew first (hne first List.mem_cons_self)
  have hadmits := admitKey_of_new now hfirstNew (hone ▸ (by decide : 1 < maxTracked))
  have htwo := length_insert_of_new ⟨1, now⟩ hfirstNew
  refine passes_of_admitKey (by rw [hadmits]) ?_
  rw [hadmits]
  refine passes_flood hmiddle (fun key' hmem => ?_) (by dsimp only; omega)
    fun flooded hfull hflooded => ?_
  · rw [HashMap.get_insert_ne _ (by rintro rfl; exact hfirst (List.mem_append_left _ hmem))]
    exact hnew key' (hne key' (List.mem_cons_of_mem _ (List.mem_append_left _ hmem)))
  · have hlastNew : flooded.entries.get last = none := by
      rw [hflooded, if_neg fun hmem => hlast last hmem last List.mem_cons_self rfl,
        HashMap.get_insert_ne _ hlastFirst]
      exact hnew last (hne last (List.mem_cons_of_mem _ hlastMem))
    have hcounted : flooded.entries.get first = some ⟨1, now⟩ := by
      rw [hflooded, if_neg fun hmem => hfirst (List.mem_append_left _ hmem),
        HashMap.get_insert_self]
    have hlater : ∀ key' entry', key' ≠ key → key' ≠ first →
        flooded.entries.get key' = some entry' → entry' = ⟨1, now + 1⟩ := by
      intro key' entry' hother hnotFirst hentry'
      rw [hflooded, HashMap.get_insert_ne _ hnotFirst, hnew key' hother] at hentry'
      exact (Option.some.inj (Option.ite_none_right_eq_some.mp hentry').2).symm
    have hevicted := get_track_of_full (by rw [hfull]; dsimp only; omega) hcounted
      hlater hlastFirst
    have hadmitLast : flooded.admitKey last (now + 1) = (.admitted, flooded.track last (now + 1)) :=
      admitKey_of_expired (by simp [hlastNew])
    refine passes_of_admitKey (by rw [hadmitLast]) ?_
    rw [hadmitLast]
    refine passes_replicate_of_expired (fun entry' hentry' => ?_) le_rfl
    rw [hevicted] at hentry'
    cases hentry'

/-- Without it, the first key is counted still. -/
theorem not_passes_overflow (hnodup : (first :: (middle ++ [last])).Nodup)
    (hlength : middle.length + 2 = maxTracked)
    (hget : ∀ key', t'.entries.get key' = if key' = key then none else t.entries.get key') :
    ¬ Passes t' (t.overflow key first last middle now) := by
  obtain ⟨hfirst, -⟩ := List.nodup_cons.mp hnodup
  intro h
  obtain ⟨cleared, hcleared, h⟩ := of_passes_succeed h
  have hnone : ∀ key', cleared.entries.get key' = none := by
    intro key'
    rw [hcleared, hget]
    split_ifs with hmem heq
    · rfl
    · rfl
    · rw [mem_others] at hmem
      simpa [heq] using hmem
  have hzero : cleared.entries.pairs.length ≤ (∅ : HashMap Key Entry).pairs.length :=
    HashMap.length_le_of_get fun key' hsome => absurd (hnone key') hsome
  have hzero : cleared.entries.pairs.length = 0 := Nat.le_zero.mp hzero
  obtain ⟨entries, horder, hadmitted, h⟩ := passes_admitKey.mp h
  have hlength' := (HashMap.length_of_rehash horder).trans hzero
  obtain ⟨n, hself, hfresh, -⟩ := (admits_of_admitted hadmitted).get_self
  obtain rfl := hfresh ((HashMap.get_eq_of_rehash horder first).trans (hnone first))
  obtain ⟨hgrown, -⟩ := admitKey_of_room (t := ⟨entries⟩) first now
    (by dsimp only; rw [hlength']; decide)
  have hflood : flood middle (now + 1) ++ (.admitKey last (now + 1) ::
      List.replicate freeAttempts (.admitKey first (now + 1))) =
      flood (middle ++ [last]) (now + 1) ++
        List.replicate freeAttempts (.admitKey first (now + 1)) := by
    simp [flood]
  rw [hflood] at h
  obtain ⟨flooded, hcounted, h⟩ := of_passes_flood h hfirst (by
    rw [List.length_append, List.length_singleton]
    dsimp only at hgrown
    omega)
  rw [hself] at hcounted
  exact not_passes_replicate hcounted (by omega) (by decide)
    (Nat.add_lt_add_left (by decide) now) (fun h => absurd h (by decide)) h

theorem le_of_mem_times_overflow :
    ∀ time ∈ Use.times (t.overflow key first last middle now), now ≤ time := by
  refine le_of_mem_times fun use huse time htime => ?_
  simp only [overflow, succeed, flood, List.mem_append, List.mem_cons, List.mem_map,
    List.mem_replicate] at huse
  rcases huse with ⟨_, _, rfl⟩ | rfl | ⟨_, _, rfl⟩ | rfl | ⟨_, rfl⟩
  · cases htime
  · exact (Option.some.inj htime).le
  · exact (Nat.le_succ now).trans (Option.some.inj htime).le
  · exact (Nat.le_succ now).trans (Option.some.inj htime).le
  · exact (Nat.le_succ now).trans (Option.some.inj htime).le

end

/-! ### When there is no trace -/

/-- What is counted is counted at least once. -/
theorem attempts_pos (h : Reaches call Any ⟨∅⟩ t) {entry : Entry}
    (hget : t.entries.get key = some entry) : 1 ≤ entry.attempts := by
  refine h.invariant (P := fun t => ∀ key entry, t.entries.get key = some entry →
    1 ≤ entry.attempts) (fun key entry hget => by cases hget) ?_ key entry hget
  intro t c t' hpos _ hs key entry hget
  cases c with
  | admitKey key' at' =>
    obtain rfl := Option.some.inj hs
    generalize hanswer : t.admitKey key' at' = answer at hget
    obtain ⟨admission, t'⟩ := answer
    have hadmits := admits_of_eq hanswer
    by_cases hkey : key = key'
    · subst hkey
      cases admission with
      | admitted =>
        obtain ⟨n, hself, -⟩ := hadmits.get_self
        obtain rfl := Option.some.inj (hself.symm.trans hget)
        exact Nat.le_add_left 1 n
      | wait remaining =>
        obtain rfl := eq_of_wait hadmits
        exact hpos key entry hget
    · rcases hadmits.get_ne hkey with hgone | hsame
      · rw [hgone] at hget
        cases hget
      · exact hpos key entry (hsame.symm.trans hget)
  | settle key' outcome =>
    obtain rfl := Option.some.inj hs
    by_cases hkey : key = key'
    · subst hkey
      cases outcome with
      | failed => exact hpos key entry hget
      | succeeded =>
        rw [get_settle_succeeded, if_pos rfl] at hget
        cases hget
      | notAnAttempt =>
        rw [get_settle_notAnAttempt] at hget
        obtain ⟨entry', -, hget⟩ := Option.bind_eq_some_iff.mp hget
        obtain ⟨hne, hget⟩ := Option.ite_none_left_eq_some.mp hget
        obtain rfl := Option.some.inj hget
        exact Nat.one_le_iff_ne_zero.mpr hne
    · rw [get_settle_ne _ hkey] at hget
      exact hpos key entry hget
  | sweep at' =>
    obtain rfl := Option.some.inj hs
    rw [get_sweep] at hget
    exact hpos key entry (Option.filter_eq_some_iff.mp hget).1
  | rehash entries =>
    obtain ⟨hperm, hs⟩ := Option.ite_none_right_eq_some.mp hs
    obtain rfl := Option.some.inj hs
    exact hpos key entry ((HashMap.get_eq_of_rehash hperm key).symm.trans hget)

/-- Given back, an attempt that was counted again leaves its time. -/
theorem get_given_back_again {entry : Entry} (hpos : 1 ≤ entry.attempts) (key' : Key) :
    (settle ⟨t.entries.insert key ⟨entry.attempts + 1, now⟩⟩ key .notAnAttempt).entries.get key' =
      if key' = key then some ⟨entry.attempts, now⟩ else t.entries.get key' := by
  by_cases hkey : key' = key
  · subst hkey
    rw [get_settle_notAnAttempt, HashMap.get_insert_self, Option.bind_some, if_pos rfl,
      Nat.add_sub_cancel, if_neg (Nat.one_le_iff_ne_zero.mp hpos)]
  · rw [get_settle_ne _ hkey, HashMap.get_insert_ne _ hkey, if_neg hkey]

/-- Given back, a first attempt leaves no entry, though an expired one was there. -/
theorem get_given_back_first (hroom : t.entries.pairs.length < maxTracked) (key' : Key) :
    ((t.track key now).settle key .notAnAttempt).entries.get key' =
      if key' = key then none else t.entries.get key' := by
  rw [track_of_lt hroom]
  by_cases hkey : key' = key
  · subst hkey
    rw [get_settle_notAnAttempt, HashMap.get_insert_self, if_pos rfl]
    rfl
  · rw [get_settle_ne _ hkey, HashMap.get_insert_ne _ hkey, if_neg hkey]

/-- Another time in the entry shows: at once in a wait, or an hour later in what is forgotten. -/
theorem not_sameAnswers_of_lt {entry : Entry} (hget : t.entries.get key = some entry)
    (hpos : 1 ≤ entry.attempts) (hlast : entry.lastAttempt < now)
    (hrecent : now < entry.lastAttempt + forgetAfter)
    (hadmitted : (t.admitKey key now).1 = .admitted)
    (hget' : t'.entries.get key = some ⟨entry.attempts, now⟩) : ¬ SameAnswers now t' t := by
  intro hsame
  by_cases hfew : entry.attempts < freeAttempts
  · let later := entry.lastAttempt + forgetAfter
    have htimes : ∀ time ∈ Use.times (List.replicate (freeAttempts + 1 - entry.attempts)
        (.admitKey key later)), now ≤ time := by
      refine le_of_mem_times fun use huse time htime => ?_
      obtain rfl := List.eq_of_mem_replicate huse
      exact hrecent.le.trans (Option.some.inj htime).le
    have hpasses : Passes t (List.replicate (freeAttempts + 1 - entry.attempts)
        (.admitKey key later)) :=
      passes_replicate_of_expired (fun entry' hentry' => by
        obtain rfl := Option.some.inj (hget.symm.trans hentry')
        exact le_rfl) (by omega)
    refine not_passes_replicate hget' (by omega) hfew.le (Nat.add_lt_add_right hlast _)
      (fun heq => absurd heq hfew.ne) ((hsame.passes_iff htimes).mpr hpasses)
  · have htimes : ∀ time ∈ Use.times [.admitKey key now], now ≤ time := by
      refine le_of_mem_times fun use huse time htime => ?_
      obtain rfl := List.mem_singleton.mp huse
      exact (Option.some.inj htime).le
    have hpasses : Passes t [.admitKey key now] := passes_of_admitKey hadmitted passes_nil
    have hdelay : 0 < delayAfter entry.attempts :=
      (show 0 < delayAfter freeAttempts by decide).trans_le (delayAfter_mono (not_lt.mp hfew))
    exact not_passes_of_wait hget' (Nat.lt_add_of_pos_right (by decide))
      (Nat.lt_add_of_pos_right hdelay) ((hsame.passes_iff htimes).mpr hpasses)

/-- **An attempt given back leaves no trace exactly if there was no entry, or one of this instant**:
neither an older time nor an entry that has expired comes back. -/
theorem given_back_iff (hreach : Reaches call Any ⟨∅⟩ t)
    (hroom : t.entries.pairs.length < maxTracked)
    (h : t.admitKey key now = (.admitted, t')) :
    SameAnswers now (t'.settle key .notAnAttempt) t ↔
      ∀ entry, t.entries.get key = some entry → entry.lastAttempt = now := by
  cases admits_of_eq h with
  | @again entry hget hrecent hwaited =>
    have hpos := attempts_pos hreach hget
    have hgiven : ∀ key', (settle ⟨t.entries.insert key ⟨entry.attempts + 1, now⟩⟩ key
        .notAnAttempt).entries.get key' = _ := get_given_back_again hpos
    constructor
    · intro hsame entry' hentry'
      obtain rfl := Option.some.inj (hget.symm.trans hentry')
      by_contra hne
      have hlast : entry.lastAttempt < now :=
        lt_of_le_of_ne ((Nat.le_add_right _ _).trans hwaited) hne
      exact not_sameAnswers_of_lt hget hpos hlast hrecent (by rw [h])
        ((hgiven key).trans (if_pos rfl)) hsame
    · intro hnow
      refine sameAnswers_of_get_eq fun key' => ?_
      rw [hgiven]
      split_ifs with hkey
      · rw [hkey, hget, ← hnow entry hget]
      · rfl
  | first hexpired =>
    have hgiven : ∀ key', ((t.track key now).settle key .notAnAttempt).entries.get key' = _ :=
      get_given_back_first hroom
    constructor
    · intro hsame entry hget
      obtain ⟨first, last, middle, hnodup, hkey, hlength⟩ := exists_keys key
      exact absurd ((hsame.passes_iff le_of_mem_times_overflow).mpr
        (passes_overflow hnodup hkey hlength hget)) (not_passes_overflow hnodup hlength hgiven)
    · intro hnow
      refine sameAnswers_of_get_eq fun key' => ?_
      rw [hgiven]
      split_ifs with hkey
      · cases hget : t.entries.get key with
        | none => rw [hkey, hget]
        | some entry =>
          have hlast := hnow entry hget
          have hover := hexpired entry hget
          rw [hlast] at hover
          exact absurd hover (not_le.mpr (Nat.lt_add_of_pos_right (by decide)))
      · rfl

/-- The second attempt of an instant. -/
theorem given_back_iff_second : let t := (admitKey ⟨∅⟩ 1 7).2
    SameAnswers 7 ((t.admitKey 1 7).2.settle 1 .notAnAttempt) t ↔
      ∀ entry, t.entries.get 1 = some entry → entry.lastAttempt = 7 := by
  intro t
  have hreach : Reaches call Any ⟨∅⟩ t := Reaches.refl.tail (e := Call.admitKey 1 7) trivial rfl
  exact given_back_iff hreach (by decide +kernel) (Prod.ext (by decide +kernel) rfl)

/-- After five attempts, one given back thirty seconds later makes the next wait. -/
theorem given_back_makes_wait :
    let t := afterAll ⟨∅⟩ (List.replicate 5 (.admitKey 1 0))
    let (admission, t') := t.admitKey 1 (fromSecs 30)
    t.entries.pairs.length < maxTracked ∧ admission = .admitted ∧
      ((t'.settle 1 .notAnAttempt).admitKey 1 (fromSecs 30)).1 = .wait (fromSecs 30) ∧
      (t.admitKey 1 (fromSecs 30)).1 = .admitted := by
  decide +kernel

end LoginThrottle

end Login

end WeaveAuth
