import Mathlib.Data.Prod.Lex
import WeaveAuth.ForMathlib.Transition
import WeaveAuth.Login.Throttle

/-!
# The bound on the throttle's memory

Any calls on the throttle, for any keys and at any times.

An eviction is a selection by rank, and `select_nth_unstable_by_key` promises nothing about entries
of one rank. `Evicts` allows every choice, and `exists_rehash_evict` says that each one is what
`evict` does in some order of the iteration. A run may come to any such order before any call.

## Main results

* `evicts_evict`, `exists_rehash_evict`: what an eviction takes
* `LoginThrottle.length_le`: no call makes the map larger than the cap
* `LoginThrottle.bound_and_order`: the bound, and what admitting an attempt keeps

## Implementation notes

A rank is compared and nothing else, and the code sorts by it only partly, so what an eviction takes
is stated as a relation (`Evicts`). The run at the end begins with a full map.
-/

namespace WeaveAuth

namespace Login

open Transition

/-! ### Ranks -/

/-- Whether the entry delays anyone, and then since when. -/
def Entry.rank (entry : Entry) : Bool ×ₗ ℕ :=
  toLex (decide (freeAttempts ≤ entry.attempts), entry.lastAttempt)

theorem Entry.rankLe_iff (a b : Entry) : a.rankLe b = true ↔ a.rank ≤ b.rank := by
  rw [rank, rank, Prod.Lex.toLex_le_toLex, rankLe]
  by_cases ha : freeAttempts ≤ a.attempts <;> by_cases hb : freeAttempts ≤ b.attempts <;>
    simp [ha, hb]

/-- An entry that delays someone ranks above every one that does not. -/
theorem Entry.delayed_of_rank_le {a b : Entry} (h : a.rank ≤ b.rank)
    (ha : freeAttempts ≤ a.attempts) : freeAttempts ≤ b.attempts := by
  rw [← rankLe_iff, rankLe, if_pos ha] at h
  exact (of_decide_eq_true h).1

theorem pairwise_ranked (entries : List (Key × Entry)) :
    (entries.insertionSort fun a b => a.2.rankLe b.2).Pairwise fun a b => a.2.rankLe b.2 := by
  have htotal : Std.Total fun a b : Key × Entry => a.2.rankLe b.2 = true := by
    refine ⟨fun a b => ?_⟩
    rw [Entry.rankLe_iff, Entry.rankLe_iff]
    exact le_total _ _
  have htrans : IsTrans (Key × Entry) fun a b => a.2.rankLe b.2 = true := by
    refine ⟨fun a b c hab hbc => ?_⟩
    rw [Entry.rankLe_iff] at hab hbc ⊢
    exact hab.trans hbc
  exact List.pairwise_insertionSort _ _

/-! ### What an eviction takes -/

/-- How many entries an eviction takes. -/
def batch (entries : HashMap Key Entry) : ℕ := min (max (maxTracked / 10) 1) entries.pairs.length

/-- `remaining` is what an eviction may leave of `entries`. -/
structure Evicts (entries remaining : HashMap Key Entry) : Prop where
  /-- No entry comes or changes. -/
  sub : ∀ key entry, remaining.get key = some entry → entries.get key = some entry
  length : remaining.pairs.length + batch entries = entries.pairs.length
  /-- What stays ranks no lower than what goes. -/
  rank_le : ∀ gone entry kept entry', entries.get gone = some entry → remaining.get gone = none →
    remaining.get kept = some entry' → entry.rank ≤ entry'.rank

theorem nodup_evicted (entries : HashMap Key Entry) : (evicted entries).Nodup := by
  have hperm := (List.perm_insertionSort (fun a b => a.2.rankLe b.2) entries.pairs).map Prod.fst
  exact (hperm.nodup_iff.mpr entries.nodup_keys).sublist ((List.take_sublist _ _).map Prod.fst)

theorem length_evicted (entries : HashMap Key Entry) :
    (evicted entries).length = batch entries := by
  simp only [evicted, batch, List.length_map, List.length_take, List.length_insertionSort]
  omega

theorem get_of_mem_evicted {entries : HashMap Key Entry} {key : Key} (h : key ∈ evicted entries) :
    entries.get key ≠ none := by
  obtain ⟨⟨key, entry⟩, hmem, rfl⟩ := List.mem_map.mp h
  have hpair := (List.mem_insertionSort _).mp (List.mem_of_mem_take hmem)
  rw [HashMap.mem_pairs.mp hpair]
  exact Option.some_ne_none entry

theorem length_foldl_remove (keys : List Key) (entries : HashMap Key Entry) (hnodup : keys.Nodup)
    (hkeys : ∀ key ∈ keys, entries.get key ≠ none) :
    (keys.foldl HashMap.remove entries).pairs.length + keys.length = entries.pairs.length := by
  induction keys generalizing entries with
  | nil => rfl
  | cons key keys ih =>
    obtain ⟨hnotMem, hnodup⟩ := List.nodup_cons.mp hnodup
    have hpos : 0 < entries.pairs.length := by
      rw [HashMap.length_pairs]
      exact List.length_pos_of_mem (HashMap.mem_keys.mpr (hkeys key List.mem_cons_self))
    have hrest := ih (entries.remove key) hnodup fun key' hkey' => by
      have hne : key' ≠ key := by
        rintro rfl
        exact hnotMem hkey'
      rw [HashMap.get_remove_ne _ hne]
      exact hkeys key' (List.mem_cons_of_mem _ hkey')
    rw [HashMap.length_remove, if_neg (hkeys key List.mem_cons_self)] at hrest
    rw [List.foldl_cons, List.length_cons]
    omega

theorem length_evict (entries : HashMap Key Entry) :
    (evict entries).pairs.length + batch entries = entries.pairs.length := by
  rw [← length_evicted]
  exact length_foldl_remove _ _ (nodup_evicted entries) fun _ => get_of_mem_evicted

/-- Of an entry that goes and one that stays, the latter comes later in the order. -/
theorem rank_le_of_evicted {entries : HashMap Key Entry} {gone kept : Key} {entry entry' : Entry}
    (hgone : gone ∈ evicted entries) (hget : entries.get gone = some entry)
    (hkept : kept ∉ evicted entries) (hget' : entries.get kept = some entry') :
    entry.rank ≤ entry'.rank := by
  obtain ⟨⟨gone, goneEntry⟩, hmem, rfl⟩ := List.mem_map.mp hgone
  have hpair := HashMap.mem_pairs.mp ((List.mem_insertionSort _).mp (List.mem_of_mem_take hmem))
  obtain rfl := Option.some.inj (hpair.symm.trans hget)
  have hmem' := (List.mem_insertionSort fun a b : Key × Entry => a.2.rankLe b.2).mpr
    (HashMap.mem_pairs.mpr hget')
  have hsorted := pairwise_ranked entries.pairs
  rw [← List.take_append_drop (min (max (maxTracked / 10) 1)
    (entries.pairs.insertionSort fun a b => a.2.rankLe b.2).length)
    (entries.pairs.insertionSort fun a b => a.2.rankLe b.2)] at hmem' hsorted
  rcases List.mem_append.mp hmem' with htaken | hdropped
  · exact absurd (List.mem_map_of_mem htaken) hkept
  · exact (Entry.rankLe_iff _ _).mp
      ((List.pairwise_append.mp hsorted).2.2 _ hmem _ hdropped)

theorem evicts_evict (entries : HashMap Key Entry) : Evicts entries (evict entries) where
  sub key entry hget := by
    rw [LoginThrottle.get_evict] at hget
    exact (Option.ite_none_left_eq_some.mp hget).2
  length := length_evict entries
  rank_le gone entry kept entry' hget hnone hkept := by
    rw [LoginThrottle.get_evict] at hnone hkept
    obtain ⟨hnotMem, hget'⟩ := Option.ite_none_left_eq_some.mp hkept
    have hgone : gone ∈ evicted entries := by
      by_contra hnot
      rw [if_neg hnot, hget] at hnone
      cases hnone
    exact rank_le_of_evicted hgone hget hnotMem hget'

/-- Where the iteration is in the order of the ranks already, its first entries go. -/
theorem evicted_of_pairwise {entries : HashMap Key Entry} {gone kept : List (Key × Entry)}
    (hpairs : entries.pairs = gone ++ kept)
    (hsorted : (gone ++ kept).Pairwise fun a b => a.2.rankLe b.2)
    (hlength : gone.length = batch entries) : evicted entries = gone.map Prod.fst := by
  have hranked : (entries.pairs.insertionSort fun a b => a.2.rankLe b.2) = gone ++ kept := by
    rw [hpairs]
    exact hsorted.insertionSort_eq
  have htake : min (max (maxTracked / 10) 1) (gone ++ kept).length = gone.length := by
    rw [hlength, batch, hpairs]
  simp only [evicted, hranked, htake, List.take_left]

/-- An entry is gone, or as it was. -/
theorem Evicts.get_cases {entries remaining : HashMap Key Entry} (h : Evicts entries remaining)
    (key : Key) : remaining.get key = none ∨ remaining.get key = entries.get key := by
  cases hget : remaining.get key with
  | none => exact .inl rfl
  | some entry => exact .inr (h.sub key entry hget).symm

/-- Every choice among entries of one rank is made in some order of the iteration. -/
theorem exists_rehash_evict {entries remaining : HashMap Key Entry}
    (h : Evicts entries remaining) :
    ∃ entries', entries.Rehash entries' ∧ (evict entries').Rehash remaining := by
  let stays : Key × Entry → Bool := fun e => remaining.get e.1 ≠ none
  let gone := (entries.pairs.filter fun e => !stays e).insertionSort fun a b => a.2.rankLe b.2
  let kept := (entries.pairs.filter stays).insertionSort fun a b => a.2.rankLe b.2
  have hgone (e : Key × Entry) :
      e ∈ gone ↔ entries.get e.1 = some e.2 ∧ remaining.get e.1 = none := by
    rw [List.mem_insertionSort, List.mem_filter, HashMap.mem_pairs]
    simp [stays]
  have hkept (e : Key × Entry) : e ∈ kept ↔ remaining.get e.1 = some e.2 := by
    rw [List.mem_insertionSort, List.mem_filter, HashMap.mem_pairs]
    constructor
    · rintro ⟨hget, hstays⟩
      obtain ⟨entry, hentry⟩ := Option.ne_none_iff_exists'.mp (of_decide_eq_true hstays)
      rwa [hentry, ← h.sub _ _ hentry]
    · intro hget
      exact ⟨h.sub _ _ hget, by simp [stays, hget]⟩
  have hperm : (gone ++ kept).Perm entries.pairs :=
    ((List.perm_insertionSort _ _).append (List.perm_insertionSort _ _)).trans
      (List.perm_append_comm.trans (List.filter_append_perm stays entries.pairs))
  have hnodup : ((gone ++ kept).map Prod.fst).Nodup :=
    (hperm.map Prod.fst).nodup_iff.mpr entries.nodup_keys
  have hsorted : (gone ++ kept).Pairwise fun a b => a.2.rankLe b.2 := by
    refine List.pairwise_append.mpr ⟨pairwise_ranked _, pairwise_ranked _, fun a ha b hb => ?_⟩
    obtain ⟨hget, hnone⟩ := (hgone a).mp ha
    exact (Entry.rankLe_iff _ _).mpr (h.rank_le _ _ _ _ hget hnone ((hkept b).mp hb))
  have hlength : gone.length = batch entries := by
    have hremaining : kept.Perm remaining.pairs := by
      refine (List.perm_ext_iff_of_nodup (hnodup.of_map _).of_append_right
        (remaining.nodup_keys.of_map _)).mpr fun e => ?_
      rw [hkept, HashMap.mem_pairs]
    have htotal := hperm.length_eq
    rw [List.length_append, hremaining.length_eq, ← h.length] at htotal
    omega
  have hbatch : batch (HashMap.ofPairs _ hnodup) = batch entries := by
    rw [batch, batch, HashMap.pairs_ofPairs, hperm.length_eq]
  refine ⟨HashMap.ofPairs _ hnodup, HashMap.rehash_ofPairs hnodup hperm,
    HashMap.rehash_of_get_eq fun key => ?_⟩
  rw [LoginThrottle.get_evict, evicted_of_pairwise (HashMap.pairs_ofPairs _ hnodup) hsorted
    (hlength.trans hbatch.symm),
    HashMap.get_eq_of_rehash (HashMap.rehash_ofPairs hnodup hperm)]
  split_ifs with hmem
  · obtain ⟨e, he, rfl⟩ := List.mem_map.mp hmem
    exact ((hgone e).mp he).2.symm
  · obtain hnone | heq := h.get_cases key
    · cases hget : entries.get key with
      | none => exact hnone.symm
      | some entry =>
        exact absurd (List.mem_map_of_mem ((hgone (key, entry)).mpr ⟨hget, hnone⟩)) hmem
    · exact heq.symm

/-! ### The calls -/

/-- A call on the throttle, or a new order in which its entries come to be iterated. -/
inductive Call where
  | admitKey (key : Key) (now : Instant)
  | settle (key : Key) (outcome : Outcome)
  | sweep (now : Instant)
  | rehash (entries : HashMap Key Entry)

namespace LoginThrottle

def call (t : LoginThrottle) : Call → Option LoginThrottle
  | .admitKey key now => some (t.admitKey key now).2
  | .settle key outcome => some (t.settle key outcome)
  | .sweep now => some (t.sweep now)
  | .rehash entries =>
    if t.entries.entries.entries.Perm entries.entries.entries then some ⟨entries⟩ else none

/-- What an admitted attempt is put into: the old entries, or what an eviction leaves of a full
map. -/
def MakesRoom (t : LoginThrottle) (remaining : HashMap Key Entry) : Prop :=
  remaining = t.entries ∨ maxTracked ≤ t.entries.pairs.length ∧ Evicts t.entries remaining

theorem makesRoom_track (t : LoginThrottle) (key : Key) (now : Instant) :
    ∃ remaining, t.MakesRoom remaining ∧
      (t.track key now).entries = remaining.insert key ⟨1, now⟩ := by
  unfold track
  split_ifs with hfull
  · exact ⟨_, Or.inr ⟨hfull, evicts_evict t.entries⟩, rfl⟩
  · exact ⟨_, Or.inl rfl, rfl⟩

theorem length_track_le (t : LoginThrottle) (key : Key) (now : Instant)
    (h : t.entries.pairs.length ≤ maxTracked) :
    (t.track key now).entries.pairs.length ≤ maxTracked := by
  unfold track
  split_ifs with hfull
  · have hbatch : 1 ≤ batch t.entries := by
      have hone : 1 ≤ maxTracked := by decide
      exact le_min (le_max_right _ _) (hone.trans hfull)
    have hlength := length_evict t.entries
    exact (HashMap.length_insert_le _ _ _).trans (by omega)
  · exact (HashMap.length_insert_le _ _ _).trans (not_le.mp hfull)

theorem length_settle_le (t : LoginThrottle) (key : Key) (outcome : Outcome) :
    (t.settle key outcome).entries.pairs.length ≤ t.entries.pairs.length := by
  cases outcome with
  | failed => exact le_rfl
  | succeeded => exact HashMap.length_remove_le _ key
  | notAnAttempt =>
    simp only [settle]
    split
    · exact le_rfl
    · next entry hget =>
      split_ifs
      · exact HashMap.length_remove_le _ key
      · refine (HashMap.length_insert_of_get _ ?_ _).le
        rw [hget]
        exact Option.some_ne_none entry

/-- No call makes the map larger than the cap. -/
theorem length_call_le {t t' : LoginThrottle} {c : Call}
    (h : t.entries.pairs.length ≤ maxTracked) (hs : t.call c = some t') :
    t'.entries.pairs.length ≤ maxTracked := by
  cases c with
  | admitKey key now =>
    obtain rfl := Option.some.inj hs
    generalize hanswer : t.admitKey key now = answer
    obtain ⟨admission, t'⟩ := answer
    cases admits_of_eq hanswer with
    | wait => exact h
    | again hget =>
      refine (HashMap.length_insert_of_get _ ?_ _).trans_le h
      rw [hget]
      exact Option.some_ne_none _
    | first => exact t.length_track_le key now h
  | settle key outcome =>
    obtain rfl := Option.some.inj hs
    exact (t.length_settle_le key outcome).trans h
  | sweep now =>
    obtain rfl := Option.some.inj hs
    exact (HashMap.length_retain_le _ _).trans h
  | rehash entries =>
    obtain ⟨hperm, hs⟩ := Option.ite_none_right_eq_some.mp hs
    obtain rfl := Option.some.inj hs
    exact (HashMap.length_of_rehash hperm).trans_le h

theorem length_le {t : LoginThrottle} (h : Reaches call Any ⟨∅⟩ t) :
    t.entries.pairs.length ≤ maxTracked :=
  h.invariant (P := fun t => t.entries.pairs.length ≤ maxTracked) (Nat.zero_le _)
    fun _ _ _ hle _ hs => length_call_le hle hs

/-- **Whatever is called, the throttle stays within its bound, tracks whom it admits, and forgets
the lowest ranks first.** -/
theorem bound_and_order {t : LoginThrottle} (h : Reaches call Any ⟨∅⟩ t) :
    t.entries.pairs.length ≤ maxTracked ∧
      ∀ key now t', t.admitKey key now = (.admitted, t') →
        (∃ entry, t'.entries.get key = some entry ∧ 1 ≤ entry.attempts) ∧
        (∃ remaining entry, t.MakesRoom remaining ∧ t'.entries = remaining.insert key entry) ∧
        ∀ gone entry kept entry', gone ≠ key → kept ≠ key →
          t.entries.get gone = some entry → t'.entries.get gone = none →
          t'.entries.get kept = some entry' →
          entry.rank ≤ entry'.rank ∧
            (freeAttempts ≤ entry.attempts → freeAttempts ≤ entry'.attempts) := by
  refine ⟨length_le h, fun key now t' hanswer => ?_⟩
  have hadmits := admits_of_eq hanswer
  obtain ⟨n, hself, -⟩ := hadmits.get_self
  have hroom : ∃ remaining entry,
      t.MakesRoom remaining ∧ t'.entries = remaining.insert key entry := by
    cases hadmits with
    | again => exact ⟨_, _, Or.inl rfl, rfl⟩
    | first =>
      obtain ⟨remaining, hmakes, heq⟩ := t.makesRoom_track key now
      exact ⟨remaining, _, hmakes, heq⟩
  refine ⟨⟨_, hself, Nat.le_add_left 1 n⟩, hroom, ?_⟩
  intro gone entry kept entry' hgone hkept hget hnone hget'
  obtain ⟨remaining, made, hmakes, heq⟩ := hroom
  rw [heq, HashMap.get_insert_ne _ hgone] at hnone
  rw [heq, HashMap.get_insert_ne _ hkept] at hget'
  have hrank : entry.rank ≤ entry'.rank := by
    rcases hmakes with rfl | ⟨-, hevicts⟩
    · rw [hget] at hnone
      cases hnone
    · exact hevicts.rank_le gone entry kept entry' hget hnone hget'
  exact ⟨hrank, Entry.delayed_of_rank_le hrank⟩

/-- One attempt for each of the first `n` keys, one after the other. -/
theorem exists_filled {n : ℕ} (hn : n ≤ maxTracked) : ∃ t : LoginThrottle,
    Reaches call Any ⟨∅⟩ t ∧ t.entries.pairs.length = n ∧
      ∀ key : Key, t.entries.get key = if key.toNat < n then some ⟨1, key.toNat⟩ else none := by
  induction n with
  | zero => exact ⟨⟨∅⟩, .refl, rfl, fun key => by rw [if_neg (Nat.not_lt_zero _)]; rfl⟩
  | succ n ih =>
    obtain ⟨t, hreach, hlength, hget⟩ := ih (by omega)
    have hsmall : maxTracked < 2 ^ 256 := by decide
    have hkey : (BitVec.ofNat 256 n).toNat = n := by
      rw [BitVec.toNat_ofNat, Nat.mod_eq_of_lt (by omega)]
    have hnew : t.entries.get (BitVec.ofNat 256 n) = none := by
      rw [hget, hkey, if_neg (lt_irrefl n)]
    have hadmits := admitKey_of_new n hnew (by omega)
    refine ⟨_, hreach.tail (e := .admitKey (BitVec.ofNat 256 n) n) trivial rfl, ?_, fun key => ?_⟩
    · rw [hadmits, length_insert_of_new _ hnew, hlength]
    · rw [hadmits, HashMap.get_insert, hget]
      by_cases heq : key = BitVec.ofNat 256 n
      · rw [if_pos heq, heq, hkey, if_pos (Nat.lt_succ_self n)]
      · have hne : key.toNat ≠ n := by
          intro hsame
          exact heq (BitVec.eq_of_toNat_eq (hsame.trans hkey.symm))
        rw [if_neg heq]
        by_cases hlt : key.toNat < n
        · rw [if_pos hlt, if_pos (by omega)]
        · rw [if_neg hlt, if_neg (by omega)]

/-- An attempt for one more key takes the first key's entry out of a full map. -/
theorem bound_and_order_full : ∃ (t t' : LoginThrottle) (key : Key),
    t.entries.pairs.length = maxTracked ∧ t.admitKey key maxTracked = (.admitted, t') ∧
      (∃ entry, t'.entries.get key = some entry ∧ 1 ≤ entry.attempts) ∧
      t.entries.get 0 = some ⟨1, 0⟩ ∧ t'.entries.get 0 = none ∧
      ∀ kept entry', kept ≠ key → t'.entries.get kept = some entry' →
        (⟨1, 0⟩ : Entry).rank ≤ entry'.rank := by
  obtain ⟨t, hreach, hlength, hget⟩ := exists_filled le_rfl
  obtain ⟨-, hall⟩ := bound_and_order hreach
  have hfirst : t.entries.get 0 = some ⟨1, 0⟩ := by
    rw [hget]
    rfl
  have hkey : (BitVec.ofNat 256 maxTracked).toNat = maxTracked := by decide
  have hnew : t.entries.get (BitVec.ofNat 256 maxTracked) = none := by
    rw [hget, hkey, if_neg (lt_irrefl _)]
  have hne : (0 : Key) ≠ BitVec.ofNat 256 maxTracked := by decide
  have hadmits : t.admitKey (BitVec.ofNat 256 maxTracked) maxTracked = _ :=
    admitKey_of_expired (by simp [hnew])
  -- The eviction takes some key, which does not rank below the first.
  have hgone : (t.track (BitVec.ofNat 256 maxTracked) maxTracked).entries.get 0 = none := by
    rw [track, if_pos hlength.ge, HashMap.get_insert_ne _ hne, get_evict]
    refine if_pos ?_
    by_contra hkept
    have hpos : 0 < (evicted t.entries).length := by
      rw [length_evicted, batch, hlength]
      decide
    obtain ⟨key, hmem⟩ := List.exists_mem_of_length_pos hpos
    have hstored := get_of_mem_evicted hmem
    rw [hget] at hstored
    have hlt : key.toNat < maxTracked := by
      by_contra hnot
      exact hstored (if_neg hnot)
    have hrank := rank_le_of_evicted hmem ((hget key).trans (if_pos hlt)) hkept hfirst
    rw [Entry.rank, Entry.rank, Prod.Lex.toLex_le_toLex] at hrank
    have hzero : key.toNat = (0 : Key).toNat := by simpa [freeAttempts] using hrank
    rw [BitVec.eq_of_toNat_eq hzero] at hmem
    exact hkept hmem
  obtain ⟨htracked, -, hranks⟩ := hall _ _ _ hadmits
  exact ⟨t, _, _, hlength, hadmits, htracked, hfirst, hgone, fun kept entry' hkept hget' =>
    (hranks 0 _ kept entry' hne hkept hfirst hgone hget').1⟩

end LoginThrottle

end Login

end WeaveAuth
