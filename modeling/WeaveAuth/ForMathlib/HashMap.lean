import Mathlib.Data.List.AList

/-!
# Hash maps

A hash map is Mathlib's `AList` over a constant family, with the names and the operations a
program uses: `get`, `insert`, `remove`, `retain`. Nothing here is about a particular program.

## Iteration order

`pairs` lists the entries in the order in which an iteration visits them. A hash map promises
nothing about that order, so no statement may depend on it: `Rehash` relates two maps with the
same entries in another order, and `get_eq_of_rehash` says that they are read alike.

## Main results

* `HashMap.get_insert`, `get_remove`, `get_retain`: one lemma for each way to change a map
* `HashMap.mem_pairs`, `nodup_keys`: what an iteration sees
* `HashMap.get_foldl_insert`: of entries inserted one after another the last for a key stays
* `HashMap.filterMap_get_keys`: reading back the keys of a filtered iteration gives its values
* `HashMap.length_insert_le`, `length_remove`: how many entries there are
* `HashMap.rehash_of_get_eq`: maps that are read alike have the same entries
-/

namespace WeaveAuth

/-- A map with one value a key. -/
structure HashMap (κ υ : Type*) where
  /-- The entries, with distinct keys. -/
  entries : AList fun _ : κ => υ

namespace HashMap

variable {κ υ : Type*}

instance : EmptyCollection (HashMap κ υ) := ⟨⟨∅⟩⟩

instance : Inhabited (HashMap κ υ) := ⟨∅⟩

/-- The entries in the order of an iteration. -/
def pairs (m : HashMap κ υ) : List (κ × υ) := m.entries.entries.map fun e => (e.1, e.2)

/-- The same entries in another order of iteration. -/
def Rehash (m m' : HashMap κ υ) : Prop := m.entries.entries.Perm m'.entries.entries

/-- An iteration visits no key twice. -/
theorem nodup_keys (m : HashMap κ υ) : (m.pairs.map Prod.fst).Nodup := by
  have hkeys : m.pairs.map Prod.fst = m.entries.keys := by
    simp [pairs, AList.keys, List.keys, Function.comp_def]
  rw [hkeys]
  exact m.entries.keys_nodup

/-- The keys of a filtered iteration are distinct too. -/
theorem nodup_map_fst_filter (m : HashMap κ υ) (p : κ × υ → Bool) :
    ((m.pairs.filter p).map Prod.fst).Nodup :=
  m.nodup_keys.sublist (List.filter_sublist.map Prod.fst)

/-- `HashMap::retain`. -/
def retain (m : HashMap κ υ) (p : κ → υ → Bool) : HashMap κ υ :=
  ⟨⟨m.entries.entries.filter fun e => p e.1 e.2, m.entries.nodupKeys.sublist List.filter_sublist⟩⟩

theorem length_pairs (m : HashMap κ υ) : m.pairs.length = m.entries.keys.length := by
  simp [pairs, AList.keys, List.keys]

theorem length_retain_le (m : HashMap κ υ) (p : κ → υ → Bool) :
    (m.retain p).pairs.length ≤ m.pairs.length := by
  simp only [pairs, retain, List.length_map]
  exact List.length_filter_le _ _

theorem length_of_rehash {m m' : HashMap κ υ} (h : m.Rehash m') :
    m'.pairs.length = m.pairs.length := by
  simp only [pairs, List.length_map]
  exact h.length_eq.symm

/-- A map whose iteration visits the given entries in their order. -/
def ofPairs (l : List (κ × υ)) (h : (l.map Prod.fst).Nodup) : HashMap κ υ :=
  ⟨⟨l.map fun e => ⟨e.1, e.2⟩, by simpa [List.NodupKeys, List.keys, Function.comp_def] using h⟩⟩

theorem pairs_ofPairs (l : List (κ × υ)) (h : (l.map Prod.fst).Nodup) :
    (ofPairs l h).pairs = l := by
  simp [pairs, ofPairs, Function.comp_def]

variable [DecidableEq κ]

/-- `HashMap::get`. -/
def get (m : HashMap κ υ) (k : κ) : Option υ := m.entries.lookup k

/-- `HashMap::insert`, without the value it hands back. -/
def insert (m : HashMap κ υ) (k : κ) (v : υ) : HashMap κ υ := ⟨m.entries.insert k v⟩

/-- `HashMap::remove`, without the value it hands back. -/
def remove (m : HashMap κ υ) (k : κ) : HashMap κ υ := ⟨m.entries.erase k⟩

/-! ### Reading -/

@[simp] theorem get_empty (k : κ) : (∅ : HashMap κ υ).get k = none := rfl

theorem get_insert (m : HashMap κ υ) (k k' : κ) (v : υ) :
    (m.insert k v).get k' = if k' = k then some v else m.get k' := by
  split
  · next h => subst h; exact AList.lookup_insert m.entries
  · next h => exact AList.lookup_insert_ne h

@[simp] theorem get_insert_self (m : HashMap κ υ) (k : κ) (v : υ) :
    (m.insert k v).get k = some v := AList.lookup_insert m.entries

@[simp] theorem get_insert_ne (m : HashMap κ υ) {k k' : κ} (h : k' ≠ k) (v : υ) :
    (m.insert k v).get k' = m.get k' := AList.lookup_insert_ne h

theorem get_remove (m : HashMap κ υ) (k k' : κ) :
    (m.remove k).get k' = if k' = k then none else m.get k' := by
  split
  · next h => subst h; exact AList.lookup_erase k' m.entries
  · next h => exact AList.lookup_erase_ne h

@[simp] theorem get_remove_self (m : HashMap κ υ) (k : κ) : (m.remove k).get k = none :=
  AList.lookup_erase k m.entries

@[simp] theorem get_remove_ne (m : HashMap κ υ) {k k' : κ} (h : k' ≠ k) :
    (m.remove k).get k' = m.get k' := AList.lookup_erase_ne h

theorem get_eq_of_rehash {m m' : HashMap κ υ} (h : m.Rehash m') (k : κ) : m'.get k = m.get k :=
  (AList.perm_lookup h).symm

/-! ### Iterating -/

theorem mem_pairs {m : HashMap κ υ} {k : κ} {v : υ} : (k, v) ∈ m.pairs ↔ m.get k = some v := by
  rw [get, ← Option.mem_def, AList.mem_lookup_iff, pairs, List.mem_map]
  constructor
  · rintro ⟨⟨k', v'⟩, hmem, heq⟩
    obtain ⟨rfl, rfl⟩ := Prod.mk.inj heq
    exact hmem
  · exact fun hmem => ⟨⟨k, v⟩, hmem, rfl⟩

theorem get_retain (m : HashMap κ υ) (p : κ → υ → Bool) (k : κ) :
    (m.retain p).get k = (m.get k).filter (p k) := by
  ext v
  have hretain : (m.retain p).get k = some v ↔ m.get k = some v ∧ p k v = true := by
    rw [get, ← Option.mem_def, AList.mem_lookup_iff, retain, List.mem_filter,
      ← AList.mem_lookup_iff, Option.mem_def, get]
  rw [hretain, Option.filter_eq_some_iff]

/-- The keys an iteration keeps by a test on the entry. -/
theorem mem_map_fst_filter {m : HashMap κ υ} {p : κ × υ → Bool} {k : κ} :
    k ∈ (m.pairs.filter p).map Prod.fst ↔ ∃ v, m.get k = some v ∧ p (k, v) = true := by
  constructor
  · intro h
    obtain ⟨⟨k', v⟩, hmem, rfl⟩ := List.mem_map.mp h
    obtain ⟨hpair, hp⟩ := List.mem_filter.mp hmem
    exact ⟨v, mem_pairs.mp hpair, hp⟩
  · rintro ⟨v, hget, hp⟩
    exact List.mem_map.mpr ⟨(k, v), List.mem_filter.mpr ⟨mem_pairs.mpr hget, hp⟩, rfl⟩

/-- Looking up the keys of a filtered iteration gives the values it kept, in order. -/
theorem filterMap_get_keys (m : HashMap κ υ) (p : κ × υ → Bool) :
    ((m.pairs.filter p).map Prod.fst).filterMap m.get = (m.pairs.filter p).map Prod.snd := by
  rw [List.filterMap_map, ← List.filterMap_eq_map]
  refine List.filterMap_congr fun e he => ?_
  exact mem_pairs.mp (List.mem_of_mem_filter he)

/-! ### Inserting a list -/

/-- The value that the list gives the key last. -/
def lastOf (l : List (κ × υ)) (k : κ) : Option υ :=
  (l.filterMap fun e => if e.1 = k then some e.2 else none).getLast?

theorem lastOf_cons (e : κ × υ) (l : List (κ × υ)) (k : κ) :
    lastOf (e :: l) k = (lastOf l k).or (if e.1 = k then some e.2 else none) := by
  rw [lastOf, lastOf, List.filterMap_cons]
  split
  · next h => rw [h, Option.or_none]
  · next v h => rw [h, List.getLast?_cons, Option.or_some]

/-- **Entries inserted one after another**: the last one for a key stays. -/
theorem get_foldl_insert (m : HashMap κ υ) (l : List (κ × υ)) (k : κ) :
    (l.foldl (fun m e => m.insert e.1 e.2) m).get k = (lastOf l k).or (m.get k) := by
  induction l generalizing m with
  | nil => rfl
  | cons e l ih =>
    rw [List.foldl_cons, ih, get_insert, lastOf_cons, Option.or_assoc]
    by_cases hk : k = e.1
    · rw [if_pos hk, if_pos hk.symm, Option.some_or]
    · rw [if_neg hk, if_neg (Ne.symm hk), Option.none_or]

/-- With distinct keys there is one to give. -/
theorem lastOf_eq_some {l : List (κ × υ)} (hnodup : (l.map Prod.fst).Nodup) {k : κ} {v : υ} :
    lastOf l k = some v ↔ (k, v) ∈ l := by
  induction l generalizing v with
  | nil => simp [lastOf]
  | cons e l ih =>
    obtain ⟨hnotMem, hrest⟩ := List.nodup_cons.mp hnodup
    rw [lastOf_cons, List.mem_cons, ← ih hrest, Option.or_eq_some_iff,
      Option.ite_none_right_eq_some, Option.some.injEq]
    constructor
    · rintro (hlast | ⟨-, rfl, rfl⟩)
      · exact .inr hlast
      · exact .inl rfl
    · rintro (rfl | hlast)
      · refine .inr ⟨?_, rfl, rfl⟩
        refine Option.eq_none_iff_forall_ne_some.mpr fun v' hlast => hnotMem ?_
        exact List.mem_map.mpr ⟨_, (ih hrest).mp hlast, rfl⟩
      · exact .inl hlast

theorem lastOf_pairs (m : HashMap κ υ) (k : κ) : lastOf m.pairs k = m.get k :=
  Option.ext fun _ => (lastOf_eq_some m.nodup_keys).trans mem_pairs

/-! ### Counting -/

theorem mem_keys {m : HashMap κ υ} {k : κ} : k ∈ m.entries.keys ↔ m.get k ≠ none := by
  rw [← AList.mem_keys, ne_eq, get, AList.lookup_eq_none, not_not]

theorem length_remove (m : HashMap κ υ) (k : κ) : (m.remove k).pairs.length =
    if m.get k = none then m.pairs.length else m.pairs.length - 1 := by
  rw [length_pairs, length_pairs, remove, AList.keys_erase, List.length_erase]
  by_cases hk : m.get k = none
  · rw [if_pos hk, if_neg (by rw [mem_keys]; exact not_not.mpr hk)]
  · rw [if_neg hk, if_pos (mem_keys.mpr hk)]

theorem length_insert (m : HashMap κ υ) (k : κ) (v : υ) :
    (m.insert k v).pairs.length = (m.remove k).pairs.length + 1 := by
  rw [length_pairs, length_pairs, insert, remove, AList.keys_insert, AList.keys_erase,
    List.length_cons]

theorem length_remove_le (m : HashMap κ υ) (k : κ) :
    (m.remove k).pairs.length ≤ m.pairs.length := by
  rw [length_remove]
  split_ifs <;> omega

theorem length_insert_le (m : HashMap κ υ) (k : κ) (v : υ) :
    (m.insert k v).pairs.length ≤ m.pairs.length + 1 := by
  rw [length_insert]
  exact Nat.add_le_add_right (m.length_remove_le k) 1

/-- Another value for a key that is there. -/
theorem length_insert_of_get (m : HashMap κ υ) {k : κ} (h : m.get k ≠ none) (v : υ) :
    (m.insert k v).pairs.length = m.pairs.length := by
  have hpos : 0 < m.pairs.length := by
    rw [length_pairs]
    exact List.length_pos_of_mem (mem_keys.mpr h)
  rw [length_insert, length_remove, if_neg h]
  omega

/-- More keys, more entries. -/
theorem length_le_of_get {υ' : Type*} {m : HashMap κ υ} {m' : HashMap κ υ'}
    (h : ∀ k, m.get k ≠ none → m'.get k ≠ none) : m.pairs.length ≤ m'.pairs.length := by
  rw [length_pairs, length_pairs]
  refine (List.subperm_of_subset m.entries.keys_nodup fun k hk => ?_).length_le
  exact mem_keys.mpr (h k (mem_keys.mp hk))

theorem rehash_of_get_eq {m m' : HashMap κ υ} (h : ∀ k, m.get k = m'.get k) : m.Rehash m' := by
  refine List.lookup_ext m.entries.nodupKeys m'.entries.nodupKeys fun k v => ?_
  exact iff_of_eq (congrArg (v ∈ ·) (h k))

theorem rehash_ofPairs {m : HashMap κ υ} {l : List (κ × υ)} (h : (l.map Prod.fst).Nodup)
    (hperm : l.Perm m.pairs) : m.Rehash (ofPairs l h) := by
  refine rehash_of_get_eq fun k => Option.ext fun v => ?_
  rw [← mem_pairs, ← mem_pairs, pairs_ofPairs, hperm.mem_iff]

end HashMap

end WeaveAuth
