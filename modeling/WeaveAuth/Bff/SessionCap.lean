import WeaveAuth.Bff.SessionIndex

/-!
# What the cap takes

A login beyond the cap ends the oldest sessions of its user, by when they were created. The new
session is one of those looked at: where the clock was set back since the others were saved, it is
not the latest of them.

## Main results

* `insertionSort_concat`: where a stable sort puts the last element
* `Indexed.capTakes`: the sessions that a login under a new id ends

## Scope

A store, one login and no clock but the one that is read for its `created_at`. Which of several
sessions of one time goes is decided by the sort, which is stable, over the user's list; so the
order in which the ids were pushed matters, and `capTakes` says how.
-/

namespace WeaveAuth

namespace Bff

/-! ### Sorting -/

section Sorting

variable {α : Type*} {r : α → α → Prop} [DecidableRel r]

/-- An element goes before those it may come before, so it does not come after `x` unless it has
to. -/
theorem orderedInsert_append_cons (a x : α) (before after : List α) : ∃ before' after',
    (before ++ x :: after).orderedInsert r a = before' ++ x :: after' ∧
      ∀ b ∈ after', b ∈ after ∨ b = a ∧ ¬r a x := by
  induction before with
  | nil =>
    by_cases hax : r a x
    · exact ⟨[a], after, by simp [List.orderedInsert_cons, hax], fun b hb => Or.inl hb⟩
    · refine ⟨[], after.orderedInsert r a, by simp [List.orderedInsert_cons, hax], fun b hb => ?_⟩
      rcases (List.mem_orderedInsert r).mp hb with rfl | hb
      · exact Or.inr ⟨rfl, hax⟩
      · exact Or.inl hb
  | cons y before ih =>
    by_cases hay : r a y
    · exact ⟨a :: y :: before, after, by simp [List.orderedInsert_cons, hay],
        fun b hb => Or.inl hb⟩
    · obtain ⟨before', after', heq, hafter⟩ := ih
      exact ⟨y :: before', after', by simp [List.orderedInsert_cons, hay, heq], hafter⟩

/-- **The last element of a list comes before those alone, in the sorted list, that may not come
before it.** -/
theorem insertionSort_concat (l : List α) (x : α) : ∃ before after,
    (l ++ [x]).insertionSort r = before ++ x :: after ∧ ∀ b ∈ after, ¬r b x := by
  induction l with
  | nil => exact ⟨[], [], rfl, by simp⟩
  | cons a l ih =>
    obtain ⟨before, after, heq, hafter⟩ := ih
    obtain ⟨before', after', heq', hafter'⟩ := orderedInsert_append_cons (r := r) a x before after
    refine ⟨before', after', ?_, fun b hb => ?_⟩
    · rw [List.cons_append, List.insertionSort_cons, heq, heq']
    · rcases hafter' b hb with hold | ⟨rfl, hax⟩
      · exact hafter b hold
      · exact hax

end Sorting

namespace Sessions

variable {s : Sessions}

/-! ### A user's sessions -/

/-- The user's ids with the times of their logins, as `save_session` collects them. -/
def logins (s : Sessions) (userId : Uuid) : List (String × DateTime) :=
  (s.idsOf userId).filterMap fun id => (s.byId.get id).map fun data => (id, data.createdAt)

theorem oldestFirst_eq (s : Sessions) (userId : Uuid) :
    s.oldestFirst userId = (s.logins userId).insertionSort fun a b => a.2 ≤ b.2 := rfl

/-- The user's sessions that were created after `now`. -/
def later (s : Sessions) (userId : Uuid) (now : DateTime) : List (String × SessionData) :=
  (s.scan (.user userId)).filter fun e => now < e.2.createdAt

theorem Indexed.logins_perm (h : s.Indexed) (userId : Uuid) : (s.logins userId).Perm
    ((s.scan (.user userId)).map fun e => (e.1, e.2.createdAt)) := by
  have hids : (s.idsOf userId).Perm ((s.scan (.user userId)).map Prod.fst) := by
    have hselected : s.selected (.user userId) = s.idsOf userId := by
      refine List.filter_eq_self.mpr fun id hid => ?_
      obtain ⟨data, hget, huser⟩ := (h.mem_iff id userId).mp hid
      rw [show s.byId.get id = some data from hget]
      simpa [SessionSelector.matches] using huser
    rw [← hselected]
    exact h.selected_perm_scan (.user userId)
  have hscan : ((s.scan (.user userId)).map Prod.fst).filterMap
      (fun id => (s.byId.get id).map fun data => (id, data.createdAt)) =
      (s.scan (.user userId)).map fun e => (e.1, e.2.createdAt) := by
    rw [List.filterMap_map, ← List.filterMap_eq_map]
    refine List.filterMap_congr fun e he => ?_
    have hget : s.byId.get e.1 = some e.2 := HashMap.mem_pairs.mp (List.mem_of_mem_filter he)
    simp [hget]
  rw [← hscan]
  exact hids.filterMap _

theorem Indexed.mem_logins (h : s.Indexed) {userId : Uuid} {id : String} {now : DateTime} :
    (id, now) ∈ s.logins userId ↔
      ∃ data, s.getSession id = some data ∧ data.userId = userId ∧ data.createdAt = now := by
  rw [logins, List.mem_filterMap]
  constructor
  · rintro ⟨id', hid', hlogin⟩
    obtain ⟨data, hget, heq⟩ := Option.map_eq_some_iff.mp hlogin
    obtain ⟨rfl, rfl⟩ := Prod.mk.inj heq
    obtain ⟨data', hget', huser⟩ := (h.mem_iff id' userId).mp hid'
    obtain rfl := Option.some.inj (hget'.symm.trans hget)
    exact ⟨data', hget', huser, rfl⟩
  · rintro ⟨data, hget, huser, rfl⟩
    exact ⟨id, (h.mem_iff id userId).mpr ⟨data, hget, huser⟩,
      Option.map_eq_some_iff.mpr ⟨data, hget, rfl⟩⟩

theorem Indexed.map_fst_logins (h : s.Indexed) (userId : Uuid) :
    (s.logins userId).map Prod.fst = s.idsOf userId := by
  rw [logins, List.map_filterMap]
  calc (s.idsOf userId).filterMap _ = (s.idsOf userId).filterMap some := by
        refine List.filterMap_congr fun id hid => ?_
        obtain ⟨data, hget, -⟩ := (h.mem_iff id userId).mp hid
        rw [show s.byId.get id = some data from hget]
        rfl
    _ = s.idsOf userId := List.filterMap_some

/-- A new session is the last of its user's. -/
theorem Indexed.logins_insert (h : s.Indexed) {sessionId : String} (data : SessionData)
    (hnew : s.getSession sessionId = none) :
    (s.insert sessionId data).logins data.userId =
      s.logins data.userId ++ [(sessionId, data.createdAt)] := by
  have hnotMem := h.not_mem_of_none hnew data.userId
  have hfilter : (s.idsOf data.userId).filter (· ≠ sessionId) = s.idsOf data.userId := by
    refine List.filter_eq_self.mpr fun id hid => ?_
    have hne : id ≠ sessionId := by
      rintro rfl
      exact hnotMem hid
    simpa using hne
  rw [logins, h.idsOf_insert, if_pos rfl, hfilter, List.filterMap_append, byId_insert]
  congr 1
  · refine List.filterMap_congr fun id hid => ?_
    have hne : id ≠ sessionId := by
      rintro rfl
      exact hnotMem hid
    rw [HashMap.get_insert_ne _ hne]
  · simp

/-! ### The sessions the cap takes -/

/-- The sessions that a login under a new id ends: of its user's, the new one among them, as many
as are too many, the oldest. -/
structure CapTakes (s : Sessions) (sessionId : String) (data : SessionData)
    (evicted : List String) : Prop where
  nodup : evicted.Nodup
  /-- They are the user's. -/
  own : ∀ id ∈ evicted, ∃ data', (s.insert sessionId data).getSession id = some data' ∧
    data'.userId = data.userId
  length : evicted.length = (s.scan (.user data.userId)).length + 1 - maxSessionsPerUser
  /-- None that stays is older. -/
  oldest : ∀ id ∈ evicted, ∀ id' ∉ evicted, ∀ data₁ data₂,
    (s.insert sessionId data).getSession id = some data₁ →
    (s.insert sessionId data).getSession id' = some data₂ → data₂.userId = data.userId →
    data₁.createdAt ≤ data₂.createdAt
  /-- The new session is among them if it is older than as many as may stay. -/
  new : sessionId ∈ evicted ↔
    maxSessionsPerUser ≤ (s.later data.userId data.createdAt).length

theorem excess_eq (s : Sessions) (userId : Uuid) : s.excess userId =
    ((s.oldestFirst userId).take ((s.logins userId).length - maxSessionsPerUser)).map Prod.fst := by
  rw [excess, oldestFirst_eq, List.length_insertionSort]

theorem Indexed.mem_oldestFirst (h : s.Indexed) {userId : Uuid} {id : String} {now : DateTime} :
    (id, now) ∈ s.oldestFirst userId ↔
      ∃ data, s.getSession id = some data ∧ data.userId = userId ∧ data.createdAt = now := by
  rw [oldestFirst_eq, List.mem_insertionSort, h.mem_logins]

theorem Indexed.nodup_oldestFirst (h : s.Indexed) (userId : Uuid) :
    ((s.oldestFirst userId).map Prod.fst).Nodup := by
  have hperm := (List.perm_insertionSort (fun a b => a.2 ≤ b.2) (s.logins userId)).map Prod.fst
  rw [oldestFirst_eq, hperm.nodup_iff, h.map_fst_logins]
  exact h.nodup userId

theorem pairwise_oldestFirst (s : Sessions) (userId : Uuid) :
    (s.oldestFirst userId).Pairwise fun a b => a.2 ≤ b.2 := by
  have htotal : Std.Total fun a b : String × DateTime => a.2 ≤ b.2 := ⟨fun a b => le_total a.2 b.2⟩
  have htrans : IsTrans (String × DateTime) fun a b => a.2 ≤ b.2 := ⟨fun _ _ _ => le_trans⟩
  exact List.pairwise_insertionSort _ _

/-- A new session stands in that order before those created after it, and no others. -/
theorem Indexed.oldestFirst_insert (h : s.Indexed) {sessionId : String} (data : SessionData)
    (hnew : s.getSession sessionId = none) : ∃ before after,
    (s.insert sessionId data).oldestFirst data.userId =
      before ++ (sessionId, data.createdAt) :: after ∧
    after.length = (s.later data.userId data.createdAt).length := by
  obtain ⟨before, after, heq, hafter⟩ := insertionSort_concat
    (r := fun a b : String × DateTime => a.2 ≤ b.2) (s.logins data.userId)
    (sessionId, data.createdAt)
  rw [← h.logins_insert data hnew, ← oldestFirst_eq] at heq
  refine ⟨before, after, heq, ?_⟩
  have hsorted := (s.insert sessionId data).pairwise_oldestFirst data.userId
  rw [heq, List.pairwise_append] at hsorted
  obtain ⟨-, -, hbefore⟩ := hsorted
  let isLater : String × DateTime → Bool := fun e => data.createdAt < e.2
  have hfilter : ((s.insert sessionId data).oldestFirst data.userId).filter isLater = after := by
    have hnone : before.filter isLater = [] := by
      refine List.filter_eq_nil_iff.mpr fun e he => ?_
      simpa [isLater] using hbefore e he _ List.mem_cons_self
    have hall : after.filter isLater = after := by
      refine List.filter_eq_self.mpr fun e he => ?_
      simpa [isLater] using hafter e he
    rw [heq, List.filter_append, hnone, List.filter_cons_of_neg (by simp [isLater]), hall,
      List.nil_append]
  have hperm : (((s.insert sessionId data).oldestFirst data.userId).filter isLater).Perm
      ((s.logins data.userId).filter isLater) := by
    have hlogins : (s.logins data.userId).filter isLater =
        ((s.insert sessionId data).logins data.userId).filter isLater := by
      rw [h.logins_insert data hnew, List.filter_append,
        List.filter_cons_of_neg (by simp [isLater]), List.filter_nil, List.append_nil]
    rw [hlogins, oldestFirst_eq]
    exact (List.perm_insertionSort _ _).filter isLater
  have hscan := ((h.logins_perm data.userId).filter isLater).length_eq
  rw [List.filter_map, List.length_map] at hscan
  rw [← hfilter, hperm.length_eq, hscan]
  rfl

theorem Indexed.capTakes (h : s.Indexed) {sessionId : String} (data : SessionData)
    (hnew : s.getSession sessionId = none) :
    CapTakes s sessionId data ((s.insert sessionId data).excess data.userId) := by
  have h' := h.insert sessionId data
  obtain ⟨before, after, horder, hlater⟩ := h.oldestFirst_insert data hnew
  have hnodup := h'.nodup_oldestFirst data.userId
  have hlength : ((s.insert sessionId data).logins data.userId).length =
      (s.scan (.user data.userId)).length + 1 := by
    rw [h.logins_insert data hnew, List.length_append, (h.logins_perm data.userId).length_eq,
      List.length_map, List.length_singleton]
  have hall : ((s.insert sessionId data).oldestFirst data.userId).length =
      (s.scan (.user data.userId)).length + 1 := by
    rw [oldestFirst_eq, List.length_insertionSort, hlength]
  rw [excess_eq, hlength]
  refine ⟨?_, ?_, ?_, ?_, ?_⟩
  · exact hnodup.sublist ((List.take_sublist _ _).map Prod.fst)
  · intro id hid
    obtain ⟨⟨id, now⟩, hmem, rfl⟩ := List.mem_map.mp hid
    obtain ⟨data', hget, huser, -⟩ := h'.mem_oldestFirst.mp (List.mem_of_mem_take hmem)
    exact ⟨data', hget, huser⟩
  · rw [List.length_map, List.length_take, hall]
    omega
  · intro id hid id' hid' data₁ data₂ hget₁ hget₂ huser
    obtain ⟨⟨id, now⟩, hmem, rfl⟩ := List.mem_map.mp hid
    obtain ⟨data₁', hget₁', -, rfl⟩ := h'.mem_oldestFirst.mp (List.mem_of_mem_take hmem)
    obtain rfl := Option.some.inj (hget₁'.symm.trans hget₁)
    have hmem' := h'.mem_oldestFirst.mpr ⟨data₂, hget₂, huser, rfl⟩
    -- What is not taken comes after what is.
    have hsorted := (s.insert sessionId data).pairwise_oldestFirst data.userId
    rw [← List.take_append_drop ((s.scan (.user data.userId)).length + 1 - maxSessionsPerUser)
      ((s.insert sessionId data).oldestFirst data.userId)] at hmem' hsorted
    rcases List.mem_append.mp hmem' with htaken | hdropped
    · exact absurd (List.mem_map_of_mem htaken) hid'
    · exact (List.pairwise_append.mp hsorted).2.2 _ hmem _ hdropped
  · rw [← hlater]
    rw [horder, List.length_append, List.length_cons] at hall
    rw [horder, List.map_append, List.map_cons] at hnodup
    have hbefore : sessionId ∉ before.map Prod.fst := fun hmem =>
      (List.nodup_append.mp hnodup).2.2 _ hmem _ List.mem_cons_self rfl
    rw [horder, ← hall]
    by_cases hold : maxSessionsPerUser ≤ after.length
    · refine iff_of_true (List.mem_map.mpr ⟨(sessionId, data.createdAt), ?_, rfl⟩) hold
      rw [List.take_append, List.mem_append]
      obtain ⟨k, hk⟩ : ∃ k, before.length + (after.length + 1) - maxSessionsPerUser - before.length
          = k + 1 := ⟨_, (Nat.succ_pred_eq_of_pos (by omega)).symm⟩
      rw [hk, List.take_succ_cons]
      exact Or.inr List.mem_cons_self
    · refine iff_of_false (fun hmem => hbefore ?_) hold
      rw [List.take_append_of_le_length (by omega)] at hmem
      exact (List.map_subset _ (List.take_subset _ _)) hmem

/-- A login that all of a full house were created after ends itself alone. -/
theorem CapTakes.eq_singleton {sessionId : String} {data : SessionData} {evicted : List String}
    (h : CapTakes s sessionId data evicted)
    (hfull : (s.scan (.user data.userId)).length = maxSessionsPerUser)
    (hlater : ∀ e ∈ s.scan (.user data.userId), data.createdAt < e.2.createdAt) :
    evicted = [sessionId] := by
  have hall : s.later data.userId data.createdAt = s.scan (.user data.userId) :=
    List.filter_eq_self.mpr fun e he => decide_eq_true (hlater e he)
  have hmem : sessionId ∈ evicted := h.new.mpr (by rw [hall, hfull])
  have hone : evicted.length = 1 := by
    rw [h.length, hfull, Nat.add_sub_cancel_left]
  obtain ⟨id, rfl⟩ := List.length_eq_one_iff.mp hone
  rw [List.mem_singleton.mp hmem]

/-- A login within the cap ends nobody. -/
theorem Indexed.get_saveSession_of_lt (h : s.Indexed) {sessionId : String} {data : SessionData}
    (hnew : s.getSession sessionId = none)
    (hroom : (s.scan (.user data.userId)).length < maxSessionsPerUser) (id : String) :
    (s.saveSession sessionId data).2.getSession id =
      if id = sessionId then some data else s.getSession id := by
  have hlength := (h.capTakes data hnew).length
  rw [Nat.sub_eq_zero_of_le hroom] at hlength
  rw [get_saveSession, List.length_eq_zero_iff.mp hlength, if_neg List.not_mem_nil]

end Sessions

end Bff

end WeaveAuth
