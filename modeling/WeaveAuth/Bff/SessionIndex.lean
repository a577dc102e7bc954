import WeaveAuth.Bff.SessionStorage

/-!
# The user index of the session store

`Sessions` keeps a list of session ids for each user next to the sessions themselves, so that a
revocation by user does not scan every session. `Indexed` says that the lists are exactly that,
and every operation keeps it. From it, `revoke` over a user's list drops what a scan of every
session would.

`Reachable` is every store the five operations build from the empty one. A hash map may change
the order of its iteration between any two of them, which is the constructor `rehash`.

## Main results

* `Reachable.indexed`: the index is exact in every reachable store
* `revoke_exact`: a revocation drops what its selector matches, each once, and nothing else

## Implementation notes

A hash map's iteration order is no part of a store's meaning, and may change at any time; `rehash`
puts that into the reachable stores, so that a theorem about them is one about every order. The
lists are as long as the sessions of their user: an id is pushed once, and leaves with its session.

A revocation that names no user scans the sessions, and one that does reads the user's list;
`Indexed.selected_perm_scan` says that it makes no difference.
-/

namespace WeaveAuth

namespace Bff

namespace Sessions

/-- `by_user` is the index of `by_id`. -/
structure Indexed (s : Sessions) : Prop where
  /-- A user's list holds the ids of the user's sessions. -/
  mem_iff : ∀ id userId,
    id ∈ s.idsOf userId ↔ ∃ data, s.getSession id = some data ∧ data.userId = userId
  /-- Each id stands in it once. -/
  nodup : ∀ userId, (s.idsOf userId).Nodup
  /-- A user without sessions has no list. -/
  nonempty : ∀ userId, s.byUser.get userId ≠ some []

theorem indexed_empty : Indexed empty where
  mem_iff id userId := by simp [idsOf, getSession, empty]
  nodup userId := by simp [idsOf, empty]
  nonempty userId := by simp [empty]

/-! ### Taking an id out of a list -/

theorem idsOf_unindex (s : Sessions) (sessionId : String) (userId u : Uuid) :
    (s.unindex sessionId userId).idsOf u
      = if u = userId then (s.idsOf u).filter (· ≠ sessionId) else s.idsOf u := by
  unfold unindex
  by_cases hu : u = userId
  · subst hu
    rw [if_pos rfl]
    split
    · next h => simp [idsOf, h]
    · next ids h =>
      dsimp only
      split
      · next hempty => simpa [idsOf, h] using List.isEmpty_iff.mp hempty
      · simp [idsOf, h]
  · rw [if_neg hu]
    split
    · rfl
    · dsimp only
      split <;> simp [idsOf, hu]

theorem nonempty_unindex {s : Sessions} (h : ∀ u, s.byUser.get u ≠ some []) (sessionId : String)
    (userId u : Uuid) : (s.unindex sessionId userId).byUser.get u ≠ some [] := by
  unfold unindex
  split
  · exact h u
  · dsimp only
    split
    · rw [HashMap.get_remove]
      split
      · simp
      · exact h u
    · next hne =>
      rw [HashMap.get_insert]
      split
      · simpa using hne
      · exact h u

/-- An id that is in no list, or in that of `userId` alone, is in none after `unindex`. -/
theorem idsOf_unindex_of_only {s : Sessions} {sessionId : String} {userId : Uuid}
    (honly : ∀ u, u ≠ userId → sessionId ∉ s.idsOf u) (u : Uuid) :
    (s.unindex sessionId userId).idsOf u = (s.idsOf u).filter (· ≠ sessionId) := by
  rw [idsOf_unindex]
  split
  · rfl
  · next hu =>
    refine (List.filter_eq_self.mpr fun id hid => ?_).symm
    have hne : id ≠ sessionId := by rintro rfl; exact honly u hu hid
    simpa using hne

section Indexed

variable {s : Sessions}

/-- The list an id is in is that of its session's user. -/
theorem Indexed.not_mem_of_ne (h : s.Indexed) {id : String} {data : SessionData}
    (hget : s.getSession id = some data) {u : Uuid} (hu : u ≠ data.userId) : id ∉ s.idsOf u := by
  intro hmem
  obtain ⟨data', hget', hu'⟩ := (h.mem_iff id u).mp hmem
  rw [hget, Option.some.injEq] at hget'
  exact hu (by rw [← hu', hget'])

theorem Indexed.not_mem_of_none (h : s.Indexed) {id : String} (hget : s.getSession id = none)
    (u : Uuid) : id ∉ s.idsOf u := by
  intro hmem
  obtain ⟨data, hget', -⟩ := (h.mem_iff id u).mp hmem
  rw [hget] at hget'
  cases hget'

theorem Indexed.idsOf_replace (h : s.Indexed) (sessionId : String) (data : SessionData)
    (u : Uuid) : (s.replace sessionId data).idsOf u = (s.idsOf u).filter (· ≠ sessionId) := by
  unfold replace
  dsimp only
  split
  · next replaced hget =>
    exact idsOf_unindex_of_only (s := { s with byId := s.byId.insert sessionId data })
      (fun u hu => h.not_mem_of_ne hget hu) u
  · next hget =>
    refine (List.filter_eq_self.mpr fun id hid => ?_).symm
    have hne : id ≠ sessionId := by rintro rfl; exact h.not_mem_of_none hget u hid
    simpa using hne

theorem Indexed.idsOf_remove (h : s.Indexed) (sessionId : String) (u : Uuid) :
    (s.remove sessionId).2.idsOf u = (s.idsOf u).filter (· ≠ sessionId) := by
  unfold remove
  split
  · next hget =>
    refine (List.filter_eq_self.mpr fun id hid => ?_).symm
    have hne : id ≠ sessionId := by rintro rfl; exact h.not_mem_of_none hget u hid
    simpa using hne
  · next data hget =>
    exact idsOf_unindex_of_only (s := { s with byId := s.byId.remove sessionId })
      (fun u hu => h.not_mem_of_ne hget hu) u

theorem Indexed.idsOf_insert (h : s.Indexed) (sessionId : String) (data : SessionData)
    (u : Uuid) : (s.insert sessionId data).idsOf u
      = (s.idsOf u).filter (· ≠ sessionId) ++ if u = data.userId then [sessionId] else [] := by
  have hinsert : (s.insert sessionId data).idsOf u
      = (s.replace sessionId data).idsOf u ++ if u = data.userId then [sessionId] else [] := by
    simp only [insert, idsOf, HashMap.get_insert]
    split
    · next hu => simp [hu]
    · simp
  rw [hinsert, h.idsOf_replace]

/-! ### Every operation keeps the index exact -/

theorem Indexed.remove (h : s.Indexed) (sessionId : String) : (s.remove sessionId).2.Indexed where
  mem_iff id u := by
    rw [h.idsOf_remove, List.mem_filter, h.mem_iff, get_remove]
    by_cases hid : id = sessionId <;> simp [hid]
  nodup u := by
    rw [h.idsOf_remove]
    exact (h.nodup u).filter _
  nonempty u := by
    unfold Sessions.remove
    split
    · exact h.nonempty u
    · exact nonempty_unindex (s := { s with byId := s.byId.remove sessionId }) h.nonempty _ _ u

theorem Indexed.insert (h : s.Indexed) (sessionId : String) (data : SessionData) :
    (s.insert sessionId data).Indexed where
  mem_iff id u := by
    rw [h.idsOf_insert, List.mem_append, List.mem_filter, h.mem_iff, get_insert]
    by_cases hid : id = sessionId
    · by_cases hu : u = data.userId <;> simp [hid, hu, eq_comm]
    · by_cases hu : u = data.userId <;> simp [hid, hu]
  nodup u := by
    rw [h.idsOf_insert]
    refine List.Nodup.append ((h.nodup u).filter _) (by split <;> simp) ?_
    intro id hid hmem
    have hne : id ≠ sessionId := by simpa using (List.mem_filter.mp hid).2
    split at hmem
    · exact hne (List.mem_singleton.mp hmem)
    · cases hmem
  nonempty u := by
    simp only [Sessions.insert, HashMap.get_insert]
    split
    · simp
    · unfold replace
      dsimp only
      split
      · exact nonempty_unindex (s := { s with byId := s.byId.insert sessionId data }) h.nonempty
          _ _ u
      · exact h.nonempty u

theorem Indexed.removeAll (ids : List String) :
    ∀ {s : Sessions}, s.Indexed → (s.removeAll ids).2.Indexed := by
  induction ids with
  | nil => intro s h; exact h
  | cons sessionId ids ih => intro s h; exact ih (h.remove sessionId)

theorem Indexed.saveSession (h : s.Indexed) (sessionId : String) (data : SessionData) :
    (s.saveSession sessionId data).2.Indexed :=
  (h.insert sessionId data).removeAll _

theorem Indexed.updateSession (h : s.Indexed) {sessionId : String} {data : SessionData}
    {s' : Sessions} (hs' : s.updateSession sessionId data = some s') : s'.Indexed := by
  unfold Sessions.updateSession at hs'
  split at hs'
  · cases hs'
  · cases hs'
    exact (h.remove sessionId).insert sessionId data

theorem Indexed.revoke (h : s.Indexed) (selector : SessionSelector) :
    (s.revoke selector).2.Indexed := h.removeAll _

theorem Indexed.sweepExpired (h : s.Indexed) (now : DateTime) : (s.sweepExpired now).Indexed :=
  h.removeAll _

/-! ### What a revocation selects -/

theorem Indexed.mem_selected (h : s.Indexed) (selector : SessionSelector) (id : String) :
    id ∈ s.selected selector
      ↔ ∃ data, s.getSession id = some data ∧ selector.matches data = true := by
  have hown : ∀ userId, selector.userId? = some userId →
      (id ∈ (s.idsOf userId).filter (fun id => (s.byId.get id).any selector.matches)
        ↔ ∃ data, s.getSession id = some data ∧ selector.matches data = true) := by
    intro userId huser
    rw [List.mem_filter, h.mem_iff]
    constructor
    · rintro ⟨⟨data, hget, -⟩, hany⟩
      rw [show s.byId.get id = some data from hget] at hany
      exact ⟨data, hget, hany⟩
    · rintro ⟨data, hget, hmatch⟩
      refine ⟨⟨data, hget, SessionSelector.userId_of_matches huser hmatch⟩, ?_⟩
      rw [show s.byId.get id = some data from hget]
      exact hmatch
  cases selector with
  | user userId => exact hown userId rfl
  | userSession userId sid => exact hown userId rfl
  | session sid => exact HashMap.mem_map_fst_filter

theorem Indexed.nodup_selected (h : s.Indexed) (selector : SessionSelector) :
    (s.selected selector).Nodup := by
  cases selector with
  | user userId => exact (h.nodup userId).filter _
  | userSession userId sid => exact (h.nodup userId).filter _
  | session sid => exact s.byId.nodup_map_fst_filter _

/-- What a scan of every session by the selector would find. -/
def scan (s : Sessions) (selector : SessionSelector) : List (String × SessionData) :=
  s.byId.pairs.filter fun e => selector.matches e.2

/-- The list `revoke` goes through names what the scan finds. -/
theorem Indexed.selected_perm_scan (h : s.Indexed) (selector : SessionSelector) :
    (s.selected selector).Perm ((s.scan selector).map Prod.fst) := by
  refine (List.perm_ext_iff_of_nodup (h.nodup_selected selector)
    (s.byId.nodup_map_fst_filter _)).mpr fun id => ?_
  rw [h.mem_selected]
  exact (HashMap.mem_map_fst_filter (p := fun e => selector.matches e.2)).symm

theorem Indexed.get_revoke (h : s.Indexed) (selector : SessionSelector) (id : String) :
    (s.revoke selector).2.getSession id
      = (s.getSession id).filter fun data => !selector.matches data := by
  rw [Sessions.revoke, get_removeAll]
  cases hget : s.getSession id with
  | none => simp
  | some data =>
    have hmem : id ∈ s.selected selector ↔ selector.matches data = true := by
      rw [h.mem_selected, hget]
      simp
    by_cases hmatch : selector.matches data = true
    · simp [hmem, hmatch, Option.filter]
    · simp [hmem, hmatch, Option.filter]

/-- What a revocation hands back is the data of the sessions the scan finds. -/
theorem Indexed.revoke_dropped (h : s.Indexed) (selector : SessionSelector) :
    (s.revoke selector).1.Perm ((s.scan selector).map Prod.snd) := by
  have hvalues : ((s.scan selector).map Prod.fst).filterMap s.getSession
      = (s.scan selector).map Prod.snd := s.byId.filterMap_get_keys _
  rw [Sessions.revoke, removeAll_dropped (h.nodup_selected selector), ← hvalues]
  exact (h.selected_perm_scan selector).filterMap s.getSession

end Indexed

/-! ### Every run of the store -/

/-- The operations that change the store, with what their caller passes and the clock reads. -/
inductive Call where
  | saveSession (sessionId : String) (data : SessionData)
  | updateSession (sessionId : String) (data : SessionData)
  | takeSession (sessionId : String)
  | revoke (selector : SessionSelector)
  | sweepExpired (now : DateTime)

/-- The store a call leaves behind. An update of a session that is gone changes nothing. -/
def after (s : Sessions) : Call → Sessions
  | .saveSession sessionId data => (s.saveSession sessionId data).2
  | .updateSession sessionId data => (s.updateSession sessionId data).getD s
  | .takeSession sessionId => (s.takeSession sessionId).2
  | .revoke selector => (s.revoke selector).2
  | .sweepExpired now => s.sweepExpired now

/-- The stores that some sequence of calls leads to. -/
inductive Reachable : Sessions → Prop where
  | empty : Reachable empty
  | call {s : Sessions} (c : Call) : Reachable s → Reachable (s.after c)
  /-- The hash maps iterate in another order from now on. -/
  | rehash {s s' : Sessions} : Reachable s → s.byId.Rehash s'.byId → s.byUser.Rehash s'.byUser →
      Reachable s'

theorem Indexed.after {s : Sessions} (h : s.Indexed) (c : Call) : (s.after c).Indexed := by
  cases c with
  | saveSession sessionId data => exact h.saveSession sessionId data
  | updateSession sessionId data =>
    rw [Sessions.after]
    cases hupdate : s.updateSession sessionId data with
    | none => exact h
    | some s' => exact h.updateSession hupdate
  | takeSession sessionId => exact h.remove sessionId
  | revoke selector => exact h.revoke selector
  | sweepExpired now => exact h.sweepExpired now

theorem Indexed.rehash {s s' : Sessions} (h : s.Indexed) (hid : s.byId.Rehash s'.byId)
    (huser : s.byUser.Rehash s'.byUser) : s'.Indexed := by
  have hget : ∀ id, s'.getSession id = s.getSession id := HashMap.get_eq_of_rehash hid
  have hlist : ∀ u, s'.byUser.get u = s.byUser.get u := HashMap.get_eq_of_rehash huser
  have hids : ∀ u, s'.idsOf u = s.idsOf u := fun u => by rw [idsOf, idsOf, hlist]
  exact ⟨fun id u => by rw [hids, hget]; exact h.mem_iff id u,
    fun u => by rw [hids]; exact h.nodup u, fun u => by rw [hlist]; exact h.nonempty u⟩

theorem Reachable.indexed {s : Sessions} (h : Reachable s) : s.Indexed := by
  induction h with
  | empty => exact indexed_empty
  | call c _ ih => exact ih.after c
  | rehash _ hid huser ih => exact ih.rehash hid huser

/-- **The user index is exact.** An id is listed under a user exactly when its session is that
user's, then once, and no user has an empty list. -/
theorem userIndex_exact {s : Sessions} (h : Reachable s) :
    (∀ id userId, id ∈ s.idsOf userId
      ↔ ∃ data, s.getSession id = some data ∧ data.userId = userId) ∧
    (∀ id userId, id ∈ s.idsOf userId → (s.idsOf userId).count id = 1) ∧
    ∀ userId ids, s.byUser.get userId = some ids → ids ≠ [] := by
  have hindexed := h.indexed
  refine ⟨hindexed.mem_iff, fun id userId hmem => ?_, fun userId ids hget hnil => ?_⟩
  · exact List.count_eq_one_of_mem (hindexed.nodup userId) hmem
  · exact hindexed.nonempty userId (by rw [hget, hnil])

/-- A login session for the tests below. -/
def sample (userId : Uuid) (sid : Option String) : SessionData :=
  ⟨"access", "refresh", "id", 3600, 0, 86400, userId, sid⟩

/-- An id saved again for another user moves to that user's list. -/
theorem userIndex_exact_moved :
    (((empty.after (.saveSession "s" (sample 1 none))).after
      (.saveSession "s" (sample 2 none))).idsOf 2).count "s" = 1 :=
  (userIndex_exact (.call _ (.call _ .empty))).2.1 "s" 2 (by decide)

/-- **A revocation is a scan.** In a reachable store `revoke` drops the sessions its selector
matches and leaves every other as it was; it hands back the data of those it dropped, each once;
and the list of ids it goes through, the user's own for a selector that names a user, is the
list a scan of every session finds. -/
theorem revoke_exact {s : Sessions} (h : Reachable s) (selector : SessionSelector) :
    (∀ id, (s.revoke selector).2.getSession id
      = (s.getSession id).filter fun data => !selector.matches data) ∧
    (s.revoke selector).1.Perm ((s.scan selector).map Prod.snd) ∧
    (s.selected selector).Perm ((s.scan selector).map Prod.fst) :=
  ⟨h.indexed.get_revoke selector, h.indexed.revoke_dropped selector,
    h.indexed.selected_perm_scan selector⟩

/-- By user and `sid`, a session with no `sid` goes too; the other user's stays. -/
theorem revoke_exact_userSession :
    let s := ((empty.after (.saveSession "a" (sample 1 none))).after
      (.saveSession "b" (sample 2 (some "sid"))))
    (s.revoke (.userSession 1 "sid")).2.getSession "a" = none ∧
      (s.revoke (.userSession 1 "sid")).2.getSession "b" = some (sample 2 (some "sid")) :=
  ⟨((revoke_exact (.call _ (.call _ .empty)) _).1 "a").trans (by decide),
    ((revoke_exact (.call _ (.call _ .empty)) _).1 "b").trans (by decide)⟩

end Sessions

end Bff

end WeaveAuth
