import WeaveAuth.Bff.SessionCap

/-!
# The cap in every run

The runs of the store in which session ids are new and an update keeps a session's user and time, as
refreshes do. No user has more sessions than the cap, and a login hands back what it does not keep,
the oldest first to go.

## Main results

* `Run.within_cap`: no user is over the cap
* `Indexed.splits`: what a login keeps and what it hands back
* `session_cap`: both

## The runs

`Call.Fair` is what bff's services keep to: a login's id is new, and an update writes a session back
with the user and the time that are stored. With it the cap holds of every store that is reached;
without it an update could move a session to another user, whose cap nobody would look at.

## How the proof goes

`Splits` is what one login does, as a permutation: the user's sessions and the new one are those
that stay and those that are handed back, each once. The cap is then a count, and the order of the
two halves comes from the sort in `excess`. Of the other calls, only a removal changes how many
sessions a user has, and an update leaves each where it is.
-/

namespace WeaveAuth

namespace Bff

namespace Sessions

variable {s : Sessions}

/-- A new id for a new session; a session's own user and time in an update. -/
def Call.Fair (s : Sessions) : Call → Prop
  | .saveSession sessionId _ => s.getSession sessionId = none
  | .updateSession sessionId data => ∀ stored, s.getSession sessionId = some stored →
      stored.userId = data.userId ∧ stored.createdAt = data.createdAt
  | _ => True

/-- The stores that some sequence of such calls leads to. -/
inductive Run : Sessions → Prop where
  | empty : Run empty
  | call {s : Sessions} (c : Call) : Run s → c.Fair s → Run (s.after c)
  | rehash {s s' : Sessions} : Run s → s.byId.Rehash s'.byId → s.byUser.Rehash s'.byUser → Run s'

theorem Run.indexed (h : Run s) : s.Indexed := by
  induction h with
  | empty => exact indexed_empty
  | call c _ _ ih => exact ih.after c
  | rehash _ hid huser ih => exact ih.rehash hid huser

/-! ### How many sessions a user has -/

theorem mem_scan_user {userId : Uuid} {id : String} {data : SessionData} :
    (id, data) ∈ s.scan (.user userId) ↔ s.getSession id = some data ∧ data.userId = userId := by
  rw [scan, List.mem_filter, HashMap.mem_pairs]
  simp [getSession, SessionSelector.matches]

theorem nodup_scan (s : Sessions) (selector : SessionSelector) : (s.scan selector).Nodup :=
  (s.byId.nodup_map_fst_filter _).of_map _

theorem Indexed.length_scan (h : s.Indexed) (userId : Uuid) :
    (s.scan (.user userId)).length = (s.idsOf userId).length := by
  rw [← h.map_fst_logins, List.length_map, (h.logins_perm userId).length_eq, List.length_map]

theorem Indexed.length_idsOf_remove_le (h : s.Indexed) (sessionId : String) (userId : Uuid) :
    ((s.remove sessionId).2.idsOf userId).length ≤ (s.idsOf userId).length := by
  rw [h.idsOf_remove]
  exact List.length_filter_le _ _

theorem Indexed.length_idsOf_removeAll_le (userId : Uuid) (ids : List String) :
    ∀ {s : Sessions}, s.Indexed →
      ((s.removeAll ids).2.idsOf userId).length ≤ (s.idsOf userId).length := by
  induction ids with
  | nil =>
    intro s _
    exact le_refl _
  | cons sessionId ids ih =>
    intro s h
    exact (ih (h.remove sessionId)).trans (h.length_idsOf_remove_le sessionId userId)

/-- An update moves an id to the end of its user's list. -/
theorem Indexed.length_idsOf_updateSession (h : s.Indexed) {sessionId : String}
    {data : SessionData} {s' : Sessions} (hs' : s.updateSession sessionId data = some s')
    (hfair : (Call.updateSession sessionId data).Fair s) (userId : Uuid) :
    (s'.idsOf userId).length = (s.idsOf userId).length := by
  rw [Sessions.updateSession] at hs'
  split at hs'
  · cases hs'
  · next stored hstored =>
    cases hs'
    have huser := (hfair stored hstored).1
    have hfilter : ∀ ids : List String, (ids.filter (· ≠ sessionId)).filter (· ≠ sessionId) =
        ids.filter (· ≠ sessionId) := fun ids => by rw [List.filter_filter]; simp
    rw [(h.remove sessionId).idsOf_insert, h.idsOf_remove, hfilter, List.length_append]
    split_ifs with hown
    · have hmem : sessionId ∈ s.idsOf userId :=
        (h.mem_iff sessionId userId).mpr ⟨stored, hstored, huser.trans hown.symm⟩
      have herase := List.length_erase_of_mem hmem
      rw [(h.nodup userId).erase_eq_filter] at herase
      have hpos := List.length_pos_of_mem hmem
      have hsame : (s.idsOf userId).filter (· ≠ sessionId) =
          (s.idsOf userId).filter (· != sessionId) := by
        refine List.filter_congr fun id _ => ?_
        by_cases hid : id = sessionId <;> simp [hid]
      rw [hsame, herase, List.length_singleton]
      omega
    · rw [List.length_nil, Nat.add_zero, List.filter_eq_self.mpr]
      intro id hid
      have hne : id ≠ sessionId := by
        rintro rfl
        exact h.not_mem_of_ne hstored (fun heq => hown (heq.trans huser)) hid
      simpa using hne

/-! ### What a login keeps -/

/-- What `save_session` hands back, with the ids. -/
def evicted (s : Sessions) (sessionId : String) (data : SessionData) :
    List (String × SessionData) :=
  ((s.insert sessionId data).excess data.userId).filterMap fun id =>
    ((s.insert sessionId data).getSession id).map fun data => (id, data)

/-- What a login keeps of its user's sessions and what it hands back. -/
structure Splits (s : Sessions) (sessionId : String) (data : SessionData) : Prop where
  handed : (s.saveSession sessionId data).1 = (s.evicted sessionId data).map Prod.snd
  /-- The user's sessions and the new one are kept or handed back, each once. -/
  all : ((sessionId, data) :: s.scan (.user data.userId)).Perm
    ((s.saveSession sessionId data).2.scan (.user data.userId) ++ s.evicted sessionId data)
  nodup : (((sessionId, data) :: s.scan (.user data.userId)).map Prod.fst).Nodup
  oldest : ∀ out ∈ s.evicted sessionId data,
    ∀ kept ∈ (s.saveSession sessionId data).2.scan (.user data.userId),
      out.2.createdAt ≤ kept.2.createdAt
  others : ∀ userId, userId ≠ data.userId → ∀ id other, other.userId = userId →
    ((s.saveSession sessionId data).2.getSession id = some other ↔ s.getSession id = some other)
  /-- The new session is kept unless an old one is later. -/
  new : (∀ e ∈ s.scan (.user data.userId), e.2.createdAt ≤ data.createdAt) →
    (s.saveSession sessionId data).2.getSession sessionId = some data
  within : ((s.saveSession sessionId data).2.scan (.user data.userId)).length ≤ maxSessionsPerUser

theorem mem_evicted {sessionId id : String} {data other : SessionData} :
    (id, other) ∈ s.evicted sessionId data ↔ id ∈ (s.insert sessionId data).excess data.userId ∧
      (s.insert sessionId data).getSession id = some other := by
  rw [evicted, List.mem_filterMap]
  constructor
  · rintro ⟨id', hid', hget⟩
    obtain ⟨data', hget, heq⟩ := Option.map_eq_some_iff.mp hget
    cases heq
    exact ⟨hid', hget⟩
  · rintro ⟨hid, hget⟩
    exact ⟨id, hid, Option.map_eq_some_iff.mpr ⟨other, hget, rfl⟩⟩

theorem Indexed.map_fst_evicted (h : s.Indexed) (sessionId : String) (data : SessionData)
    (hnew : s.getSession sessionId = none) :
    (s.evicted sessionId data).map Prod.fst = (s.insert sessionId data).excess data.userId := by
  rw [evicted, List.map_filterMap]
  calc ((s.insert sessionId data).excess data.userId).filterMap _
      = ((s.insert sessionId data).excess data.userId).filterMap some := by
        refine List.filterMap_congr fun id hid => ?_
        obtain ⟨data', hget, -⟩ := (h.capTakes data hnew).own id hid
        rw [hget]
        rfl
    _ = (s.insert sessionId data).excess data.userId := List.filterMap_some

/-- What is stored after a login is what was, and the new session, less what is handed back. -/
theorem mem_scan_saveSession {sessionId id : String} {data other : SessionData} {userId : Uuid} :
    (id, other) ∈ (s.saveSession sessionId data).2.scan (.user userId) ↔
      id ∉ (s.insert sessionId data).excess data.userId ∧
        (s.insert sessionId data).getSession id = some other ∧ other.userId = userId := by
  rw [mem_scan_user, saveSession, get_removeAll]
  split_ifs with hid
  · simp [hid]
  · simp [hid]

theorem getSession_insert_of_new {sessionId id : String} {data other : SessionData}
    (hnew : s.getSession sessionId = none) :
    (s.insert sessionId data).getSession id = some other ↔
      id = sessionId ∧ data = other ∨ s.getSession id = some other := by
  rw [get_insert]
  split_ifs with hid
  · subst hid
    rw [hnew]
    simp
  · simp [hid]

theorem notMem_scan_of_new {sessionId : String} (hnew : s.getSession sessionId = none)
    (userId : Uuid) (other : SessionData) : (sessionId, other) ∉ s.scan (.user userId) := by
  intro hmem
  rw [mem_scan_user, hnew] at hmem
  cases hmem.1

/-- What is handed back is the user's own. -/
theorem Indexed.eq_of_excess (h : s.Indexed) {sessionId id : String} {data other : SessionData}
    (hnew : s.getSession sessionId = none) (hid : id ∈ (s.insert sessionId data).excess data.userId)
    (hget : (s.insert sessionId data).getSession id = some other) : other.userId = data.userId := by
  obtain ⟨data', hget', huser⟩ := (h.capTakes data hnew).own id hid
  obtain rfl := Option.some.inj (hget'.symm.trans hget)
  exact huser

/-- Nothing is lost: what was there, and the new session, is kept or handed back. -/
theorem Indexed.perm_saveSession (h : s.Indexed) {sessionId : String} (data : SessionData)
    (hnew : s.getSession sessionId = none) :
    ((sessionId, data) :: s.scan (.user data.userId)).Perm
      ((s.saveSession sessionId data).2.scan (.user data.userId) ++ s.evicted sessionId data) := by
  have hnodup : (s.evicted sessionId data).Nodup := by
    refine List.Nodup.of_map Prod.fst ?_
    rw [h.map_fst_evicted sessionId data hnew]
    exact (h.capTakes data hnew).nodup
  refine (List.perm_ext_iff_of_nodup ?_ ?_).mpr ?_
  · exact List.nodup_cons.mpr ⟨notMem_scan_of_new hnew _ data, nodup_scan _ _⟩
  · refine List.nodup_append.mpr ⟨nodup_scan _ _, hnodup, ?_⟩
    rintro ⟨id, other⟩ hkept _ hout rfl
    exact (mem_scan_saveSession.mp hkept).1 (mem_evicted.mp hout).1
  · rintro ⟨id, other⟩
    rw [List.mem_append, mem_scan_saveSession, mem_evicted, getSession_insert_of_new hnew,
      List.mem_cons, mem_scan_user, Prod.mk.injEq, eq_comm (a := other)]
    constructor
    · intro hmem
      have huser : other.userId = data.userId := by
        obtain ⟨-, rfl⟩ | ⟨-, huser⟩ := hmem
        · rfl
        · exact huser
      have hget : id = sessionId ∧ data = other ∨ s.getSession id = some other :=
        hmem.imp_right And.left
      by_cases hid : id ∈ (s.insert sessionId data).excess data.userId
      · exact Or.inr ⟨hid, hget⟩
      · exact Or.inl ⟨hid, hget, huser⟩
    · rintro (⟨-, hget, huser⟩ | ⟨hid, hget⟩)
      · exact hget.imp_right fun hget => ⟨hget, huser⟩
      · refine hget.imp_right fun hget' => ⟨hget', ?_⟩
        exact h.eq_of_excess hnew hid ((getSession_insert_of_new hnew).mpr (Or.inr hget'))

/-- The sessions of others stay as they were. -/
theorem Indexed.getSession_saveSession_of_ne (h : s.Indexed) {sessionId id : String}
    {data other : SessionData} (hnew : s.getSession sessionId = none)
    (hne : other.userId ≠ data.userId) :
    (s.saveSession sessionId data).2.getSession id = some other ↔ s.getSession id = some other := by
  rw [Sessions.saveSession, get_removeAll]
  split_ifs with hid
  · refine iff_of_false not_false fun hget => hne ?_
    exact h.eq_of_excess hnew hid ((getSession_insert_of_new hnew).mpr (Or.inr hget))
  · rw [getSession_insert_of_new hnew]
    refine or_iff_right ?_
    rintro ⟨-, rfl⟩
    exact hne rfl

theorem Indexed.splits (h : s.Indexed) {sessionId : String} (data : SessionData)
    (hnew : s.getSession sessionId = none) : Splits s sessionId data := by
  have htakes := h.capTakes data hnew
  have hall := h.perm_saveSession data hnew
  exact {
    handed := by
      rw [Sessions.saveSession, removeAll_dropped htakes.nodup, evicted, List.map_filterMap]
      refine List.filterMap_congr fun id _ => ?_
      cases (s.insert sessionId data).getSession id <;> rfl
    all := hall
    nodup := by
      rw [List.map_cons]
      refine List.nodup_cons.mpr ⟨?_, s.byId.nodup_map_fst_filter _⟩
      intro hmem
      obtain ⟨⟨id, other⟩, hscan, hid⟩ := List.mem_map.mp hmem
      obtain rfl : id = sessionId := hid
      exact notMem_scan_of_new hnew _ other hscan
    oldest := by
      rintro ⟨id, out⟩ hout ⟨id', kept⟩ hkept
      obtain ⟨hid, hget⟩ := mem_evicted.mp hout
      obtain ⟨hid', hget', huser⟩ := mem_scan_saveSession.mp hkept
      exact htakes.oldest id hid id' hid' out kept hget hget' huser
    others := by
      rintro userId hne id other rfl
      exact h.getSession_saveSession_of_ne hnew hne
    new := by
      intro hlatest
      have hlater : s.later data.userId data.createdAt = [] :=
        List.filter_eq_nil_iff.mpr fun e he => by simpa using hlatest e he
      have hkept : sessionId ∉ (s.insert sessionId data).excess data.userId := by
        rw [htakes.new, hlater]
        decide
      rw [Sessions.saveSession, get_removeAll, if_neg hkept, get_insert, if_pos rfl]
    within := by
      have hlength := hall.length_eq
      have hout : (s.evicted sessionId data).length =
          (s.scan (.user data.userId)).length + 1 - maxSessionsPerUser := by
        rw [← htakes.length, ← h.map_fst_evicted sessionId data hnew, List.length_map]
      rw [List.length_append, hout, List.length_cons] at hlength
      omega }

/-! ### Runs -/

/-- Nobody is over the cap. -/
def WithinCap (s : Sessions) : Prop :=
  ∀ userId, (s.scan (.user userId)).length ≤ maxSessionsPerUser

theorem Indexed.withinCap_after (h : s.Indexed) (hcap : s.WithinCap) {c : Call}
    (hfair : c.Fair s) : (s.after c).WithinCap := by
  intro userId
  have h' := h.after c
  have hbefore := hcap userId
  have hids : ((s.after c).idsOf userId).length ≤ (s.idsOf userId).length →
      ((s.after c).scan (.user userId)).length ≤ maxSessionsPerUser := by
    intro hle
    rw [h'.length_scan]
    rw [h.length_scan] at hbefore
    exact hle.trans hbefore
  cases c with
  | saveSession sessionId data =>
    by_cases huser : userId = data.userId
    · rw [huser]
      exact (h.splits data hfair).within
    · refine hids (((h.insert sessionId data).length_idsOf_removeAll_le userId _).trans ?_)
      rw [h.idsOf_insert, if_neg huser, List.append_nil]
      exact List.length_filter_le _ _
  | updateSession sessionId data =>
    refine hids ?_
    rw [Sessions.after]
    cases hupdate : s.updateSession sessionId data with
    | none => exact le_refl _
    | some s' => exact (h.length_idsOf_updateSession hupdate hfair userId).le
  | takeSession sessionId => exact hids (h.length_idsOf_remove_le sessionId userId)
  | revoke selector => exact hids (h.length_idsOf_removeAll_le userId _)
  | sweepExpired now => exact hids (h.length_idsOf_removeAll_le userId _)

theorem Run.within_cap (h : Run s) : s.WithinCap := by
  induction h with
  | empty => intro userId; exact Nat.zero_le _
  | call c hrun hfair ih => exact hrun.indexed.withinCap_after ih hfair
  | @rehash s s' hrun hid huser ih =>
    intro userId
    have hlist : s'.byUser.get userId = s.byUser.get userId := HashMap.get_eq_of_rehash huser userId
    rw [(hrun.indexed.rehash hid huser).length_scan, idsOf, hlist, ← idsOf,
      ← hrun.indexed.length_scan]
    exact ih userId

/-- **The session cap.** In every run no user is over the cap. A login keeps or hands back each of
its user's sessions and its own, those that it hands back being no later than those that it keeps;
it leaves other users' sessions alone, and keeps its own if none of the user's is later. -/
theorem session_cap (h : Run s) : s.WithinCap ∧
    ∀ sessionId data, s.getSession sessionId = none → Splits s sessionId data :=
  ⟨h.within_cap, fun _ data hnew => h.indexed.splits data hnew⟩

/-- The store after logins under these ids, at one time. -/
def logIn (ids : List String) (s : Sessions) : Sessions :=
  ids.foldl (fun s id => s.after (.saveSession id (sample 1 none))) s

theorem Run.logIn {ids : List String} : ∀ {s : Sessions}, ids.Nodup → Run s →
    (∀ id ∈ ids, s.getSession id = none) → Run (s.logIn ids) := by
  induction ids with
  | nil =>
    intro s _ h _
    exact h
  | cons id ids ih =>
    intro s hnodup h hnew
    obtain ⟨hnotMem, hnodup⟩ := List.nodup_cons.mp hnodup
    refine ih hnodup (.call (.saveSession id (sample 1 none)) h (hnew id List.mem_cons_self)) ?_
    intro id' hid'
    have hne : id' ≠ id := by
      rintro rfl
      exact hnotMem hid'
    show (s.saveSession id (sample 1 none)).2.getSession id' = none
    rw [get_saveSession, if_neg hne, hnew id' (List.mem_cons_of_mem _ hid'), ite_self]

/-- As many ids as a user may have sessions. -/
def fullHouse : List String :=
  (List.range maxSessionsPerUser).map fun n => String.singleton (Char.ofNat (97 + n))

/-- A login as late as those of a full house is kept. -/
theorem session_cap_tie :
    ((empty.logIn fullHouse).saveSession "new" (sample 1 none)).2.getSession "new" =
      some (sample 1 none) := by
  have hrun : Run (empty.logIn fullHouse) := .logIn (by decide +kernel) .empty fun _ _ => rfl
  have hscan : ((empty.logIn fullHouse).scan (.user 1)).all
      (fun e => e.2.createdAt ≤ (sample 1 none).createdAt) = true := by
    decide +kernel
  refine ((session_cap hrun).2 "new" (sample 1 none) (by decide +kernel)).new ?_
  intro e he
  exact of_decide_eq_true (List.all_eq_true.mp hscan e he)

end Sessions

end Bff

end WeaveAuth
