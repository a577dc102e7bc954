import Mathlib.Data.List.Sort
import WeaveAuth.Bff.Session
import WeaveAuth.ForMathlib.HashMap

/-!
# The in-memory session store

`bff/src/storage/in_memory.rs`. Each public operation holds the store's mutex from its first
read to its last write, so each is one function on `Sessions`.

`Sessions` keeps two maps: the sessions by id, and the ids of each user, in the order in which
they were pushed. That they agree is proved in `SessionIndex`, and nothing here assumes it.

## Main definitions

* `Sessions.insert`, `remove`, `unindex`, `removeAll`: the private helpers
* `Sessions.saveSession`, `getSession`, `updateSession`, `takeSession`, `revoke`,
  `sweepExpired`: the operations of `SessionStorage` and `ExpiryMaintenance`

## Main results

What the operations do to `byId`, whatever the state of the user index: `get_insert`,
`get_remove`, `get_removeAll`, `removeAll_dropped`.

## What is left out

The mutex: an operation holds it throughout and awaits nothing while it does, so it is one step of a
run. The wait for it is an await of the caller's, and belongs to `System`.
-/

namespace WeaveAuth

namespace Bff

/-- How many sessions one user may hold at once; a login beyond it ends the oldest. -/
def maxSessionsPerUser : ℕ := 20

/-- The store behind the mutex. -/
structure Sessions where
  /-- Every session, by its id. -/
  byId : HashMap String SessionData
  /-- The session ids of each user. -/
  byUser : HashMap Uuid (List String)

namespace Sessions

instance : Inhabited Sessions := ⟨⟨∅, ∅⟩⟩

/-- `Sessions::default()`. -/
def empty : Sessions := ⟨∅, ∅⟩

/-- The ids `by_user` lists for a user, none when it has no entry. -/
def idsOf (s : Sessions) (userId : Uuid) : List String := (s.byUser.get userId).getD []

/-! ### The private helpers -/

def unindex (s : Sessions) (sessionId : String) (userId : Uuid) : Sessions :=
  match s.byUser.get userId with
  | none => s
  | some ids =>
    let ids := ids.filter (· ≠ sessionId)
    if ids.isEmpty then { s with byUser := s.byUser.remove userId }
    else { s with byUser := s.byUser.insert userId ids }

/-- `Sessions::insert` before it pushes the id: the session replaced is taken out of its
user's list. -/
def replace (s : Sessions) (sessionId : String) (data : SessionData) : Sessions :=
  let stored : Sessions := { s with byId := s.byId.insert sessionId data }
  match s.byId.get sessionId with
  | some replaced => stored.unindex sessionId replaced.userId
  | none => stored

def insert (s : Sessions) (sessionId : String) (data : SessionData) : Sessions :=
  let s := s.replace sessionId data
  { s with byUser := s.byUser.insert data.userId (s.idsOf data.userId ++ [sessionId]) }

def remove (s : Sessions) (sessionId : String) : Option SessionData × Sessions :=
  match s.byId.get sessionId with
  | none => (none, s)
  | some data =>
    (some data, unindex { s with byId := s.byId.remove sessionId } sessionId data.userId)

def removeAll : Sessions → List String → List SessionData × Sessions
  | s, [] => ([], s)
  | s, sessionId :: ids =>
    let (data, s) := s.remove sessionId
    let (dropped, s) := removeAll s ids
    (data.toList ++ dropped, s)

/-! ### The operations -/

/-- The user's ids, oldest login first. `sort_by_key` is stable, as insertion sort is. -/
def oldestFirst (s : Sessions) (userId : Uuid) : List (String × DateTime) :=
  ((s.idsOf userId).filterMap fun id => (s.byId.get id).map fun data => (id, data.createdAt))
    |>.insertionSort fun a b => a.2 ≤ b.2

/-- The ids beyond the cap, oldest first. -/
def excess (s : Sessions) (userId : Uuid) : List String :=
  let own := s.oldestFirst userId
  (own.take (own.length - maxSessionsPerUser)).map Prod.fst

def saveSession (s : Sessions) (sessionId : String) (data : SessionData) :
    List SessionData × Sessions :=
  let s := s.insert sessionId data
  s.removeAll (s.excess data.userId)

def getSession (s : Sessions) (sessionId : String) : Option SessionData := s.byId.get sessionId

/-- `None` is `Err(SessionGone)`. -/
def updateSession (s : Sessions) (sessionId : String) (data : SessionData) : Option Sessions :=
  match s.byId.get sessionId with
  | none => none
  | some _ => some ((s.remove sessionId).2.insert sessionId data)

def takeSession (s : Sessions) (sessionId : String) : Option SessionData × Sessions :=
  s.remove sessionId

/-- The ids `revoke` drops: over the user's own list where the selector names a user, over every
session where it does not. -/
def selected (s : Sessions) (selector : SessionSelector) : List String :=
  match selector with
  | .user userId | .userSession userId _ =>
    (s.idsOf userId).filter fun id => (s.byId.get id).any selector.matches
  | .session _ => (s.byId.pairs.filter fun e => selector.matches e.2).map Prod.fst

def revoke (s : Sessions) (selector : SessionSelector) : List SessionData × Sessions :=
  s.removeAll (s.selected selector)

/-- The ids of the sessions that have ended by `now`. -/
def expired (s : Sessions) (now : DateTime) : List String :=
  (s.byId.pairs.filter fun e => e.2.endsAt ≤ now).map Prod.fst

def sweepExpired (s : Sessions) (now : DateTime) : Sessions := (s.removeAll (s.expired now)).2

/-! ### What they do to the sessions -/

@[simp] theorem byId_unindex (s : Sessions) (sessionId : String) (userId : Uuid) :
    (s.unindex sessionId userId).byId = s.byId := by
  unfold unindex
  split
  · rfl
  · dsimp only
    split <;> rfl

@[simp] theorem byId_insert (s : Sessions) (sessionId : String) (data : SessionData) :
    (s.insert sessionId data).byId = s.byId.insert sessionId data := by
  simp only [insert, replace]
  split <;> simp

theorem get_insert (s : Sessions) (sessionId id : String) (data : SessionData) :
    (s.insert sessionId data).getSession id
      = if id = sessionId then some data else s.getSession id := by
  rw [getSession, byId_insert, HashMap.get_insert]
  rfl

@[simp] theorem remove_fst (s : Sessions) (sessionId : String) :
    (s.remove sessionId).1 = s.getSession sessionId := by
  unfold remove getSession
  split
  · next h => rw [h]
  · next h => rw [h]

theorem get_remove (s : Sessions) (sessionId id : String) :
    (s.remove sessionId).2.getSession id = if id = sessionId then none else s.getSession id := by
  unfold remove getSession
  split
  · next h =>
    by_cases hid : id = sessionId
    · rw [if_pos hid, hid, h]
    · rw [if_neg hid]
  · rw [byId_unindex, HashMap.get_remove]

theorem get_removeAll (ids : List String) : ∀ (s : Sessions) (id : String),
    (s.removeAll ids).2.getSession id = if id ∈ ids then none else s.getSession id := by
  induction ids with
  | nil => intro s id; simp [removeAll]
  | cons sessionId ids ih =>
    intro s id
    simp only [removeAll, ih, get_remove, List.mem_cons]
    by_cases hid : id = sessionId <;> simp [hid]

/-- What is removed is handed back. -/
theorem mem_removeAll {ids : List String} {id : String} {data : SessionData} : ∀ {s : Sessions},
    s.getSession id = some data → (s.removeAll ids).2.getSession id = none →
    data ∈ (s.removeAll ids).1 := by
  induction ids with
  | nil =>
    intro s hget hgone
    rw [removeAll, hget] at hgone
    cases hgone
  | cons sessionId ids ih =>
    intro s hget hgone
    simp only [removeAll, remove_fst, List.mem_append, Option.mem_toList]
    by_cases hid : id = sessionId
    · exact Or.inl (hid ▸ hget)
    · exact Or.inr (ih (by rw [get_remove, if_neg hid, hget]) hgone)

/-- Distinct ids are handed back as they are stored, in order. -/
theorem removeAll_dropped {ids : List String} (hnodup : ids.Nodup) : ∀ s : Sessions,
    (s.removeAll ids).1 = ids.filterMap s.getSession := by
  induction ids with
  | nil => intro s; rfl
  | cons sessionId ids ih =>
    intro s
    obtain ⟨hnotMem, hnodup⟩ := List.nodup_cons.mp hnodup
    have hrest : ids.filterMap (s.remove sessionId).2.getSession = ids.filterMap s.getSession := by
      refine List.filterMap_congr fun id hid => ?_
      rw [get_remove, if_neg (by rintro rfl; exact hnotMem hid)]
    simp only [removeAll, remove_fst, ih hnodup, hrest, List.filterMap_cons]
    cases s.getSession sessionId <;> rfl

/-- The session saved is there, unless the cap takes it, and of the others those the cap takes
are gone. -/
theorem get_saveSession (s : Sessions) (sessionId id : String) (data : SessionData) :
    (s.saveSession sessionId data).2.getSession id
      = if id ∈ (s.insert sessionId data).excess data.userId then none
        else if id = sessionId then some data else s.getSession id := by
  rw [saveSession, get_removeAll, get_insert]

/-- An update finds the session, and changes no other. -/
theorem get_updateSession {s s' : Sessions} {sessionId : String} {data : SessionData}
    (h : s.updateSession sessionId data = some s') :
    s.getSession sessionId ≠ none ∧ ∀ id, s'.getSession id
      = if id = sessionId then some data else s.getSession id := by
  rw [updateSession] at h
  split at h
  · cases h
  · next old hold =>
    cases h
    refine ⟨?_, fun id => ?_⟩
    · rw [getSession, hold]
      exact Option.some_ne_none old
    · rw [get_insert, get_remove]
      split <;> rfl

theorem updateSession_eq_none {s : Sessions} {sessionId : String} {data : SessionData} :
    s.updateSession sessionId data = none ↔ s.getSession sessionId = none := by
  rw [updateSession, getSession]
  split
  · next h => simp [h]
  · next h => simp [h]

end Sessions

end Bff

end WeaveAuth
