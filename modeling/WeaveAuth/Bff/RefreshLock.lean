import Mathlib.Data.List.Nodup
import WeaveAuth.Bff.Session
import WeaveAuth.ForMathlib.HashMap

/-!
# The refresh locks

`bff/src/server/refresh_lock.rs`: one async mutex a session id, in a map that makes them on
demand and forgets them when nobody has a use for them.

`RefreshLocks::acquire` has one await, so it is two steps here. `acquire` is what happens under
the map's lock: the id's mutex is found or made, and the task keeps a clone of its `Arc`.
`lockOwned` is tokio handing over the mutex. A mutex is a number, so that one made for an id
whose first was forgotten is another mutex. `waiting` and `guards` list who has a clone, and with
the map's own handle they are what `Arc::strong_count` counts.

Tokio's mutex is fair; `lockOwned` lets any waiter in, so nothing proved here rests on the order.

## Main results

* `Sound`: what holds of the locks however acquires, cancellations, guard drops and prunes
  interleave, and `Sound.acquire`, `lockOwned`, `cancel`, `dropGuard`, `prune`
* `Sound.holds_unique`: one live guard a session id

## What is left out

A guard's drop never waits, so it is one step, as `prune` is, which holds the map's lock all the
time. That a dropped `acquire` frees its clone is `RefreshGuard`'s doing, and `cancel` is that drop.
-/

namespace WeaveAuth

namespace Bff

/-- One `Arc<AsyncMutex<()>>`. -/
abbrev LockId := ℕ

/-- A task's clone of a session's mutex. -/
structure Ticket where
  task : TaskId
  sessionId : String
  lock : LockId
  deriving DecidableEq, Repr

/-- The map behind its lock, and who has a handle to one of its mutexes. -/
structure RefreshLocks where
  /-- The mutex of each session id. -/
  locks : HashMap String LockId
  /-- The next mutex to be made. -/
  next : LockId
  /-- Acquires that wait in `lock_owned`. -/
  waiting : List Ticket
  /-- Live `RefreshGuard`s. -/
  guards : List Ticket

namespace RefreshLocks

instance : Inhabited RefreshLocks := ⟨⟨∅, 0, [], []⟩⟩

/-- `RefreshLocks::default()`. -/
def empty : RefreshLocks := ⟨∅, 0, [], []⟩

/-- Every clone of a mutex that a task has. -/
def tickets (r : RefreshLocks) : List Ticket := r.waiting ++ r.guards

/-- `Arc::strong_count`: the map's handle and the tasks'. -/
def strongCount (r : RefreshLocks) (lock : LockId) : ℕ :=
  (r.locks.pairs.filter fun e => e.2 = lock).length
    + (r.tickets.filter fun k => k.lock = lock).length

/-- The first half of `acquire`: the id's mutex, made if there is none, and a clone of it. -/
def acquire (r : RefreshLocks) (task : TaskId) (sessionId : String) : RefreshLocks :=
  match r.locks.get sessionId with
  | some lock => { r with waiting := ⟨task, sessionId, lock⟩ :: r.waiting }
  | none =>
    { r with
      locks := r.locks.insert sessionId r.next
      next := r.next + 1
      waiting := ⟨task, sessionId, r.next⟩ :: r.waiting }

/-- The second half: the mutex is the task's, unless a guard of it is live. -/
def lockOwned (r : RefreshLocks) (task : TaskId) : Option RefreshLocks :=
  match r.waiting.find? (·.task = task) with
  | none => none
  | some k =>
    if r.guards.any (·.lock = k.lock) then none
    else some { r with waiting := r.waiting.filter (·.task ≠ task), guards := k :: r.guards }

/-- A waiter goes away before it has the mutex; only its clone is dropped. -/
def cancel (r : RefreshLocks) (task : TaskId) : RefreshLocks :=
  { r with waiting := r.waiting.filter (·.task ≠ task) }

/-- `RefreshGuard::drop`. -/
def dropGuard (r : RefreshLocks) (task : TaskId) : RefreshLocks :=
  match r.guards.find? (·.task = task) with
  | none => r
  | some k =>
    let r := { r with guards := r.guards.filter (·.task ≠ task) }
    match r.locks.get k.sessionId with
    | none => r
    | some lock =>
      if r.strongCount lock = 1 then { r with locks := r.locks.remove k.sessionId } else r

/-- `RefreshLocks::prune`. -/
def prune (r : RefreshLocks) : RefreshLocks :=
  { r with locks := r.locks.retain fun _ lock => 1 < r.strongCount lock }

/-! ### What each step does to the tickets -/

/-- Whatever turn the task waits for is the id's. -/
def WaitsFor (r : RefreshLocks) (task : TaskId) (sessionId : String) : Prop :=
  ∀ k ∈ r.waiting, k.task = task → k.sessionId = sessionId

/-- The task has the id's turn. -/
def Holds (r : RefreshLocks) (task : TaskId) (sessionId : String) : Prop :=
  ∃ k ∈ r.guards, k.task = task ∧ k.sessionId = sessionId

/-- The task neither waits for a turn nor has one. -/
def Idle (r : RefreshLocks) (task : TaskId) : Prop := ∀ k ∈ r.tickets, k.task ≠ task

theorem mem_tickets {r : RefreshLocks} {k : Ticket} :
    k ∈ r.tickets ↔ k ∈ r.waiting ∨ k ∈ r.guards := List.mem_append

/-- A step of `task` leaves everybody else's tickets alone. -/
structure Frame (r r' : RefreshLocks) (task : TaskId) : Prop where
  waiting : ∀ k, k.task ≠ task → (k ∈ r'.waiting ↔ k ∈ r.waiting)
  guards : ∀ k, k.task ≠ task → (k ∈ r'.guards ↔ k ∈ r.guards)

theorem Frame.refl (r : RefreshLocks) (task : TaskId) : r.Frame r task :=
  ⟨fun _ _ => Iff.rfl, fun _ _ => Iff.rfl⟩

theorem Frame.trans {r r' r'' : RefreshLocks} {task : TaskId} (h : r.Frame r' task)
    (h' : r'.Frame r'' task) : r.Frame r'' task :=
  ⟨fun k hk => (h'.waiting k hk).trans (h.waiting k hk),
    fun k hk => (h'.guards k hk).trans (h.guards k hk)⟩

theorem Frame.waitsFor {r r' : RefreshLocks} {task u : TaskId} (h : r.Frame r' task)
    (hu : u ≠ task) {sessionId : String} (hwaits : r.WaitsFor u sessionId) :
    r'.WaitsFor u sessionId := by
  rintro k hk rfl
  exact hwaits k ((h.waiting k hu).mp hk) rfl

theorem Frame.holds_iff {r r' : RefreshLocks} {task u : TaskId} (h : r.Frame r' task)
    (hu : u ≠ task) (sessionId : String) : r'.Holds u sessionId ↔ r.Holds u sessionId := by
  constructor <;> rintro ⟨k, hk, rfl, hid⟩
  · exact ⟨k, (h.guards k hu).mp hk, rfl, hid⟩
  · exact ⟨k, (h.guards k hu).mpr hk, rfl, hid⟩

theorem Frame.idle_iff {r r' : RefreshLocks} {task u : TaskId} (h : r.Frame r' task)
    (hu : u ≠ task) : r'.Idle u ↔ r.Idle u := by
  have hmem : ∀ k : Ticket, k.task = u → (k ∈ r'.tickets ↔ k ∈ r.tickets) := by
    rintro k rfl
    rw [mem_tickets, mem_tickets, h.waiting k hu, h.guards k hu]
  constructor
  · exact fun hidle k hk htask => hidle k ((hmem k htask).mpr hk) htask
  · exact fun hidle k hk htask => hidle k ((hmem k htask).mp hk) htask

@[simp] theorem guards_acquire (r : RefreshLocks) (task : TaskId) (sessionId : String) :
    (r.acquire task sessionId).guards = r.guards := by
  rw [acquire]
  split <;> rfl

theorem waiting_acquire (r : RefreshLocks) (task : TaskId) (sessionId : String) :
    ∃ lock, (r.acquire task sessionId).waiting = ⟨task, sessionId, lock⟩ :: r.waiting := by
  rw [acquire]
  split
  · next lock _ => exact ⟨lock, rfl⟩
  · exact ⟨r.next, rfl⟩

theorem frame_acquire (r : RefreshLocks) (task : TaskId) (sessionId : String) :
    r.Frame (r.acquire task sessionId) task := by
  obtain ⟨lock, hwaiting⟩ := r.waiting_acquire task sessionId
  refine ⟨fun k hk => ?_, fun k _ => by rw [guards_acquire]⟩
  rw [hwaiting, List.mem_cons, or_iff_right (by rintro rfl; exact hk rfl)]

theorem waitsFor_acquire {r : RefreshLocks} {task : TaskId} (hidle : r.Idle task)
    (sessionId : String) : (r.acquire task sessionId).WaitsFor task sessionId := by
  obtain ⟨lock, hwaiting⟩ := r.waiting_acquire task sessionId
  intro k hk htask
  rw [hwaiting] at hk
  rcases List.mem_cons.mp hk with rfl | hk
  · rfl
  · exact absurd htask (hidle k (mem_tickets.mpr (Or.inl hk)))

/-- What `lockOwned` does, when it can. -/
theorem lockOwned_eq {r r' : RefreshLocks} {task : TaskId} (h : r.lockOwned task = some r') :
    ∃ k ∈ r.waiting, k.task = task ∧ (∀ g ∈ r.guards, g.lock ≠ k.lock) ∧
      r' = { r with waiting := r.waiting.filter (·.task ≠ task), guards := k :: r.guards } := by
  rw [lockOwned] at h
  split at h
  · cases h
  · next k hfind =>
    split at h
    · cases h
    · next hfree =>
      refine ⟨k, List.mem_of_find?_eq_some hfind, by simpa using List.find?_some hfind, ?_,
        (Option.some.inj h).symm⟩
      simpa using hfree

theorem holds_lockOwned {r r' : RefreshLocks} {task : TaskId} {sessionId : String}
    (hwaits : r.WaitsFor task sessionId) (h : r.lockOwned task = some r') :
    r'.Holds task sessionId := by
  obtain ⟨k, hk, htask, -, rfl⟩ := lockOwned_eq h
  exact ⟨k, List.mem_cons_self, htask, hwaits k hk htask⟩

theorem frame_lockOwned {r r' : RefreshLocks} {task : TaskId} (h : r.lockOwned task = some r') :
    r.Frame r' task := by
  obtain ⟨k, -, rfl, -, rfl⟩ := lockOwned_eq h
  refine ⟨fun g hg => by simp [hg], fun g hg => ?_⟩
  rw [List.mem_cons, or_iff_right (by rintro rfl; exact hg rfl)]

theorem frame_cancel (r : RefreshLocks) (task : TaskId) : r.Frame (r.cancel task) task :=
  ⟨fun k hk => by simp [cancel, hk], fun _ _ => Iff.rfl⟩

@[simp] theorem waiting_dropGuard (r : RefreshLocks) (task : TaskId) :
    (r.dropGuard task).waiting = r.waiting := by
  rw [dropGuard]
  split
  · rfl
  · dsimp only
    split
    · rfl
    · split <;> rfl

theorem guards_dropGuard (r : RefreshLocks) (task : TaskId) :
    (r.dropGuard task).guards = r.guards.filter (·.task ≠ task) := by
  rw [dropGuard]
  split
  · next hnone =>
    refine (List.filter_eq_self.mpr fun k hk => ?_).symm
    simpa using List.find?_eq_none.mp hnone k hk
  · dsimp only
    split
    · rfl
    · split <;> rfl

theorem frame_dropGuard (r : RefreshLocks) (task : TaskId) : r.Frame (r.dropGuard task) task :=
  ⟨fun k _ => by rw [waiting_dropGuard], fun k hk => by simp [guards_dropGuard, hk]⟩

theorem frame_prune (r : RefreshLocks) (task : TaskId) : r.Frame r.prune task :=
  ⟨fun _ _ => Iff.rfl, fun _ _ => Iff.rfl⟩

/-! ### What holds of the locks at any time -/

/-- The tickets and the map agree, and no mutex is held twice. -/
structure Sound (r : RefreshLocks) : Prop where
  /-- Whoever waits for an id's turn or has it does so at the mutex the map has for the id. -/
  mapped : ∀ k ∈ r.tickets, r.locks.get k.sessionId = some k.lock
  /-- No two ids share a mutex. -/
  injective : ∀ id id' lock, r.locks.get id = some lock → r.locks.get id' = some lock → id = id'
  /-- A new mutex is none of those in use. -/
  fresh : ∀ id lock, r.locks.get id = some lock → lock < r.next
  /-- Tokio's mutex is exclusive. -/
  exclusive : (r.guards.map Ticket.lock).Nodup

theorem sound_empty : empty.Sound where
  mapped k hk := by cases hk
  injective id id' lock h := by simp [empty] at h
  fresh id lock h := by simp [empty] at h
  exclusive := List.nodup_nil

/-- A mutex somebody has a clone of has a count above the map's own handle. -/
theorem one_lt_strongCount {r : RefreshLocks} {id : String} {k : Ticket} (hk : k ∈ r.tickets)
    (hmap : r.locks.get id = some k.lock) : 1 < r.strongCount k.lock := by
  have hentry : 0 < (r.locks.pairs.filter fun e => e.2 = k.lock).length :=
    List.length_pos_of_mem (List.mem_filter.mpr ⟨HashMap.mem_pairs.mpr hmap, by simp⟩)
  have hticket : 0 < (r.tickets.filter fun g => g.lock = k.lock).length :=
    List.length_pos_of_mem (List.mem_filter.mpr ⟨hk, by simp⟩)
  rw [strongCount]
  omega

section Sound

variable {r : RefreshLocks}

/-- One live guard a session id. -/
theorem Sound.holds_unique (h : r.Sound) {t u : TaskId} {sessionId : String}
    (ht : r.Holds t sessionId) (hu : r.Holds u sessionId) : t = u := by
  obtain ⟨k, hk, rfl, rfl⟩ := ht
  obtain ⟨g, hg, rfl, hid⟩ := hu
  have hk' := h.mapped k (mem_tickets.mpr (Or.inr hk))
  have hg' := h.mapped g (mem_tickets.mpr (Or.inr hg))
  have hlock : k.lock = g.lock := by
    rw [hid, hk', Option.some.injEq] at hg'
    exact hg'
  rw [List.inj_on_of_nodup_map h.exclusive hk hg hlock]

theorem Sound.acquire (h : r.Sound) (task : TaskId) (sessionId : String) :
    (r.acquire task sessionId).Sound := by
  rw [RefreshLocks.acquire]
  split
  · next lock hlock =>
    refine ⟨fun k hk => ?_, h.injective, h.fresh, h.exclusive⟩
    rcases List.mem_cons.mp hk with rfl | hk
    · exact hlock
    · exact h.mapped k hk
  · next hnone =>
    refine ⟨fun k hk => ?_, fun id id' lock hid hid' => ?_, fun id lock hid => ?_, h.exclusive⟩
    · rcases List.mem_cons.mp hk with rfl | hk
      · simp
      · have hne : k.sessionId ≠ sessionId := fun heq => by
          have hmap := h.mapped k hk
          rw [heq, hnone] at hmap
          cases hmap
        simpa [hne] using h.mapped k hk
    · have hlt := h.fresh id lock
      have hlt' := h.fresh id' lock
      have hinj := h.injective id id' lock
      simp only [HashMap.get_insert] at hid hid'
      grind
    · have hlt := h.fresh id lock
      simp only [HashMap.get_insert] at hid
      grind

theorem Sound.lockOwned (h : r.Sound) {task : TaskId} {r' : RefreshLocks}
    (hr : r.lockOwned task = some r') : r'.Sound := by
  obtain ⟨k, hk, rfl, hfree, rfl⟩ := lockOwned_eq hr
  refine ⟨fun g hg => ?_, h.injective, h.fresh, ?_⟩
  · rcases mem_tickets.mp hg with hg | hg
    · exact h.mapped g (mem_tickets.mpr (Or.inl (List.mem_of_mem_filter hg)))
    · rcases List.mem_cons.mp hg with rfl | hg
      · exact h.mapped g (mem_tickets.mpr (Or.inl hk))
      · exact h.mapped g (mem_tickets.mpr (Or.inr hg))
  · refine List.nodup_cons.mpr ⟨fun hmem => ?_, h.exclusive⟩
    obtain ⟨g, hg, hlock⟩ := List.mem_map.mp hmem
    exact hfree g hg hlock

/-- Fewer tickets, the same map. -/
theorem Sound.of_sublist (h : r.Sound) {waiting guards : List Ticket}
    (hwaiting : waiting.Sublist r.waiting) (hguards : guards.Sublist r.guards) :
    ({ r with waiting := waiting, guards := guards } : RefreshLocks).Sound := by
  refine ⟨fun k hk => h.mapped k ?_, h.injective, h.fresh, h.exclusive.sublist (hguards.map _)⟩
  rcases mem_tickets.mp hk with hk | hk
  · exact mem_tickets.mpr (Or.inl (hwaiting.subset hk))
  · exact mem_tickets.mpr (Or.inr (hguards.subset hk))

theorem Sound.cancel (h : r.Sound) (task : TaskId) : (r.cancel task).Sound :=
  h.of_sublist List.filter_sublist (List.Sublist.refl _)

/-- Forgetting a mutex that nobody has a clone of. -/
theorem Sound.remove (h : r.Sound) {sessionId : String} {lock : LockId}
    (hmap : r.locks.get sessionId = some lock) (hcount : r.strongCount lock = 1) :
    ({ r with locks := r.locks.remove sessionId } : RefreshLocks).Sound := by
  refine ⟨fun k (hk : k ∈ r.tickets) => ?_, fun id id' l hid hid' => ?_, fun id l hid => ?_,
    h.exclusive⟩
  · have hk' : r.locks.get k.sessionId = some k.lock := h.mapped k hk
    have hne : k.sessionId ≠ sessionId := fun heq => by
      have hlock : k.lock = lock := by
        rw [heq, hmap, Option.some.injEq] at hk'
        exact hk'.symm
      have hlt := one_lt_strongCount hk hk'
      rw [hlock] at hlt
      omega
    simpa [hne] using hk'
  · simp only [HashMap.get_remove] at hid hid'
    have hinj := h.injective id id' l
    grind
  · simp only [HashMap.get_remove] at hid
    have hlt := h.fresh id l
    grind

theorem Sound.dropGuard (h : r.Sound) (task : TaskId) : (r.dropGuard task).Sound := by
  have hrest := h.of_sublist (List.Sublist.refl r.waiting)
    (List.filter_sublist (p := fun k => k.task ≠ task))
  rw [RefreshLocks.dropGuard]
  split
  · exact h
  · dsimp only
    split
    · exact hrest
    · next lock hmap =>
      split
      · next hcount => exact hrest.remove hmap hcount
      · exact hrest

theorem Sound.prune (h : r.Sound) : r.prune.Sound := by
  have hget : ∀ id lock, r.prune.locks.get id = some lock → r.locks.get id = some lock := by
    intro id lock hid
    rw [RefreshLocks.prune, HashMap.get_retain, Option.filter_eq_some_iff] at hid
    exact hid.1
  refine ⟨fun k (hk : k ∈ r.tickets) => ?_, fun id id' lock hid hid' => ?_,
    fun id lock hid => ?_, h.exclusive⟩
  · have hmap := h.mapped k hk
    have hlt := one_lt_strongCount hk hmap
    rw [RefreshLocks.prune, HashMap.get_retain, hmap, Option.filter_eq_some_iff]
    exact ⟨rfl, by simpa using hlt⟩
  · exact h.injective id id' lock (hget id lock hid) (hget id' lock hid')
  · exact h.fresh id lock (hget id lock hid)

end Sound

end RefreshLocks

end Bff

end WeaveAuth
