import WeaveAuth.Bff.RefreshLock
import WeaveAuth.ForMathlib.Transition

/-!
# The refresh locks in use

Any number of `acquire`s, each an id of its own, with their cancellations, the drops of their guards
and any number of `prune`s, in any order. An `acquire` is two events, and may be cancelled at any
time before the second.

## Main results

* `sound_of_reaches`: `Sound` holds at any time
* `exclusive_and_forgotten`: one guard an id, one mutex for all who are interested in an id, and
  none kept for nobody

## Scope

Every run of the five operations, with any number of tasks and any ids. How bff uses the locks is
not part of it: `System` has `acquire` and the guard's drop at the places where the proxy has them,
and `Sound` among what holds at any time.
-/

namespace WeaveAuth

namespace Bff

namespace RefreshLocks

open Transition

inductive Event where
  /-- `acquire` gets its clone of the id's mutex. -/
  | acquire (task : TaskId) (sessionId : String)
  /-- And the mutex. -/
  | lockOwned (task : TaskId)
  /-- An `acquire` is dropped before it has the mutex. -/
  | cancel (task : TaskId)
  /-- A `RefreshGuard` is dropped. -/
  | dropGuard (task : TaskId)
  | prune

instance (r : RefreshLocks) (task : TaskId) : Decidable (r.Idle task) :=
  inferInstanceAs (Decidable (∀ k ∈ r.tickets, _))

def step (r : RefreshLocks) : Event → Option RefreshLocks
  | .acquire task sessionId => if r.Idle task then some (r.acquire task sessionId) else none
  | .lockOwned task => r.lockOwned task
  | .cancel task => if r.waiting.any (·.task = task) then some (r.cancel task) else none
  | .dropGuard task => if r.guards.any (·.task = task) then some (r.dropGuard task) else none
  | .prune => some r.prune

variable {r r' : RefreshLocks} {e : Event}

/-- What an event does. -/
inductive Steps (r : RefreshLocks) : Event → RefreshLocks → Prop where
  | acquire {task : TaskId} {sessionId : String} (h : r.Idle task) :
      Steps r (.acquire task sessionId) (r.acquire task sessionId)
  | lockOwned {task : TaskId} {r' : RefreshLocks} (h : r.lockOwned task = some r') :
      Steps r (.lockOwned task) r'
  | cancel {task : TaskId} : Steps r (.cancel task) (r.cancel task)
  | dropGuard {task : TaskId} : Steps r (.dropGuard task) (r.dropGuard task)
  | prune : Steps r .prune r.prune

theorem steps_of_step (hs : step r e = some r') : Steps r e r' := by
  cases e with
  | acquire task sessionId =>
    obtain ⟨hidle, h⟩ := Option.ite_none_right_eq_some.mp hs
    exact Option.some.inj h ▸ .acquire hidle
  | lockOwned task => exact .lockOwned hs
  | cancel task =>
    obtain ⟨-, h⟩ := Option.ite_none_right_eq_some.mp hs
    exact Option.some.inj h ▸ .cancel
  | dropGuard task =>
    obtain ⟨-, h⟩ := Option.ite_none_right_eq_some.mp hs
    exact Option.some.inj h ▸ .dropGuard
  | prune => exact Option.some.inj hs ▸ .prune

theorem sound_step (h : r.Sound) (hs : step r e = some r') : r'.Sound := by
  cases steps_of_step hs with
  | acquire => exact h.acquire _ _
  | lockOwned howned => exact h.lockOwned howned
  | cancel => exact h.cancel _
  | dropGuard => exact h.dropGuard _
  | prune => exact h.prune

theorem sound_of_reaches (h : Reaches step Any empty r) : r.Sound :=
  h.invariant sound_empty fun _ _ _ hsound _ hs => sound_step hsound hs

/-! ### What is forgotten -/

/-- A mutex that the map forgets with a count of one is nobody's. -/
theorem not_mem_tickets_of_strongCount {id : String} {lock : LockId}
    (hmap : r.locks.get id = some lock) (hcount : ¬1 < r.strongCount lock) :
    ∀ k ∈ r.tickets, k.lock ≠ lock := by
  rintro k hk rfl
  exact hcount (one_lt_strongCount hk hmap)

/-- **A mutex is forgotten only when nobody has a clone of it.** -/
theorem not_mem_tickets_of_forgotten (hs : step r e = some r') {id : String} {lock : LockId}
    (hmap : r.locks.get id = some lock) (hforgotten : r'.locks.get id ≠ some lock) :
    ∀ k ∈ r'.tickets, k.lock ≠ lock := by
  cases steps_of_step hs with
  | @acquire task sessionId =>
    rw [acquire] at hforgotten
    split at hforgotten
    · exact absurd hmap hforgotten
    · next hnone =>
      have hid : id ≠ sessionId := by
        rintro rfl
        rw [hnone] at hmap
        cases hmap
      exact absurd hmap (by simpa [hid] using hforgotten)
  | lockOwned howned =>
    obtain ⟨k, -, -, -, rfl⟩ := lockOwned_eq howned
    exact absurd hmap hforgotten
  | cancel => exact absurd hmap hforgotten
  | @dropGuard task =>
    rw [dropGuard] at hforgotten ⊢
    split at hforgotten
    · exact absurd hmap hforgotten
    · next g hfind =>
      dsimp only at hforgotten ⊢
      split at hforgotten
      · exact absurd hmap hforgotten
      · next lock' hmap' =>
        split at hforgotten
        · next hcount =>
          have hid : id = g.sessionId := by
            by_contra hid
            exact hforgotten (by simpa [hid] using hmap)
          subst hid
          obtain rfl : lock = lock' := Option.some.inj (hmap.symm.trans hmap')
          rw [if_pos hcount]
          exact not_mem_tickets_of_strongCount
            (r := { r with guards := r.guards.filter (·.task ≠ task) }) hmap (by omega)
        · exact absurd hmap hforgotten
  | prune =>
    refine not_mem_tickets_of_strongCount (r := r) hmap fun hcount => hforgotten ?_
    rw [prune, HashMap.get_retain, hmap, Option.filter_eq_some_iff]
    exact ⟨rfl, decide_eq_true hcount⟩

/-- A mutex that nobody has a clone of has the map's handle alone. -/
theorem Sound.strongCount_le_one (h : r.Sound) (hnone : r.tickets = []) (lock : LockId) :
    r.strongCount lock ≤ 1 := by
  rw [strongCount, hnone, List.filter_nil, List.length_nil, Nat.add_zero]
  have hkeys := r.locks.nodup_map_fst_filter fun e => e.2 = lock
  have hget : ∀ e ∈ r.locks.pairs.filter fun e => e.2 = lock, r.locks.get e.1 = some lock := by
    intro e he
    obtain ⟨hpair, hlock⟩ := List.mem_filter.mp he
    exact HashMap.mem_pairs.mp (by rw [← of_decide_eq_true hlock]; exact hpair)
  generalize (r.locks.pairs.filter fun e => e.2 = lock) = entries at hkeys hget ⊢
  rcases entries with _ | ⟨e, _ | ⟨e', rest⟩⟩
  · exact Nat.zero_le 1
  · exact Nat.le_refl 1
  · have hsame := h.injective e.1 e'.1 lock (hget e (by simp)) (hget e' (by simp))
    simp [hsame] at hkeys

/-- **Exclusive, and nothing leaks.** However acquires, cancellations, guard drops and prunes
interleave: at most one guard of a session id is live; all who wait for an id's turn or have it do
so at one mutex; a mutex is forgotten only when nobody has a clone of it; and once nobody waits and
no guard is live, a `prune` leaves nothing behind. -/
theorem exclusive_and_forgotten (h : Reaches step Any empty r) :
    (r.guards.map Ticket.sessionId).Nodup ∧
    (∀ k ∈ r.tickets, ∀ g ∈ r.tickets, k.sessionId = g.sessionId → k.lock = g.lock) ∧
    (∀ e r' id lock, step r e = some r' → r.locks.get id = some lock →
      r'.locks.get id ≠ some lock → ∀ k ∈ r'.tickets, k.lock ≠ lock) ∧
    (r.tickets = [] → r.prune.locks.pairs = []) := by
  have hsound := sound_of_reaches h
  have hlock : ∀ k ∈ r.tickets, ∀ g ∈ r.tickets, k.sessionId = g.sessionId → k.lock = g.lock := by
    intro k hk g hg hid
    have hk' := hsound.mapped k hk
    rw [hid, hsound.mapped g hg, Option.some.injEq] at hk'
    exact hk'.symm
  refine ⟨?_, hlock, fun e r' id lock hs hmap => not_mem_tickets_of_forgotten hs hmap,
    fun hnone => ?_⟩
  · have hnodup : r.guards.Nodup := List.Nodup.of_map _ hsound.exclusive
    refine hnodup.map_on fun k hk g hg hid => ?_
    exact List.inj_on_of_nodup_map hsound.exclusive hk hg
      (hlock k (mem_tickets.mpr (Or.inr hk)) g (mem_tickets.mpr (Or.inr hg)) hid)
  · refine List.eq_nil_iff_forall_not_mem.mpr fun ⟨id, lock⟩ hmem => ?_
    have hget := HashMap.mem_pairs.mp hmem
    rw [prune, HashMap.get_retain, Option.filter_eq_some_iff] at hget
    have hle := hsound.strongCount_le_one hnone lock
    have hlt := of_decide_eq_true hget.2
    omega

/-- Two tasks want one id's turn; one has it, and the other is cancelled. -/
def Sample.cancelled : List Event :=
  [.acquire 0 "a", .acquire 1 "a", .lockOwned 0, .cancel 1, .acquire 2 "b", .cancel 2]

/-- The first task's guard is live and alone; the id whose only waiter went away is still mapped. -/
theorem exclusive_and_forgotten_cancelled : ∃ r,
    run step empty Sample.cancelled = some r ∧ r.locks.get "b" = some 1 ∧
    r.Holds 0 "a" ∧ (r.guards.map Ticket.sessionId).Nodup := by
  obtain ⟨r, hr, hreaches, hp⟩ := exists_run
    (fun r : RefreshLocks => decide (r.locks.get "b" = some 1 ∧ r.guards = [⟨0, "a", 0⟩]))
    (by decide : (run step empty Sample.cancelled).any _ = true)
  obtain ⟨hmap, hguards⟩ := of_decide_eq_true hp
  refine ⟨r, hr, hmap, ⟨⟨0, "a", 0⟩, ?_, rfl, rfl⟩, (exclusive_and_forgotten hreaches).1⟩
  rw [hguards]
  exact List.mem_singleton_self _

end RefreshLocks

end Bff

end WeaveAuth
