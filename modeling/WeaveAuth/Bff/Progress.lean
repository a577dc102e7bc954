import WeaveAuth.Bff.Invariant
import WeaveAuth.ForMathlib.Variant

/-!
# Every request ends

A request is a few steps long, and nothing it waits for can stay away for good. What it waits for
is Hydra's answer, a revocation task, or another request's turn, and whoever has a turn can go on
itself: a turn is never waited for by a task that has one.

`Task.rank` counts the steps a task has left, and a call that Hydra has yet to answer and tokens
yet to be revoked are a step each. Every event takes one off. Only a request that arrives brings
new ones, at most eight.

## Main results

* `variant`: every event takes a step off the work that is left
* `settled_of_atRest`: where nothing can happen any more, everything is done
* `requests_end`

## What is assumed

No fairness: `requests_end` bounds the number of events of any run, and says what a state is in
which none can happen. That such a state is reached is then a matter of whoever schedules. Hydra is
among the events, so a call that it never answers is a state in which something can still happen.

## Implementation notes

Taking a turn does not need the turn's mutex to be given to anybody in particular, and a task that
has a turn waits for nothing that another has: `lockOwned` and Hydra's answer are the only waits,
and they are never waits for each other. So the measure is a sum over tasks, without an order among
them.

The clock is not set back, and it need not go on either: time is no part of the measure.
-/

namespace WeaveAuth

namespace Bff

open Transition

variable {env : Env} {t u : TaskId} {i : Input} {w w' : World}

/-! ### The turns -/

/-- Task `t`, which stands at `o`, waits for a turn and has one only where its code says so. -/
structure Queued (t : TaskId) (o : Option Task) (r : RefreshLocks) : Prop where
  waiting : ∀ k ∈ r.waiting, k.task = t → ∃ id, o = some (.proxied id .acquire)
  guards : ∀ k ∈ r.guards, k.task = t → o.any Task.hasTurn = true
  waits : ∀ id, o = some (.proxied id .acquire) → ∃ k ∈ r.waiting, k.task = t

theorem Queued.of_idle {o : Option Task} {r : RefreshLocks}
    (hwaiting : ∀ k ∈ r.waiting, k.task ≠ t) (hguards : ∀ k ∈ r.guards, k.task ≠ t)
    (ho : ∀ id, o ≠ some (.proxied id .acquire)) : Queued t o r where
  waiting k hk htask := absurd htask (hwaiting k hk)
  guards k hk htask := absurd htask (hguards k hk)
  waits id h := absurd h (ho id)

section Queued

variable {task task' : Task} {r r' : RefreshLocks}

theorem Queued.not_waiting (h : Queued t (some task) r) (ho : ∀ id, task ≠ .proxied id .acquire) :
    ∀ k ∈ r.waiting, k.task ≠ t := by
  intro k hk htask
  obtain ⟨id, heq⟩ := h.waiting k hk htask
  exact ho id (Option.some.inj heq)

theorem Queued.no_guard (h : Queued t (some task) r) (hturn : task.hasTurn = false) :
    ∀ k ∈ r.guards, k.task ≠ t := by
  intro k hk htask
  have hhas : task.hasTurn = true := h.guards k hk htask
  rw [hturn] at hhas
  cases hhas

/-- A task that neither waits nor has a turn goes on to where it does neither. -/
theorem Queued.idle (h : Queued t (some task) r) (ho : ∀ id, task ≠ .proxied id .acquire)
    (hturn : task.hasTurn = false) (ho' : ∀ id, task' ≠ .proxied id .acquire) :
    Queued t (some task') r :=
  .of_idle (h.not_waiting ho) (h.no_guard hturn) fun id heq => ho' id (Option.some.inj heq)

/-- One that has its turn keeps it. -/
theorem Queued.keep (h : Queued t (some task) r) (ho : ∀ id, task ≠ .proxied id .acquire)
    (hturn : task'.hasTurn = true) : Queued t (some task') r where
  waiting k hk htask := absurd htask (h.not_waiting ho k hk)
  guards _ _ _ := hturn
  waits id heq := by
    cases heq
    cases hturn

/-- It lets go of it. -/
theorem Queued.release (h : Queued t (some task) r) (ho : ∀ id, task ≠ .proxied id .acquire)
    (ho' : ∀ id, task' ≠ .proxied id .acquire) : Queued t (some task') (r.dropGuard t) :=
  .of_idle (by rw [RefreshLocks.waiting_dropGuard]; exact h.not_waiting ho)
    (fun k hk => by
      rw [RefreshLocks.guards_dropGuard, List.mem_filter] at hk
      simpa using hk.2)
    fun id heq => ho' id (Option.some.inj heq)

theorem Queued.acquire (h : Queued t (some task) r) (hturn : task.hasTurn = false) (id : String) :
    Queued t (some (.proxied id .acquire)) (r.acquire t id) where
  waiting _ _ _ := ⟨id, rfl⟩
  guards k hk htask := by
    rw [RefreshLocks.guards_acquire] at hk
    exact absurd htask (h.no_guard hturn k hk)
  waits _ _ := by
    obtain ⟨lock, hwaiting⟩ := r.waiting_acquire t id
    exact ⟨⟨t, id, lock⟩, by rw [hwaiting]; exact List.mem_cons_self, rfl⟩

theorem Queued.lockOwned (hr : r.lockOwned t = some r') (hturn : task'.hasTurn = true) :
    Queued t (some task') r' where
  waiting k hk htask := by
    obtain ⟨g, -, -, -, rfl⟩ := RefreshLocks.lockOwned_eq hr
    simp [htask] at hk
  guards _ _ _ := hturn
  waits id heq := by
    cases heq
    cases hturn

theorem Queued.cancel (h : Queued t (some task) r) (hturn : task.hasTurn = false)
    (ho' : ∀ id, task' ≠ .proxied id .acquire) : Queued t (some task') (r.cancel t) :=
  .of_idle (fun k hk => by
      rw [RefreshLocks.cancel, List.mem_filter] at hk
      simpa using hk.2)
    (h.no_guard hturn) fun id heq => ho' id (Option.some.inj heq)

theorem Queued.frame {o : Option Task} (h : Queued t o r) (hframe : r.Frame r' u) (htu : t ≠ u) :
    Queued t o r' where
  waiting k hk htask := h.waiting k ((hframe.waiting k (htask ▸ htu)).mp hk) htask
  guards k hk htask := h.guards k ((hframe.guards k (htask ▸ htu)).mp hk) htask
  waits id heq := by
    obtain ⟨k, hk, htask⟩ := h.waits id heq
    exact ⟨k, (hframe.waiting k (htask ▸ htu)).mpr hk, htask⟩

end Queued

theorem Resumes.queued {task task' : Task} (h : Resumes env t i w task w' task')
    (hq : Queued t (some task) w.refreshLocks) : Queued t (some task') w'.refreshLocks := by
  cases h with
  | acquire => exact hq.acquire rfl _
  | lockOwned hlock => exact .lockOwned hlock rfl
  | noSessionAgain | freshAgain | unavailable | updateSession | takeRefused | revokeLate =>
    exact hq.release (by simp) (by simp)
  | refresh | tokens | rejected | sessionGone => exact hq.keep (by simp) rfl
  | sweepJtis => exact .of_idle (hq.not_waiting (by simp)) (hq.no_guard rfl) (by simp)
  | _ => exact hq.idle (by simp) rfl (by simp [started])

theorem Starts.queued {request : Request} {now : DateTime} {task : Task}
    (h : Starts env t now w request w' task) (hq : Queued t none w.refreshLocks) :
    Queued t (some task) w'.refreshLocks := by
  have hwaiting : ∀ k ∈ w.refreshLocks.waiting, k.task ≠ t := fun k hk htask => by
    obtain ⟨id, heq⟩ := hq.waiting k hk htask
    cases heq
  have hguards : ∀ k ∈ w.refreshLocks.guards, k.task ≠ t := fun k hk htask => by
    cases hq.guards k hk htask
  cases h <;> exact .of_idle hwaiting hguards (by simp)

theorem Drops.queued {task : Task} (h : Drops t w task w')
    (hq : Queued t (some task) w.refreshLocks) : Queued t (some .dropped) w'.refreshLocks := by
  cases h with
  | cancel => exact hq.cancel rfl (by simp)
  | release hturn =>
    refine hq.release (fun id heq => ?_) (by simp)
    rw [heq] at hturn
    cases hturn
  | nothing hturn hwaits => exact hq.idle hwaits hturn (by simp)

/-- Every task waits for a turn and has one only where its code says so. -/
def Orderly (c : State) : Prop := ∀ t, Queued t (c.thread t) c.shared.refreshLocks

theorem orderly_step {c c' : State} {e : Event} (hinv : Inv env c) (h : Orderly c)
    (hs : step env c e = some c') : Orderly c' := by
  intro t
  have hq := h t
  cases seenBy_of_step hinv hs t with
  | other htu g hquiet hthread => exact hthread ▸ hq.frame g.locks htu
  | hydra => exact hq
  | start hthread htimely hstart =>
    rw [hthread] at hq
    rw [Threads.thread_move_self]
    exact hstart.queued hq
  | resume hthread htimely hnow hresumes =>
    rw [hthread] at hq
    rw [Threads.thread_move_self]
    exact hresumes.queued hq
  | drop hthread hdrops =>
    rw [hthread] at hq
    rw [Threads.thread_move_self]
    exact hdrops.queued hq

theorem orderly_start (now : DateTime) : Orderly (State.start now) := fun _ =>
  .of_idle (fun _ hk => by cases hk) (fun _ hk => by cases hk) fun _ heq => by cases heq

/-! ### The work that is left -/

/-- The steps a task has left, with the calls and the revocation tasks they make. -/
def Resolve.rank : Resolve → ℕ
  | .getSession => 7
  | .acquire => 6
  | .getSessionAgain => 5
  | .refresh _ => 3
  | .updateSession _ => 2
  | .takeSession _ _ | .revoke _ => 1

def EndSession.rank : EndSession → ℕ
  | .takeSession _ => 2
  | .revoke _ => 1

def EndSessions.rank : EndSessions → ℕ
  | .revoke _ => 3
  | .join => 1

def Complete.rank : Complete → ℕ
  | .exchangeCode _ _ => 7
  | .verifyIdToken _ _ _ _ _ => 6
  | .saveSession _ _ _ _ => 5
  | .revokeEvicted _ _ _ => 3
  | .endSession _ _ here => here.rank

def Backchannel.rank : Backchannel → ℕ
  | .verifyLogoutToken => 5
  | .record _ _ => 4
  | .endSessions here => here.rank

def Sweep.rank : Sweep → ℕ
  | .sessions _ => 2
  | .logoutJtis _ => 1

def Task.rank : Task → ℕ
  | .proxied _ here => here.rank
  | .callback here => here.rank
  | .logout _ here => here.rank
  | .backchannelLogout here => here.rank
  | .internalRevoke here => here.rank
  | .sweep here => here.rank
  | .answered _ | .dropped => 0

attribute [simp] Resolve.rank EndSession.rank EndSessions.rank Complete.rank Backchannel.rank
  Sweep.rank Task.rank

/-- Hydra has yet to answer the task's call. -/
def World.awaits (w : World) (t : TaskId) : Bool :=
  (w.hydra.calls t).any fun call => call.answer.isNone

/-- What others have yet to do for the task: answer its call, revoke its tokens. -/
def World.owed (w : World) (t : TaskId) : ℕ :=
  (w.awaits t).toNat + (decide (w.spawned t ≠ [])).toNat

/-- The work that a task is. -/
def workOf (c : State) (t : TaskId) : ℕ := (c.thread t).elim 0 Task.rank + c.shared.owed t

/-- A call to Hydra, or tokens left to a revocation task, is one step more. -/
theorem lt_owed_call {m n : ℕ} (howed : w'.owed t = w.owed t) (grant : Grant) (h : m + 1 < n) :
    m + (w'.call t grant).owed t < n + w.owed t := by
  have hle := Bool.toNat_le ((w'.call t grant).awaits t)
  have hspawned : (w'.call t grant).spawned = w'.spawned := rfl
  rw [← howed, World.owed, World.owed, hspawned]
  omega

theorem lt_owed_spawn {m n : ℕ} (howed : w'.owed t = w.owed t) (ended : List SessionData)
    (h : m + 1 < n) : m + (w'.spawn t ended).owed t < n + w.owed t := by
  have hle := Bool.toNat_le (decide ((w'.spawn t ended).spawned t ≠ []))
  have hawaits : (w'.spawn t ended).awaits t = w'.awaits t := rfl
  rw [← howed, World.owed, World.owed, hawaits]
  omega

/-- What was settled stays so. -/
theorem owed_le (hcall : w.awaits t = false → w'.awaits t = false)
    (hspawned : w.spawned t = [] → w'.spawned t = []) : w'.owed t ≤ w.owed t :=
  Nat.add_le_add (Bool.toNat_le_toNat fun h => by by_contra hne; simp_all)
    (Bool.toNat_le_toNat fun h => by simpa using fun hnil => of_decide_eq_true h (hspawned hnil))

/-- A step of one task leaves the others no more to do. -/
theorem Guarantee.owed_le (g : Guarantee u w w') (htu : t ≠ u) : w'.owed t ≤ w.owed t := by
  refine Bff.owed_le (fun hcall => ?_) fun hnil => ?_
  · cases hcalls : w.hydra.calls t with
    | none => rw [World.awaits, g.calls t htu hcalls]; rfl
    | some call =>
      obtain ⟨grant, _ | answer⟩ := call
      · rw [World.awaits, hcalls] at hcall
        cases hcall
      · rw [World.awaits, g.hydra.answers t grant answer hcalls]
        rfl
  · rcases g.spawned t htu with heq | heq
    · rw [heq, hnil]
    · exact heq

/-- **A task's own step takes a step off its work.** -/
theorem Resumes.rank_lt {task task' : Task} (h : Resumes env t i w task w' task') :
    task'.rank + w'.owed t < task.rank + w.owed t := by
  cases h with
  | refresh => exact lt_owed_call rfl _ (by simp)
  | saveSession | endBackchannel | endInternal => exact lt_owed_spawn rfl _ (by simp)
  | _ => exact Nat.add_lt_add_right (by simp) (w.owed t)

/-- A request that arrives is eight steps at most. -/
theorem Starts.rank_lt {request : Request} {now : DateTime} {task : Task}
    (h : Starts env t now w request w' task) : task.rank + w'.owed t < 9 + w.owed t := by
  cases h with
  | exchange => exact lt_owed_call rfl _ (by simp)
  | _ => exact Nat.add_lt_add_right (by simp) (w.owed t)

/-- A task with no step left has ended. -/
theorem Task.of_rank_zero {task : Task} (h : ¬ 0 < task.rank) :
    task = .dropped ∨ ∃ outcome, task = .answered outcome := by
  cases task with
  | answered outcome => exact Or.inr ⟨outcome, rfl⟩
  | dropped => exact Or.inl rfl
  | proxied id here => cases here <;> simp at h
  | callback here =>
    cases here with
    | endSession pending id here => cases here <;> simp at h
    | _ => simp at h
  | logout redirectUri here => cases here <;> simp at h
  | backchannelLogout here =>
    cases here with
    | endSessions here => cases here <;> simp at h
    | _ => simp at h
  | internalRevoke here => cases here <;> simp at h
  | sweep here => cases here <;> simp at h

theorem Task.drop_rank_pos {task : Task} (h : task.drop t w = some w') : 0 < task.rank := by
  by_contra hrank
  rcases Task.of_rank_zero hrank with rfl | ⟨outcome, rfl⟩ <;> cases h

theorem Drops.owed {task : Task} (h : Drops t w task w') : w'.owed t = w.owed t := by
  cases h <;> rfl

theorem owed_serve {now : DateTime} {effect : Effect} {answer : Answer} {hydra : HydraServer}
    (h : w.hydra.serve t now effect answer = some hydra) :
    ({ w with hydra := hydra } : World).owed t < w.owed t := by
  obtain ⟨grant, h₁, hcall, -, -, -, rfl⟩ := HydraServer.serve_eq h
  simp [World.owed, World.awaits, hcall]

theorem owed_runSpawned (h : w.spawned t ≠ []) : (w.runSpawned t).owed t < w.owed t := by
  simp [World.owed, World.awaits, World.runSpawned, h]

/-! ### Every event takes a step off -/

/-- A request arrives. -/
def Event.arrives : Event → Bool
  | .start _ _ _ => true
  | _ => false

/-- The steps it brings. -/
def Event.credit (e : Event) : ℕ := if e.arrives then 9 else 0

theorem guarantee_task {c c' : State} {e : Event} (hinv : Inv env c)
    (hs : step env c e = some c') : Guarantee e.task c.shared c'.shared := by
  cases steps_of_step hs with
  | start hthread htimely h => exact h.guarantee (hinv.unused hthread) htimely
  | resume hthread htimely hnow h => exact h.guarantee (hinv.standing hthread) htimely hnow
  | drop hthread h => exact h.guarantee
  | hydra hnow h => exact .serve h
  | spawned => exact .runSpawned _

theorem work_le_of_step {c c' : State} {e : Event} (hinv : Inv env c)
    (hs : step env c e = some c') (ht : t ≠ e.task) : workOf c' t ≤ workOf c t := by
  rw [workOf, workOf, thread_step (Ne.symm ht) hs]
  exact Nat.add_le_add_left ((guarantee_task hinv hs).owed_le ht) _

theorem work_lt_of_step {c c' : State} {e : Event} (hs : step env c e = some c') :
    workOf c' e.task < workOf c e.task + e.credit := by
  cases steps_of_step hs with
  | @start t request now w task hthread htimely h =>
    have hlt := h.rank_lt
    simp only [workOf, Event.task, Threads.thread_move_self, Threads.shared_move, hthread,
      Option.elim_none, Option.elim_some, Event.credit, Event.arrives, if_true]
    omega
  | @resume t i task task' w hthread htimely hnow h =>
    have hlt := h.rank_lt
    simpa [workOf, Event.task, hthread, Event.credit, Event.arrives] using hlt
  | @drop t task w hthread h =>
    have hpos : 0 < task.rank := by
      simp only [step, hthread] at hs
      obtain ⟨w', hdrop, -⟩ := Option.map_eq_some_iff.mp hs
      exact Task.drop_rank_pos hdrop
    simpa [workOf, Event.task, hthread, Event.credit, Event.arrives, h.owed] using hpos
  | hydra hnow h =>
    have hlt := owed_serve h
    simpa [workOf, Event.task, Event.credit, Event.arrives] using hlt
  | @spawned t =>
    have hne : c.shared.spawned t ≠ [] := fun hnil => by
      simp [step, hnil] at hs
    simpa [workOf, Event.task, Event.credit, Event.arrives] using owed_runSpawned hne

theorem work_of_none {c : State} (hinv : Inv env c) (ht : c.thread t = none) : workOf c t = 0 := by
  have hstanding := hinv.thread t
  rw [ht] at hstanding
  simp [workOf, ht, World.owed, World.awaits, hstanding.1.calls, hstanding.2]

/-- **Every event takes a step off the work that is left.** The tasks are those below `n`. -/
theorem variant (env : Env) (n : ℕ) : Variant (step env) (fun e => e.arrives = true → e.task < n)
    (fun c => Inv env c ∧ ∀ t, n ≤ t → c.thread t = none)
    (fun c => ∑ t ∈ Finset.range n, workOf c t) Event.credit where
  keeps c e c' hI he hs := by
    obtain ⟨hinv, hnone⟩ := hI
    refine ⟨inv_step hinv hs, fun t ht => ?_⟩
    by_contra hsome
    have hte : e.task = t := by
      by_contra hne
      exact hsome ((thread_step hne hs).trans (hnone t ht))
    subst hte
    cases steps_of_step hs with
    | start => exact absurd (he rfl) (not_lt.mpr ht)
    | resume hthread | drop hthread =>
      have hthread' := hnone _ ht
      simp only [Event.task] at hthread'
      rw [hthread] at hthread'
      cases hthread'
    | hydra | spawned => exact hsome (hnone _ ht)
  lt c e c' hI he hs := by
    obtain ⟨hinv, hnone⟩ := hI
    have hlt := work_lt_of_step hs
    refine sum_lt_of_lt ?_ hlt fun u hu => work_le_of_step hinv hs hu
    by_contra hle
    have harrives : e.arrives = false := by
      cases h : e.arrives with
      | true => exact absurd (he h) hle
      | false => rfl
    simp [Event.credit, harrives, work_of_none hinv (hnone _ (not_lt.mp hle))] at hlt

/-! ### Nobody is stuck -/

/-- A moment when anything may run, and an id_token does not verify. -/
def World.ready (w : World) : Input where
  now := max w.clock w.hydra.lastAt
  now' := max w.clock w.hydra.lastAt
  idTokenError := some .accessTokenHashMismatch

theorem World.timely_ready (w : World) : w.Timely w.ready.now :=
  ⟨le_max_left _ _, le_max_right _ _⟩

/-- Hydra can always take up a call, if only to fail. -/
theorem exists_serve {h : HydraServer} {grant : Grant} {now : DateTime}
    (hcall : h.calls t = some ⟨grant, none⟩) (hnow : h.lastAt ≤ now) :
    (h.serve t now .nothing (.error "")).isSome = true := by
  have hagrees : Effect.nothing.agrees (.error "") = true := rfl
  rw [HydraServer.serve, hcall]
  simp [hagrees, hnow, HydraServer.perform]

theorem exists_answer (hawaits : w.awaits t = false) {grant : Grant}
    (hcall : ∃ answer, w.hydra.calls t = some ⟨grant, answer⟩) :
    ∃ answer, w.hydra.answer? t = some answer := by
  obtain ⟨_ | answer, hcall⟩ := hcall
  · rw [World.awaits, hcall] at hawaits
    cases hawaits
  · exact ⟨answer, by rw [HydraServer.answer?, hcall]; rfl⟩

theorem Resolve.can_resume {id : String} {here : Resolve} (hown : here.Standing env t w id)
    (hawaits : w.awaits t = false)
    (hturn : here = .acquire → (w.refreshLocks.lockOwned t).isSome = true) :
    (here.resume env t w.ready id w).isSome = true := by
  cases here with
  | getSession =>
    simp only [resume]
    split
    · rfl
    · split
      · rfl
      · split <;> rfl
  | acquire =>
    simp only [resume, Option.isSome_map]
    exact hturn rfl
  | getSessionAgain =>
    simp only [resume]
    split
    · rfl
    · split <;> rfl
  | refresh session =>
    obtain ⟨answer, hanswer⟩ := exists_answer hawaits (Refreshing.call hown)
    simp only [resume, hanswer]
    rfl
  | updateSession data =>
    simp only [resume]
    split <;> rfl
  | takeSession endpoint status => rfl
  | revoke refreshToken => rfl

theorem EndSessions.can_resume (here : EndSessions) (hspawned : w.spawned t = []) :
    (here.resume t w).isSome = true := by
  cases here with
  | revoke selector => rfl
  | join => simp [resume, hspawned]

theorem Complete.can_resume {here : Complete} (hown : here.Standing env t w)
    (hawaits : w.awaits t = false) (hspawned : w.spawned t = []) :
    (here.resume env t w.ready w).isSome = true := by
  cases here with
  | exchangeCode pending previous =>
    obtain ⟨-, code, verifier, hcall⟩ := hown
    obtain ⟨answer, hanswer⟩ := exists_answer hawaits hcall
    simp only [resume, hanswer]
    rfl
  | verifyIdToken pending previous tokens idToken refreshToken => rfl
  | saveSession pending previous id data => rfl
  | revokeEvicted pending previous id =>
    simp only [resume, hspawned]
    cases previous <;> rfl
  | endSession pending id here =>
    simp only [Complete.resume]
    split <;> rfl

theorem Backchannel.can_resume (here : Backchannel) (hspawned : w.spawned t = []) :
    (here.resume env t w.ready w).isSome = true := by
  cases here with
  | verifyLogoutToken => rfl
  | record claims now =>
    simp only [resume]
    split <;> rfl
  | endSessions here =>
    simp only [Backchannel.resume, Option.isSome_map]
    exact here.can_resume hspawned

/-- **A task that has not ended can go on**, unless it waits for Hydra, for a revocation task or
for a turn. -/
theorem Task.can_resume {task : Task} (hown : Bff.Standing env t w (some task))
    (hrank : 0 < task.rank) (hawaits : w.awaits t = false) (hspawned : w.spawned t = [])
    (hturn : (∃ id, task = .proxied id .acquire) →
      (w.refreshLocks.lockOwned t).isSome = true) :
    (task.resume env t w.ready w).isSome = true := by
  cases task with
  | proxied id here =>
    exact Resolve.can_resume hown.1 hawaits fun heq => hturn ⟨id, by rw [heq]⟩
  | callback here => exact Complete.can_resume hown.1 hawaits hspawned
  | logout redirectUri here => rfl
  | backchannelLogout here => exact @Backchannel.can_resume env t w here hspawned
  | internalRevoke here =>
    simp only [Task.resume, internalRevokeResume, Option.isSome_map]
    exact here.can_resume hspawned
  | sweep here => rfl
  | answered outcome => exact absurd hrank (lt_irrefl 0)
  | dropped => exact absurd hrank (lt_irrefl 0)

theorem Task.rank_pos_of_hasTurn {task : Task} (h : task.hasTurn = true) :
    0 < task.rank ∧ ∀ id, task ≠ .proxied id .acquire := by
  cases task with
  | proxied id here => cases here <;> simp_all [Task.hasTurn]
  | _ => cases h

/-- A waiter gets its turn, or somebody has it. -/
theorem lockOwned_or {r : RefreshLocks} (h : ∃ k ∈ r.waiting, k.task = t) :
    (r.lockOwned t).isSome = true ∨ ∃ g, g ∈ r.guards := by
  obtain ⟨k, hk, htask⟩ := h
  have hfind : (r.waiting.find? (·.task = t)).isSome = true :=
    List.find?_isSome.mpr ⟨k, hk, by simpa using htask⟩
  obtain ⟨k', hk'⟩ := Option.isSome_iff_exists.mp hfind
  rw [RefreshLocks.lockOwned, hk']
  dsimp only
  split
  · next hany =>
    obtain ⟨g, hg, -⟩ := List.any_eq_true.mp hany
    exact Or.inr ⟨g, hg⟩
  · exact Or.inl rfl

/-! ### What is left in the end -/

/-- An event that does not come from outside: no request arrives and none is dropped. -/
def Event.own : Event → Bool
  | .start _ _ _ | .drop _ => false
  | _ => true

/-- Everything is done, and nothing left behind. -/
structure Settled (c : State) : Prop where
  done : ∀ t task, c.thread t = some task → task = .dropped ∨ ∃ outcome, task = .answered outcome
  answered : ∀ t, c.shared.awaits t = false
  revoked : ∀ t, c.shared.spawned t = []
  turns : c.shared.refreshLocks.tickets = []

section AtRest

variable {c : State}

theorem spawned_of_atRest (hrest : AtRest (step env) (fun e => e.own = true) c) (t : TaskId) :
    c.shared.spawned t = [] := by
  by_contra hne
  have hnone := hrest (.spawned t) rfl
  rw [step, if_neg hne] at hnone
  cases hnone

theorem awaits_of_atRest (hrest : AtRest (step env) (fun e => e.own = true) c) (t : TaskId) :
    c.shared.awaits t = false := by
  cases hawaits : c.shared.awaits t with
  | false => rfl
  | true =>
    obtain ⟨⟨grant, answer⟩, hcall, hpending⟩ := (Option.any_eq_true _ _).mp hawaits
    obtain rfl : answer = none := by simpa using hpending
    obtain ⟨hydra, hserve⟩ := Option.isSome_iff_exists.mp
      (exists_serve hcall (le_max_right c.shared.clock c.shared.hydra.lastAt))
    have hnone := hrest (.hydra t (max c.shared.clock c.shared.hydra.lastAt) .nothing (.error ""))
      rfl
    rw [step, if_pos (le_max_left _ _), hserve] at hnone
    cases hnone

theorem not_resumable {task : Task} (hrest : AtRest (step env) (fun e => e.own = true) c)
    (hthread : c.thread t = some task) :
    (task.resume env t c.shared.ready c.shared).isSome = false := by
  have hnone := hrest (.resume t c.shared.ready) rfl
  simp only [step, hthread] at hnone
  rw [if_pos ⟨c.shared.timely_ready, le_refl _⟩, Option.map_eq_none_iff] at hnone
  rw [hnone]
  rfl

/-- **Where nothing can happen any more, everything is done.** -/
theorem settled_of_atRest (hinv : Inv env c) (horderly : Orderly c)
    (hrest : AtRest (step env) (fun e => e.own = true) c) : Settled c := by
  have hstuck : ∀ {t task}, c.thread t = some task → 0 < task.rank →
      (∃ id, task = .proxied id .acquire) ∧ (c.shared.refreshLocks.lockOwned t).isSome = false := by
    intro t task hthread hrank
    by_contra hfree
    have hresume := Task.can_resume (hinv.standing hthread) hrank (awaits_of_atRest hrest t)
      (spawned_of_atRest hrest t) fun hacquire => by
        by_contra hlocked
        exact hfree ⟨hacquire, by simpa using hlocked⟩
    rw [not_resumable hrest hthread] at hresume
    cases hresume
  -- whoever has a turn could go on, so nobody has one, and nobody waits
  have hguards : ∀ g, g ∉ c.shared.refreshLocks.guards := by
    intro g hg
    obtain ⟨task, hthread, hturn⟩ :=
      (Option.any_eq_true _ _).mp ((horderly g.task).guards g hg rfl)
    obtain ⟨hrank, hne⟩ := Task.rank_pos_of_hasTurn hturn
    obtain ⟨⟨id, heq⟩, -⟩ := hstuck hthread hrank
    exact hne id heq
  have hdone : ∀ t task, c.thread t = some task →
      task = .dropped ∨ ∃ outcome, task = .answered outcome := by
    intro t task hthread
    refine Task.of_rank_zero fun hrank => ?_
    obtain ⟨⟨id, rfl⟩, hlocked⟩ := hstuck hthread hrank
    rcases lockOwned_or ((horderly t).waits id hthread) with hfree | ⟨g, hg⟩
    · rw [hlocked] at hfree
      cases hfree
    · exact hguards g hg
  refine ⟨hdone, awaits_of_atRest hrest, spawned_of_atRest hrest, ?_⟩
  refine List.eq_nil_iff_forall_not_mem.mpr fun k hk => ?_
  rcases RefreshLocks.mem_tickets.mp hk with hk | hk
  · obtain ⟨id, hthread⟩ := (horderly k.task).waiting k hk rfl
    rcases hdone _ _ hthread with heq | ⟨outcome, heq⟩ <;> cases heq
  · exact hguards k hk

end AtRest

/-! ### Runs -/

theorem orderly_of_reaches {now : DateTime} {c : State}
    (h : Reaches (step env) Any (State.start now) c) : Orderly c :=
  h.invariant_of (Q := Inv env) (fun _ => inv_of_reaches) (orderly_start now)
    fun _ _ _ hinv horderly _ hs => orderly_step hinv horderly hs

theorem sum_credit (es : List Event) :
    (es.map Event.credit).sum = 9 * es.countP Event.arrives := by
  induction es with
  | nil => rfl
  | cons e es ih =>
    rw [List.map_cons, List.sum_cons, ih, List.countP_cons, Event.credit]
    split <;> omega

/-- **Every request ends.** A run in which requests arrive is at most nine events long for each:
in whatever order the tasks run, are dropped, and Hydra answers. While anything is left to do,
some task can go on, Hydra can answer or a revocation task can run, and any choice of these comes
to an end, with every request answered or dropped, every token that was to be revoked sent to
Hydra, and nobody with a turn or waiting for one. -/
theorem requests_end {now : DateTime} {es : List Event} {c : State}
    (hrun : run (step env) (State.start now) es = some c) :
    es.length ≤ 9 * es.countP Event.arrives ∧
    (AtRest (step env) (fun e => e.own = true) c → Settled c) ∧
    ∃ fs c', (∀ e ∈ fs, e.own = true) ∧ run (step env) c fs = some c' ∧ Settled c' := by
  obtain ⟨n, hn⟩ : ∃ n, ∀ e ∈ es, e.task < n := by
    refine ⟨(es.map Event.task).sum + 1, fun e he => Nat.lt_succ_of_le ?_⟩
    exact List.single_le_sum (fun _ _ => Nat.zero_le _) _ (List.mem_map_of_mem he)
  have hI : Inv env (State.start now) ∧ ∀ t, n ≤ t → (State.start now).thread t = none :=
    ⟨inv_start env now, fun _ _ => rfl⟩
  have hsettled : ∀ {c}, Reaches (step env) Any (State.start now) c →
      AtRest (step env) (fun e => e.own = true) c → Settled c := fun hc hrest =>
    settled_of_atRest (inv_of_reaches hc) (orderly_of_reaches hc) hrest
  have hc : Reaches (step env) Any (State.start now) c :=
    reaches_of_run (allowed_of_forall (fun _ _ => trivial) es _) hrun
  have hown : Variant (step env) (fun e => e.own = true) _ _ Event.credit :=
    (variant env n).mono fun e he harrives => by
      cases e <;> simp_all [Event.own, Event.arrives]
  obtain ⟨fs, c', hfs, hrun', hrest⟩ := hown.exists_rest
    (fun e he => by cases e <;> simp_all [Event.own, Event.credit, Event.arrives])
    ((variant env n).run_keeps hI (fun e he _ => hn e he) hrun)
  have hc' : Reaches (step env) Any c c' :=
    reaches_of_run (allowed_of_forall (fun _ _ => trivial) fs _) hrun'
  refine ⟨?_, hsettled hc, fs, c', hfs, hrun', hsettled (hc.trans hc') hrest⟩
  have hlength := (variant env n).length_add_le hI (fun e he _ => hn e he) hrun
  have hzero : ∑ t ∈ Finset.range n, workOf (State.start now) t = 0 :=
    Finset.sum_eq_zero fun t _ => work_of_none (inv_start env now) rfl
  rw [sum_credit, hzero] at hlength
  omega

/-- A request that waits for Hydra to refresh its session. -/
theorem requests_end_refresh : ∃ c fs c',
    run (step Sample.env) (State.start 0)
      (Sample.login 0 "a" 0 "access" "refresh" ++ Sample.refresh 1 "a" 900000000000) = some c ∧
    (c.thread 1).any Task.hasTurn = true ∧
    (∀ e ∈ fs, e.own = true) ∧ run (step Sample.env) c fs = some c' ∧ Settled c' := by
  obtain ⟨c, hrun, -, hturn⟩ := exists_run (fun c : State => (c.thread 1).any Task.hasTurn)
    (by decide : (run (step Sample.env) (State.start 0)
      (Sample.login 0 "a" 0 "access" "refresh" ++ Sample.refresh 1 "a" 900000000000)).any _ = true)
  obtain ⟨-, -, fs, c', hfs, hrun', hsettled⟩ := requests_end hrun
  exact ⟨c, fs, c', hrun, hturn, hfs, hrun', hsettled⟩

end Bff

end WeaveAuth
