import WeaveAuth.Bff.Moves

/-!
# What a step may do to the others

`Guarantee t w w'` bounds what a step of task `t` does to the shared state, in terms that do not
mention where `t` stands: what has been recorded stays, other tasks' tickets and calls stay, and a
session is stored under an id only by a login to which the id is new or by the task that has the
id's turn, which finds one there. That every step keeps to it is proved in `Invariant`.

The events that are nobody's step, Hydra's and those of the revocation tasks, keep to it for every
task.

## Implementation notes

The bound has to be loose enough to hold of every step and tight enough to keep every assertion, and
is chosen by the second: whatever an assertion in `Invariant` says of the shared state is either in
a field of `Guarantee` or follows from its fields. It says nothing of the clock but that it goes on.
-/

namespace WeaveAuth

namespace Bff

/-- What a step may do to what is stored under an id. -/
inductive StoreStep (t : TaskId) (w : World) (sessions : Sessions) (id : String) : Prop where
  | same (h : sessions.getSession id = w.sessions.getSession id)
  | removed (h : sessions.getSession id = none)
  /-- A refresh, with the id's turn. -/
  | updated (hturn : w.refreshLocks.Holds t id) (hstored : w.sessions.getSession id ≠ none)
  /-- A login. -/
  | saved (hnew : ∀ u, (id, u) ∉ w.saved) (hdrawn : (id, t) ∈ w.drawn)

/-- What a step of `t` keeps to. -/
structure Guarantee (t : TaskId) (w w' : World) : Prop where
  hydra : w.hydra.Grows w'.hydra
  calls : ∀ u, u ≠ t → w.hydra.calls u = none → w'.hydra.calls u = none
  /-- A refresh token is presented by who has its session's turn, as it is stored. -/
  presented : ∀ u token, w'.hydra.Presented u token → w.hydra.Presented u token ∨
    u = t ∧ ∃ id session, w.sessions.getSession id = some session ∧
      session.refreshToken = token ∧ w.refreshLocks.Holds t id
  clock : w.clock ≤ w'.clock
  locks : w.refreshLocks.Frame w'.refreshLocks t
  saved : ∀ e ∈ w.saved, e ∈ w'.saved
  saved_of : ∀ e ∈ w'.saved, e ∈ w.saved ∨ e.2 = t ∧ e ∈ w.drawn
  drawn : ∀ e ∈ w.drawn, e ∈ w'.drawn
  drawn_of : ∀ e ∈ w'.drawn, e ∈ w.drawn ∨ e.2 = t
  spawned : ∀ u, u ≠ t → w'.spawned u = w.spawned u ∨ w'.spawned u = []
  store : ∀ id, StoreStep t w w'.sessions id

namespace Guarantee

variable {t : TaskId} {w w' : World}

theorem refl (t : TaskId) (w : World) : Guarantee t w w where
  hydra := .refl _
  calls _ _ := id
  presented _ _ := Or.inl
  clock := le_refl _
  locks := .refl _ _
  saved _ := id
  saved_of _ := Or.inl
  drawn _ := id
  drawn_of _ := Or.inl
  spawned _ _ := Or.inl rfl
  store _ := .same rfl

theorem tick {now : DateTime} (hnow : w.clock ≤ now) : Guarantee t w { w with clock := now } :=
  { refl t w with clock := hnow }

theorem withLocks (h : Guarantee t w w') {locks : RefreshLocks}
    (hlocks : w'.refreshLocks.Frame locks t) : Guarantee t w { w' with refreshLocks := locks } :=
  { h with locks := h.locks.trans hlocks }

theorem withSessions {sessions : Sessions} (hstore : ∀ id, StoreStep t w sessions id) :
    Guarantee t w { w with sessions := sessions } :=
  { refl t w with store := hstore }

/-- Sessions that only leave. -/
theorem removeAll (ids : List String) :
    Guarantee t w { w with sessions := (w.sessions.removeAll ids).2 } :=
  withSessions fun id => by
    by_cases hid : id ∈ ids
    · exact .removed (by rw [Sessions.get_removeAll, if_pos hid])
    · exact .same (by rw [Sessions.get_removeAll, if_neg hid])

theorem takeSession (sessionId : String) :
    Guarantee t w { w with sessions := (w.sessions.takeSession sessionId).2 } :=
  withSessions fun id => by
    by_cases hid : id = sessionId
    · exact .removed (by rw [Sessions.takeSession, Sessions.get_remove, if_pos hid])
    · exact .same (by rw [Sessions.takeSession, Sessions.get_remove, if_neg hid])

theorem updateSession {sessionId : String} {data : SessionData} {sessions : Sessions}
    (hturn : w.refreshLocks.Holds t sessionId)
    (hupdate : w.sessions.updateSession sessionId data = some sessions) :
    Guarantee t w { w with sessions := sessions } :=
  withSessions fun id => by
    obtain ⟨hstored, hget⟩ := Sessions.get_updateSession hupdate
    by_cases hid : id = sessionId
    · subst hid
      exact .updated hturn hstored
    · exact .same (by rw [hget, if_neg hid])

theorem saveSession {sessionId : String} {data : SessionData}
    (hnew : ∀ u, (sessionId, u) ∉ w.saved) (hdrawn : (sessionId, t) ∈ w.drawn) :
    Guarantee t w { w with
      sessions := (w.sessions.saveSession sessionId data).2
      saved := (sessionId, t) :: w.saved } :=
  { refl t w with
    saved := fun _ => List.mem_cons_of_mem _
    saved_of := fun e he => (List.mem_cons.mp he).symm.imp id fun heq => by
      rw [heq]
      exact ⟨rfl, hdrawn⟩
    store := fun id => by
      by_cases hid : id = sessionId
      · subst hid
        exact .saved hnew hdrawn
      · by_cases hexcess : id ∈ (w.sessions.insert sessionId data).excess data.userId
        · exact .removed (by rw [Sessions.get_saveSession, if_pos hexcess])
        · exact .same (by rw [Sessions.get_saveSession, if_neg hexcess, if_neg hid]) }

/-- A step may also let go of its turn. -/
theorem release (h : Guarantee t w w') : Guarantee t w (w'.release t) :=
  h.withLocks (RefreshLocks.frame_dropGuard _ _)

/-- It may make its call to the token endpoint. -/
theorem call (h : Guarantee t w w') (hhydra : w'.hydra = w.hydra)
    (hnone : w.hydra.calls t = none) {grant : Grant}
    (hgrant : ∀ token, grant = .refreshToken token → ∃ id session,
      w.sessions.getSession id = some session ∧ session.refreshToken = token ∧
        w.refreshLocks.Holds t id) : Guarantee t w (w'.call t grant) :=
  { h with
    hydra := by
      rw [World.call, hhydra]
      exact HydraServer.grows_call hnone grant
    calls := fun u hu hcall => by
      rw [World.call, hhydra]
      simpa [HydraServer.call, hu] using hcall
    presented := fun u token hu => by
      rw [World.call, hhydra] at hu
      obtain ⟨answer, hu⟩ := hu
      by_cases hut : u = t
      · subst hut
        obtain ⟨rfl, -⟩ : grant = .refreshToken token ∧ none = answer := by
          simpa [HydraServer.call] using hu
        exact Or.inr ⟨rfl, hgrant token rfl⟩
      · exact Or.inl ⟨answer, by simpa [HydraServer.call, hut] using hu⟩ }

/-- It may leave tokens to a revocation task. -/
theorem spawn (h : Guarantee t w w') (ended : List SessionData) :
    Guarantee t w (w'.spawn t ended) :=
  { h with
    spawned := fun u hu => by
      rw [World.spawn]
      simpa [hu] using h.spawned u hu }

/-- It may revoke a token. -/
theorem revoke (refreshToken : String) : Guarantee t w (w.revoke refreshToken) :=
  { refl t w with hydra := HydraServer.grows_revoke _ _ }

theorem draw {sessionId : String} {now : DateTime} (hnow : w.clock ≤ now) :
    Guarantee t w { w with clock := now, drawn := (sessionId, t) :: w.drawn } :=
  { refl t w with
    clock := hnow
    drawn := fun _ => List.mem_cons_of_mem _
    drawn_of := fun e he => (List.mem_cons.mp he).symm.imp id fun heq => by rw [heq] }

/-- Hydra takes up a call: nobody's step. -/
theorem serve {u : TaskId} {now : DateTime} {effect : Effect} {answer : Answer}
    {hydra : HydraServer} (h : w.hydra.serve u now effect answer = some hydra) :
    Guarantee t w { w with hydra := hydra } :=
  { refl t w with
    hydra := HydraServer.grows_serve h
    calls := fun v _ hv => by
      obtain ⟨grant, h₁, hcall, -, -, -, rfl⟩ := HydraServer.serve_eq h
      have hvu : v ≠ u := by
        rintro rfl
        rw [hcall] at hv
        cases hv
      simpa [hvu] using hv
    presented := fun _ _ hv => Or.inl (HydraServer.presented_serve h hv) }

/-- A revocation task runs: nobody's step. -/
theorem runSpawned (u : TaskId) : Guarantee t w (w.runSpawned u) :=
  { refl t w with
    hydra := HydraServer.grows_revoke _ _
    spawned := fun v _ => by
      rw [World.runSpawned]
      by_cases hvu : v = u
      · exact Or.inr (by simp [hvu])
      · exact Or.inl (by simp [hvu]) }

end Guarantee

end Bff

end WeaveAuth
