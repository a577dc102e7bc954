import WeaveAuth.Bff.JtiStorage
import WeaveAuth.Bff.LogoutToken
import WeaveAuth.ForMathlib.Interleaving
import WeaveAuth.ForMathlib.Transition

/-!
# Logout tokens and the store that refuses their replay

What `service::logout` of `bff/src/server/api/backchannel_logout.rs` does with a logout token up
to the point where it is accepted, interleaved with other logouts and with the sweep of the store.
A request checks the claims at one reading of the clock, and `record` takes another before it
waits for the store; a sweep too reads the clock before it waits. So each is two steps here, the
readings first.

## Main results

* `accepted_once_of_inTime`: where `InTime` holds of every step, a `jti` and `iat` is accepted
  once, and the run without its sweeps gives the same answers
* `accepted_twice`: it may be accepted twice, at the last instant of its age and, before that, with
  a sweep in between

## Scope

It is a system of its own, smaller than bff: a request here is a back-channel logout, and what it
does after its `jti` was accepted is left out. `JtiSimulation` proves that every run of bff is a run
of it. The clock is not set back, and a request's second reading is no earlier than its first.

## The condition

`InTime` is about a step and the state before it. It asks that a `jti` which was accepted is
recorded again, if at all, at a reading before its `replay_until`, and that no sweep forgets an
entry which a waiting request, by the reading it has taken, would still be refused for. Each of the
two has a run in `accepted_twice` that breaks it and nothing else.
-/

namespace WeaveAuth

namespace Bff

namespace JtiReplay

/-- Where a request or a sweep stands. -/
inductive Task where
  /-- The token verified; `record` has read the clock and waits for the store. -/
  | recording (claims : LogoutClaims) (now : DateTime)
  /-- `record` took the token, and the sessions it names end. -/
  | accepted (claims : LogoutClaims)
  | refused (error : BackchannelServiceError)
  /-- The sweep has read the clock and waits for the store. -/
  | sweeping (now : DateTime)
  | swept
  deriving DecidableEq, Repr

/-- The store and the last reading of the clock. -/
structure World where
  clock : DateTime
  logoutJtis : JtiStorage

inductive Event where
  /-- Request `t` has what decoding its token came to. It reads the clock at `now` to check the
  claims and, for a token that passes, at `now'` to record its `jti`. -/
  | check (t : ℕ) (decoded : Except LogoutTokenError Json) (now now' : DateTime)
  /-- Request `t` has the store. -/
  | record (t : ℕ)
  /-- Sweep `t` reads the clock. -/
  | sweep (t : ℕ) (now : DateTime)
  /-- Sweep `t` has the store. -/
  | retain (t : ℕ)

/-- The events of requests. -/
def Event.isRequest : Event → Bool
  | check _ _ _ _ | record _ => true
  | sweep _ _ | retain _ => false

abbrev State := Threads World Task

/-- Nobody about, an empty store. -/
def start (clock : DateTime) : State := ⟨⟨clock, .empty⟩, fun _ => none⟩

def step (parseStr : String → Option Uuid) (s : State) : Event → Option State
  | .check t decoded now now' =>
    if s.thread t = none ∧ s.shared.clock ≤ now ∧ now ≤ now' then
      match LogoutToken.verify parseStr decoded now with
      | .error error =>
        some (s.move t { s.shared with clock := now } (some (.refused (.ofLogoutTokenError error))))
      | .ok claims =>
        some (s.move t { s.shared with clock := now' } (some (.recording claims now')))
    else none
  | .record t =>
    match s.thread t with
    | some (.recording claims now) =>
      match s.shared.logoutJtis.record now claims.jti claims.replayUntil with
      | none => some (s.move t s.shared (some (.refused .replayed)))
      | some jtis => some (s.move t { s.shared with logoutJtis := jtis } (some (.accepted claims)))
    | _ => none
  | .sweep t now =>
    if s.thread t = none ∧ s.shared.clock ≤ now then
      some (s.move t { s.shared with clock := now } (some (.sweeping now)))
    else none
  | .retain t =>
    match s.thread t with
    | some (.sweeping now) =>
      some (s.move t { s.shared with logoutJtis := s.shared.logoutJtis.sweepExpired now }
        (some .swept))
    | _ => none

/-- When the store can tell a replay. A request whose `jti` was accepted before records it at a
reading from before the end of the token's age; and no sweep forgets a `jti` between the reading
of a request that is about to record it and the record. -/
def InTime (s : State) : Event → Prop
  | .record t => ∀ claims now, s.thread t = some (.recording claims now) →
      (∃ u c, s.thread u = some (.accepted c) ∧ c.jti = claims.jti) → now < claims.replayUntil
  | .retain t => ∀ now, s.thread t = some (.sweeping now) →
      ∀ u claims reading, s.thread u = some (.recording claims reading) →
      ∀ expiry, s.shared.logoutJtis.used.get claims.jti = some expiry → expiry ≤ now →
        expiry ≤ reading
  | _ => True

/-! ### What a step does -/

/-- The four kinds of step, each with its guards. -/
inductive Moves (parseStr : String → Option Uuid) (s : State) : Event → State → Prop where
  | refuse {t decoded now now' error} : s.thread t = none → s.shared.clock ≤ now → now ≤ now' →
      LogoutToken.verify parseStr decoded now = .error error →
      Moves parseStr s (.check t decoded now now')
        (s.move t { s.shared with clock := now }
          (some (.refused (.ofLogoutTokenError error))))
  | check {t decoded now now' claims} : s.thread t = none → s.shared.clock ≤ now → now ≤ now' →
      LogoutToken.verify parseStr decoded now = .ok claims →
      Moves parseStr s (.check t decoded now now')
        (s.move t { s.shared with clock := now' } (some (.recording claims now')))
  | replayed {t claims now} : s.thread t = some (.recording claims now) →
      s.shared.logoutJtis.record now claims.jti claims.replayUntil = none →
      Moves parseStr s (.record t) (s.move t s.shared (some (.refused .replayed)))
  | record {t claims now jtis} : s.thread t = some (.recording claims now) →
      s.shared.logoutJtis.record now claims.jti claims.replayUntil = some jtis →
      Moves parseStr s (.record t)
        (s.move t { s.shared with logoutJtis := jtis } (some (.accepted claims)))
  | sweep {t now} : s.thread t = none → s.shared.clock ≤ now →
      Moves parseStr s (.sweep t now)
        (s.move t { s.shared with clock := now } (some (.sweeping now)))
  | retain {t now} : s.thread t = some (.sweeping now) →
      Moves parseStr s (.retain t)
        (s.move t { s.shared with logoutJtis := s.shared.logoutJtis.sweepExpired now }
          (some .swept))

variable {parseStr : String → Option Uuid}

theorem moves_of_step {s s' : State} {e : Event} (h : step parseStr s e = some s') :
    Moves parseStr s e s' := by
  cases e with
  | check t decoded now now' =>
    simp only [step] at h
    split at h
    · next hguard =>
      obtain ⟨hnone, hnow, hnow'⟩ := hguard
      split at h
      · next error hverify =>
        cases h
        exact .refuse hnone hnow hnow' hverify
      · next claims hverify =>
        cases h
        exact .check hnone hnow hnow' hverify
    · cases h
  | record t =>
    simp only [step] at h
    split at h
    · next claims now ht =>
      split at h
      · next hrecord =>
        cases h
        exact .replayed ht hrecord
      · next jtis hrecord =>
        cases h
        exact .record ht hrecord
    · cases h
  | sweep t now =>
    simp only [step] at h
    split at h
    · next hguard =>
      cases h
      exact .sweep hguard.1 hguard.2
    · cases h
  | retain t =>
    simp only [step] at h
    split at h
    · next now ht =>
      cases h
      exact .retain ht
    · cases h

/-! ### At most once -/

/-- What keeps a `jti` from being accepted again. -/
structure Inv (s : State) : Prop where
  /-- Every reading is in the past. -/
  recording_le : ∀ t claims now, s.thread t = some (.recording claims now) → now ≤ s.shared.clock
  sweeping_le : ∀ t now, s.thread t = some (.sweeping now) → now ≤ s.shared.clock
  /-- An accepted `jti` is remembered until the token is too old for the check. -/
  remembered : ∀ t c, s.thread t = some (.accepted c) →
    (∃ expiry, s.shared.logoutJtis.used.get c.jti = some expiry ∧ c.replayUntil ≤ expiry) ∨
      c.replayUntil ≤ s.shared.clock
  /-- Whoever read the clock before that finds it remembered. -/
  refused : ∀ t c u claims now, s.thread t = some (.accepted c) →
    s.thread u = some (.recording claims now) → claims.jti = c.jti → now < c.replayUntil →
    ∃ expiry, s.shared.logoutJtis.used.get c.jti = some expiry ∧ now < expiry
  once : ∀ t u c c', s.thread t = some (.accepted c) → s.thread u = some (.accepted c') →
    c.jti = c'.jti → c.replayUntil = c'.replayUntil → t = u

theorem inv_start (clock : DateTime) : Inv (start clock) where
  recording_le t claims now h := by cases h
  sweeping_le t now h := by cases h
  remembered t c h := by cases h
  refused t c u claims now h := by cases h
  once t u c c' h := by cases h

/-- A move that accepts nothing and forgets only what every reading has passed. -/
theorem Inv.move {s : State} (h : Inv s) {t : ℕ} {clock : DateTime} {o : Task}
    (hclock : s.shared.clock ≤ clock) (haccepted : ∀ c, o ≠ .accepted c)
    (hrecording : ∀ claims now, o = .recording claims now → s.shared.clock ≤ now ∧ now ≤ clock)
    (hsweeping : ∀ now, o = .sweeping now → now ≤ clock) {jtis : JtiStorage}
    (hstore : ∀ jti expiry, s.shared.logoutJtis.used.get jti = some expiry →
      jtis.used.get jti = some expiry ∨ expiry ≤ s.shared.clock ∧
        ∀ u claims now, s.thread u = some (.recording claims now) → claims.jti = jti →
          expiry ≤ now) :
    Inv (s.move t ⟨clock, jtis⟩ (some o)) where
  recording_le u claims now hu := by
    rcases Threads.thread_of_move hu with ⟨-, ho⟩ | ⟨-, hu⟩
    · exact (hrecording claims now ho).2
    · exact (h.recording_le u claims now hu).trans hclock
  sweeping_le u now hu := by
    rcases Threads.thread_of_move hu with ⟨-, ho⟩ | ⟨-, hu⟩
    · exact hsweeping now ho
    · exact (h.sweeping_le u now hu).trans hclock
  remembered u c hu := by
    obtain ⟨-, hu⟩ := (Threads.thread_of_move hu).resolve_left fun hmoved => haccepted c hmoved.2
    rcases h.remembered u c hu with ⟨expiry, hget, hexpiry⟩ | hpast
    · rcases hstore _ _ hget with hkept | ⟨hle, -⟩
      · exact Or.inl ⟨expiry, hkept, hexpiry⟩
      · exact Or.inr (hexpiry.trans (hle.trans hclock))
    · exact Or.inr (hpast.trans hclock)
  refused u c v claims now hu hv hjti hnow := by
    obtain ⟨-, hu⟩ := (Threads.thread_of_move hu).resolve_left fun hmoved => haccepted c hmoved.2
    rcases Threads.thread_of_move hv with ⟨-, ho⟩ | ⟨-, hv⟩
    · obtain ⟨hle, -⟩ := hrecording claims now ho
      -- A reading from after the acceptance: the token would be too old.
      rcases h.remembered u c hu with ⟨expiry, hget, hexpiry⟩ | hpast
      · rcases hstore _ _ hget with hkept | ⟨hsweep, -⟩
        · exact ⟨expiry, hkept, hnow.trans_le hexpiry⟩
        · exact absurd (hexpiry.trans (hsweep.trans hle)) (not_le.mpr hnow)
      · exact absurd (hpast.trans hle) (not_le.mpr hnow)
    · obtain ⟨expiry, hget, hexpiry⟩ := h.refused u c v claims now hu hv hjti hnow
      rcases hstore _ _ hget with hkept | ⟨-, hread⟩
      · exact ⟨expiry, hkept, hexpiry⟩
      · exact absurd (hread v claims now hv hjti) (not_le.mpr hexpiry)
  once u v c c' hu hv hjti huntil := by
    obtain ⟨-, hu⟩ := (Threads.thread_of_move hu).resolve_left fun hmoved => haccepted c hmoved.2
    obtain ⟨-, hv⟩ := (Threads.thread_of_move hv).resolve_left fun hmoved => haccepted c' hmoved.2
    exact h.once u v c c' hu hv hjti huntil

/-- Under `InTime` no reading of a token accepted before reaches the end of its age, so its `jti`
is found. -/
theorem Inv.replayUntil_le {s : State} (h : Inv s) {t u : ℕ} {claims c : LogoutClaims}
    {now : DateTime} {jtis : JtiStorage} (ht : s.thread t = some (.recording claims now))
    (hrecord : s.shared.logoutJtis.record now claims.jti claims.replayUntil = some jtis)
    (hu : s.thread u = some (.accepted c)) (hjti : c.jti = claims.jti) : c.replayUntil ≤ now := by
  by_contra hlt
  obtain ⟨expiry, hget, hexpiry⟩ := h.refused u c t claims now hu ht hjti.symm (not_le.mp hlt)
  rw [hjti] at hget
  exact absurd ((JtiStorage.record_eq_some.mp hrecord).1 expiry hget) (not_le.mpr hexpiry)

theorem Inv.record {s : State} (h : Inv s) {t : ℕ} {claims : LogoutClaims} {now : DateTime}
    {jtis : JtiStorage} (ht : s.thread t = some (.recording claims now))
    (hok : InTime s (.record t))
    (hrecord : s.shared.logoutJtis.record now claims.jti claims.replayUntil = some jtis) :
    Inv (s.move t { s.shared with logoutJtis := jtis } (some (.accepted claims))) := by
  have hold : ∀ {u c}, s.thread u = some (.accepted c) → c.jti = claims.jti →
      c.replayUntil ≤ now ∧ now < claims.replayUntil := fun hu hjti =>
    ⟨h.replayUntil_le ht hrecord hu hjti, hok claims now ht ⟨_, _, hu, hjti⟩⟩
  obtain ⟨-, rfl⟩ := JtiStorage.record_eq_some.mp hrecord
  refine ⟨fun u c at' hu => ?_, fun u at' hu => ?_, fun u c hu => ?_,
    fun u c v claims' at' hu hv hjti hat => ?_, fun u v c c' hu hv hjti huntil => ?_⟩
  · rcases Threads.thread_of_move hu with ⟨-, ho⟩ | ⟨-, hu⟩
    · cases ho
    · exact h.recording_le u c at' hu
  · rcases Threads.thread_of_move hu with ⟨-, ho⟩ | ⟨-, hu⟩
    · cases ho
    · exact h.sweeping_le u at' hu
  · rcases Threads.thread_of_move hu with ⟨-, ho⟩ | ⟨-, hu⟩
    · obtain rfl := Task.accepted.inj ho
      exact Or.inl ⟨claims.replayUntil, by simp, le_refl _⟩
    · by_cases hjti : c.jti = claims.jti
      · exact Or.inr ((hold hu hjti).1.trans (h.recording_le t claims now ht))
      · exact (h.remembered u c hu).imp (fun hrem => by simpa [hjti] using hrem) id
  · obtain ⟨-, hv⟩ :=
      (Threads.thread_of_move hv).resolve_left fun hmoved => Task.noConfusion hmoved.2
    rcases Threads.thread_of_move hu with ⟨-, ho⟩ | ⟨-, hu⟩
    · obtain rfl := Task.accepted.inj ho
      exact ⟨claims.replayUntil, by simp, hat⟩
    · by_cases hc : c.jti = claims.jti
      · obtain ⟨hle, hlt⟩ := hold hu hc
        exact ⟨claims.replayUntil, by simp [hc], hat.trans_le (hle.trans hlt.le)⟩
      · obtain ⟨expiry, hget, hexpiry⟩ := h.refused u c v claims' at' hu hv hjti hat
        exact ⟨expiry, by simpa [hc] using hget, hexpiry⟩
  · rcases Threads.thread_of_move hu with ⟨hut, hu⟩ | ⟨-, hu⟩ <;>
      rcases Threads.thread_of_move hv with ⟨hvt, hv⟩ | ⟨-, hv⟩
    · rw [hut, hvt]
    · obtain rfl := Task.accepted.inj hu
      obtain ⟨hle, hlt⟩ := hold hv hjti.symm
      exact absurd (huntil ▸ hle) (not_le.mpr hlt)
    · obtain rfl := Task.accepted.inj hv
      obtain ⟨hle, hlt⟩ := hold hu hjti
      exact absurd (huntil ▸ hle) (not_le.mpr hlt)
    · exact h.once u v c c' hu hv hjti huntil

/-- A sweep under `InTime` forgets only what every reading has passed. -/
theorem Inv.forgotten {s : State} (h : Inv s) {t : ℕ} {now : DateTime}
    (ht : s.thread t = some (.sweeping now)) (hok : InTime s (.retain t)) (jti : String)
    (expiry : DateTime) (hget : s.shared.logoutJtis.used.get jti = some expiry) :
    (s.shared.logoutJtis.sweepExpired now).used.get jti = some expiry ∨
      expiry ≤ s.shared.clock ∧ ∀ u claims reading,
        s.thread u = some (.recording claims reading) → claims.jti = jti → expiry ≤ reading := by
  rw [JtiStorage.get_sweepExpired, hget]
  by_cases hnow : expiry > now
  · exact Or.inl (by simp [Option.filter, hnow])
  · have hle := not_lt.mp hnow
    refine Or.inr ⟨hle.trans (h.sweeping_le t now ht), fun u claims reading hu hjti => ?_⟩
    exact hok now ht u claims reading hu expiry (by rw [hjti, hget]) hle

theorem inv_step {s s' : State} {e : Event} (h : Inv s) (hok : InTime s e)
    (hstep : step parseStr s e = some s') : Inv s' := by
  cases moves_of_step hstep with
  | refuse hnone hnow hnow' hverify =>
    exact h.move hnow (by simp) (by simp) (by simp) fun _ _ hget => Or.inl hget
  | check hnone hnow hnow' hverify =>
    refine h.move (hnow.trans hnow') (by simp) (fun claims now heq => ?_) (by simp)
      fun _ _ hget => Or.inl hget
    cases heq
    exact ⟨hnow.trans hnow', le_refl _⟩
  | replayed ht hrecord =>
    exact h.move (le_refl _) (by simp) (by simp) (by simp) fun _ _ hget => Or.inl hget
  | record ht hrecord => exact h.record ht hok hrecord
  | sweep hnone hnow =>
    refine h.move hnow (by simp) (by simp) (fun now heq => ?_) fun _ _ hget => Or.inl hget
    cases heq
    exact le_refl _
  | retain ht =>
    exact h.move (le_refl _) (by simp) (by simp) (by simp) (h.forgotten ht hok)

/-! ### The run without its sweeps -/

def Task.isSweep : Task → Bool
  | sweeping _ | swept => true
  | _ => false

/-- `r` is where the run without the sweeps stands when the run itself stands at `s`. -/
structure Unswept (s r : State) : Prop where
  inv : Inv s
  clock : r.shared.clock ≤ s.shared.clock
  thread : ∀ t, r.thread t = (s.thread t).filter fun task => !task.isSweep
  /-- What the sweeps forgot, every reading has passed. -/
  used : ∀ jti, r.shared.logoutJtis.used.get jti = s.shared.logoutJtis.used.get jti ∨
    s.shared.logoutJtis.used.get jti = none ∧
      ∃ expiry, r.shared.logoutJtis.used.get jti = some expiry ∧ expiry ≤ s.shared.clock ∧
        ∀ u claims now, s.thread u = some (.recording claims now) → claims.jti = jti →
          expiry ≤ now

theorem unswept_start (clock : DateTime) : Unswept (start clock) (start clock) where
  inv := inv_start clock
  clock := le_refl _
  thread _ := rfl
  used _ := Or.inl rfl

/-- The same move in both runs. -/
theorem Unswept.thread_move {s r : State} (h : Unswept s r) {t : ℕ} {o : Task}
    (ho : o.isSweep = false) (w w' : World) (u : ℕ) : (r.move t w (some o)).thread u
      = ((s.move t w' (some o)).thread u).filter fun task => !task.isSweep := by
  by_cases hut : u = t
  · subst hut
    simp [Option.filter, ho]
  · rw [Threads.thread_move_ne r hut, Threads.thread_move_ne s hut, h.thread]

/-- A task of a request stands at the same place in both runs. -/
theorem Unswept.thread_eq {s r : State} (h : Unswept s r) {t : ℕ} {o : Task}
    (hs : s.thread t = some o) (ho : o.isSweep = false) : r.thread t = some o := by
  rw [h.thread, hs, Option.filter_some, ho]
  rfl

/-- The store answers a record as it would have without the sweeps. -/
theorem Unswept.record_eq {s r : State} (h : Unswept s r) {t : ℕ} {claims : LogoutClaims}
    {now : DateTime} (ht : s.thread t = some (.recording claims now)) :
    (∀ expiry, r.shared.logoutJtis.used.get claims.jti = some expiry → expiry ≤ now) ↔
      ∀ expiry, s.shared.logoutJtis.used.get claims.jti = some expiry → expiry ≤ now := by
  rcases h.used claims.jti with heq | ⟨hnone, expiry, hget, -, hread⟩
  · rw [heq]
  · rw [hnone, hget]
    have hle := hread t claims now ht rfl
    constructor
    · simp
    · rintro - e heq
      cases heq
      exact hle

/-- A move of a request that leaves the store alone. -/
theorem Unswept.move {s r : State} (h : Unswept s r) {t : ℕ} {o : Task} {clock clock' : DateTime}
    (ho : o.isSweep = false) (hclock : s.shared.clock ≤ clock) (hclock' : clock' ≤ clock)
    (hrecording : ∀ claims now, o = .recording claims now → s.shared.clock ≤ now)
    (hinv : Inv (s.move t { s.shared with clock := clock } (some o))) :
    Unswept (s.move t { s.shared with clock := clock } (some o))
      (r.move t { r.shared with clock := clock' } (some o)) where
  inv := hinv
  clock := hclock'
  thread := h.thread_move ho _ _
  used jti := by
    refine (h.used jti).imp id ?_
    rintro ⟨hnone, expiry, hget, hle, hread⟩
    refine ⟨hnone, expiry, hget, hle.trans hclock, fun u claims now hu hjti => ?_⟩
    rcases Threads.thread_of_move hu with ⟨-, ho⟩ | ⟨-, hu⟩
    · exact hle.trans (hrecording claims now ho)
    · exact hread u claims now hu hjti

theorem Unswept.record {s r : State} (h : Unswept s r) {t : ℕ} {claims : LogoutClaims}
    (hinv : Inv (s.move t { s.shared with
      logoutJtis := ⟨s.shared.logoutJtis.used.insert claims.jti claims.replayUntil⟩ }
        (some (.accepted claims)))) :
    Unswept
      (s.move t { s.shared with
        logoutJtis := ⟨s.shared.logoutJtis.used.insert claims.jti claims.replayUntil⟩ }
        (some (.accepted claims)))
      (r.move t { r.shared with
        logoutJtis := ⟨r.shared.logoutJtis.used.insert claims.jti claims.replayUntil⟩ }
        (some (.accepted claims))) where
  inv := hinv
  clock := h.clock
  thread := h.thread_move rfl _ _
  used jti := by
    by_cases hjti : jti = claims.jti
    · exact Or.inl (by simp [hjti])
    · refine (h.used jti).imp (fun heq => by simpa [hjti] using heq) ?_
      rintro ⟨hnone, expiry, hget, hle, hread⟩
      refine ⟨by simpa [hjti] using hnone, expiry, by simpa [hjti] using hget, hle,
        fun u claims' now hu hjti' => ?_⟩
      obtain ⟨-, hu⟩ :=
        (Threads.thread_of_move hu).resolve_left fun hmoved => Task.noConfusion hmoved.2
      exact hread u claims' now hu hjti'

/-- A request's step can be made in the run without the sweeps. -/
theorem Unswept.keep {s r s' : State} {e : Event} (h : Unswept s r) (hok : InTime s e)
    (hkeep : e.isRequest = true) (hstep : step parseStr s e = some s') :
    ∃ r', step parseStr r e = some r' ∧ Unswept s' r' := by
  have hinv := inv_step h.inv hok hstep
  have hnew : ∀ t, s.thread t = none → r.thread t = none := fun t ht => by
    rw [h.thread, ht]
    rfl
  cases moves_of_step hstep with
  | refuse hnone hnow hnow' hverify =>
    refine ⟨_, ?_, h.move rfl hnow (le_refl _) (by simp) hinv⟩
    simp only [step]
    rw [if_pos ⟨hnew _ hnone, h.clock.trans hnow, hnow'⟩, hverify]
  | check hnone hnow hnow' hverify =>
    refine ⟨_, ?_, h.move rfl (hnow.trans hnow') (le_refl _) (fun claims now heq => ?_) hinv⟩
    · simp only [step]
      rw [if_pos ⟨hnew _ hnone, h.clock.trans hnow, hnow'⟩, hverify]
    · cases heq
      exact hnow.trans hnow'
  | @replayed t claims now ht hrecord =>
    refine ⟨r.move t r.shared (some (.refused .replayed)), ?_,
      h.move rfl (le_refl _) h.clock (by simp) hinv⟩
    have hrefused : r.shared.logoutJtis.record now claims.jti claims.replayUntil = none := by
      rw [Option.eq_none_iff_forall_ne_some] at hrecord ⊢
      intro jtis hjtis
      have hfree := (h.record_eq ht).mp (JtiStorage.record_eq_some.mp hjtis).1
      exact hrecord _ (JtiStorage.record_eq_some.mpr ⟨hfree, rfl⟩)
    simp only [step]
    rw [h.thread_eq ht rfl]
    dsimp only
    rw [hrefused]
  | @record t claims now jtis ht hrecord =>
    obtain ⟨hfree, rfl⟩ := JtiStorage.record_eq_some.mp hrecord
    refine ⟨_, ?_, h.record hinv⟩
    simp only [step]
    rw [h.thread_eq ht rfl]
    dsimp only
    rw [JtiStorage.record_eq_some.mpr ⟨(h.record_eq ht).mpr hfree, rfl⟩]
  | sweep hnone hnow => cases hkeep
  | retain ht => cases hkeep

/-- A sweep's step does not show in the run without the sweeps. -/
theorem Unswept.drop {s r s' : State} {e : Event} (h : Unswept s r) (hok : InTime s e)
    (hdrop : e.isRequest = false) (hstep : step parseStr s e = some s') : Unswept s' r := by
  have hinv := inv_step h.inv hok hstep
  have hother : ∀ {t : ℕ} {o : Task} {w : World} (_ : o.isSweep = true) (_ : r.thread t = none)
      (u : ℕ), r.thread u = ((s.move t w (some o)).thread u).filter fun task => !task.isSweep := by
    intro t o w ho ht u
    by_cases hut : u = t
    · subst hut
      rw [ht, Threads.thread_move_self, Option.filter_some, ho]
      rfl
    · rw [Threads.thread_move_ne s hut, h.thread]
  have hrecording : ∀ {t : ℕ} {o : Task} {w : World} (_ : o.isSweep = true) {u : ℕ}
      {claims : LogoutClaims} {now : DateTime},
      (s.move t w (some o)).thread u = some (.recording claims now) →
        s.thread u = some (.recording claims now) := by
    intro t o w ho u claims now hu
    rcases Threads.thread_of_move hu with ⟨-, heq⟩ | ⟨-, hu⟩
    · rw [heq] at ho
      cases ho
    · exact hu
  cases moves_of_step hstep with
  | refuse hnone hnow hnow' hverify => cases hdrop
  | check hnone hnow hnow' hverify => cases hdrop
  | replayed ht hrecord => cases hdrop
  | record ht hrecord => cases hdrop
  | @sweep t now hnone hnow =>
    have ht : r.thread t = none := by
      rw [h.thread, hnone]
      rfl
    refine ⟨hinv, h.clock.trans hnow, hother rfl ht, fun jti => (h.used jti).imp id ?_⟩
    rintro ⟨hget, expiry, hr, hle, hread⟩
    exact ⟨hget, expiry, hr, hle.trans hnow, fun u claims reading hu hjti =>
      hread u claims reading (hrecording rfl hu) hjti⟩
  | @retain t now ht =>
    have hnone : r.thread t = none := by
      rw [h.thread, ht]
      rfl
    refine ⟨hinv, h.clock, hother rfl hnone, fun jti => ?_⟩
    rcases h.used jti with heq | ⟨hget, expiry, hr, hle, hread⟩
    · cases hget : s.shared.logoutJtis.used.get jti with
      | none => exact Or.inl (by simp [heq, hget, JtiStorage.get_sweepExpired])
      | some expiry =>
        by_cases hnow : expiry > now
        · exact Or.inl (by simp [heq, hget, JtiStorage.get_sweepExpired, Option.filter, hnow])
        · rcases h.inv.forgotten ht hok jti expiry hget with hkept | ⟨hle, hread⟩
          · simp [JtiStorage.get_sweepExpired, hget, Option.filter, hnow] at hkept
          · refine Or.inr ⟨by simp [JtiStorage.get_sweepExpired, hget, Option.filter, hnow],
              expiry, by rw [heq, hget], hle, fun u claims reading hu hjti => ?_⟩
            exact hread u claims reading (hrecording rfl hu) hjti
    · refine Or.inr ⟨by simp [JtiStorage.get_sweepExpired, hget], expiry, hr, hle,
        fun u claims reading hu hjti => hread u claims reading (hrecording rfl hu) hjti⟩

/-! ### Main results -/

open Transition

/-- A request has been answered with `o`. -/
def Task.isAnswer : Task → Bool
  | accepted _ | refused _ => true
  | _ => false

/-- **A logout token is accepted once, and the sweep shows in no answer**, in every run whose
steps are `InTime`: two requests that were accepted with one `jti` and one age are one request,
and the same run without its sweeps is a run that answers every request alike. -/
theorem accepted_once_of_inTime {clock : DateTime} {es : List Event} {s : State}
    (hok : Allowed (step parseStr) InTime (start clock) es)
    (hrun : run (step parseStr) (start clock) es = some s) :
    (∀ t u c c', s.thread t = some (.accepted c) → s.thread u = some (.accepted c') →
      c.jti = c'.jti → c.replayUntil = c'.replayUntil → t = u) ∧
    ∃ r, run (step parseStr) (start clock) (es.filter Event.isRequest) = some r ∧
      ∀ t o, o.isAnswer = true → (s.thread t = some o ↔ r.thread t = some o) := by
  have hkeep : ∀ s r e s', Unswept s r → InTime s e → e.isRequest = true →
      step parseStr s e = some s' → ∃ r', step parseStr r e = some r' ∧ Unswept s' r' :=
    fun s r e s' hR => hR.keep
  have hdrop : ∀ s r e s', Unswept s r → InTime s e → e.isRequest = false →
      step parseStr s e = some s' → Unswept s' r :=
    fun s r e s' hR => hR.drop
  obtain ⟨r, hr, h⟩ := run_erase hkeep hdrop (unswept_start clock) hok hrun
  refine ⟨h.inv.once, r, hr, fun t o ho => ?_⟩
  have hsweep : o.isSweep = false := by
    cases o <;> first | rfl | cases ho
  constructor
  · exact fun hs => h.thread_eq hs hsweep
  · intro hrt
    rw [h.thread, Option.filter_eq_some_iff] at hrt
    exact hrt.1

/-- The claims of a logout token of one login session, issued at second `iat`. -/
def sampleClaims (iat : ℤ) : Json :=
  .obj [("iat", .int iat), ("events", .obj [(LogoutToken.backchannelLogoutEvent, .obj [])]),
    ("sid", .str "login"), ("jti", .str "j")]

/-- The parser of a token without a `sub`. -/
def noSubject : String → Option Uuid := fun _ => none

/-- What they say. -/
def sampleLogout : LogoutClaims := ⟨.session "login", "j", Duration.seconds 660⟩

/-- Two requests with the token, one right after the other: the second is a replay. -/
def replayEvents : List Event :=
  [.sweep 2 0, .check 0 (.ok (sampleClaims 0)) 0 0, .retain 2, .record 0,
    .check 1 (.ok (sampleClaims 0)) 1 1, .record 1]

/-- At the last instant of its age the check still passes, and the store no longer refuses. -/
def boundaryEvents : List Event :=
  [.check 0 (.ok (sampleClaims 0)) 0 0, .record 0,
    .check 1 (.ok (sampleClaims 0)) (Duration.seconds 660) (Duration.seconds 660), .record 1]

/-- A sweep past the end of the token's age between a request's reading and its record. -/
def sweptEvents : List Event :=
  [.check 0 (.ok (sampleClaims 0)) 0 0, .record 0, .check 1 (.ok (sampleClaims 0)) 1 1,
    .sweep 2 (Duration.seconds 660), .retain 2, .record 1]

theorem allowed_replayEvents :
    Allowed (step noSubject) InTime (start 0) replayEvents := by
  refine allowed_cons rfl trivial (allowed_cons rfl trivial (allowed_cons rfl ?_
    (allowed_cons rfl ?_ (allowed_cons rfl trivial (allowed_cons rfl ?_ trivial)))))
  · intro now hnow u claims reading hu expiry hget
    simp [start, JtiStorage.empty] at hget
  · rintro claims now ht -
    obtain ⟨rfl, rfl⟩ : sampleLogout = claims ∧ (0 : DateTime) = now := by
      cases ht
      exact ⟨rfl, rfl⟩
    decide
  · rintro claims now ht -
    obtain ⟨rfl, rfl⟩ : sampleLogout = claims ∧ (1 : DateTime) = now := by
      cases ht
      exact ⟨rfl, rfl⟩
    decide

/-- A second request with the token is refused, and would be without the sweep. -/
theorem accepted_once_replayed : ∃ s r,
    run (step noSubject) (start 0) replayEvents = some s ∧
    run (step noSubject) (start 0) (replayEvents.filter Event.isRequest) = some r ∧
    s.thread 1 = some (.refused .replayed) ∧ r.thread 1 = some (.refused .replayed) := by
  obtain ⟨s, hs⟩ : ∃ s, run (step noSubject) (start 0) replayEvents = some s := ⟨_, rfl⟩
  have hrefused : s.thread 1 = some (.refused .replayed) := by
    cases hs
    rfl
  obtain ⟨-, r, hr, hsame⟩ := accepted_once_of_inTime allowed_replayEvents hs
  exact ⟨s, r, hs, hr, hrefused, (hsame 1 _ rfl).mp hrefused⟩

/-- Without `InTime` both fail. At the last instant of its age the token is accepted again; and a
sweep makes a request accepted that would have been refused. -/
theorem accepted_twice :
    ((run (step noSubject) (start 0) boundaryEvents).map fun s => (s.thread 0, s.thread 1))
      = some (some (.accepted sampleLogout), some (.accepted sampleLogout)) ∧
    ((run (step noSubject) (start 0) sweptEvents).map fun s => s.thread 1)
      = some (some (.accepted sampleLogout)) ∧
    ((run (step noSubject) (start 0) (sweptEvents.filter Event.isRequest)).map fun s => s.thread 1)
      = some (some (.refused .replayed)) := by
  decide

end JtiReplay

end Bff

end WeaveAuth
