import WeaveAuth.Bff.Transit
import WeaveAuth.Bff.Removal

/-!
# Spent refresh tokens

A refresh token that Hydra has replaced must not stay in the store: the next request would present
it, and Hydra revokes the whole chain for that. Between Hydra's rotation and the store's update it
does stay there, and only the request that asked for the rotation knows the new token.

`Uninterrupted` is what that takes: the request is not dropped from the rotation on, nor was
before, and it can read Hydra's answer.

## Main results

* `rotated_kept_or_revoked`: in an uninterrupted run a spent token is stored only while its request
  is between Hydra and the store, and the new one is stored or revoked when the request is gone
* `rotated_lost`: what a drop between the two leaves behind

## The condition

It allows any drop that does no harm: a request may be dropped while it waits for its turn, and
until Hydra has taken its call up; once its tokens are stored it is answered. What it leaves out is
a drop after the rotation, a rotation for a request that is already gone, and an answer that bff
cannot read though Hydra has rotated. The clock is not set back.

## How the proof goes

`Spent` is the invariant, and its four fields need each other. Outside that time a stored token is
not spent, because no task stores one that is; and what a task presents is spent by its own call
alone, because the session's turn is one task's, which the locks give (`turn_unique`). That nobody
has presented what a task is about to store is `Transit`'s.
-/

namespace WeaveAuth

namespace Bff

open Transition

variable {env : Env} {t u : TaskId} {w w' : World} {id token : String}

/-- The task waits for Hydra's answer to its refresh. -/
def Task.awaitsRefresh : Task → Bool
  | .proxied _ (.refresh _) => true
  | _ => false

/-- No request is dropped whose refresh token Hydra has replaced; Hydra replaces none for a request
that is gone; and its answer, when it replaces one, can be read. -/
def Uninterrupted (c : State) : Event → Prop
  | .drop t => ∀ r ∈ c.shared.hydra.rotated, r.task ≠ t
  | .hydra t _ (.granted (some _)) answer => c.shared.hydra.refreshes t = true →
      (c.thread t).any Task.awaitsRefresh = true ∧ (tokenRequest answer).isOk = true
  | _ => True

instance (c : State) : (e : Event) → Decidable (Uninterrupted c e)
  | .drop _ => inferInstanceAs (Decidable (∀ r ∈ _, _))
  | .hydra _ _ (.granted (some _)) _ => inferInstanceAs (Decidable (_ → _))
  | .hydra _ _ (.granted none) _ | .hydra _ _ .refused _ | .hydra _ _ .nothing _ => .isTrue trivial
  | .start _ _ _ | .resume _ _ | .spawned _ => .isTrue trivial

theorem Task.of_awaitsRefresh {c : State} (h : (c.thread t).any Task.awaitsRefresh = true) :
    ∃ id session, c.thread t = some (.proxied id (.refresh session)) := by
  obtain ⟨task, htask, hawaits⟩ := (Option.any_eq_true _ _).mp h
  cases task with
  | proxied id here =>
    cases here with
    | refresh session => exact ⟨id, session, htask⟩
    | _ => cases hawaits
  | _ => cases hawaits

/-- The request that had a token replaced has the new one, or is done with it. -/
def Task.Carries (r : Rotation) (w : World) : Task → Prop
  | .proxied _ (.refresh _) => ∃ answer tokens, w.hydra.answer? r.task = some answer ∧
      tokenRequest answer = .ok tokens
  | .proxied _ (.updateSession data) => data.refreshToken = r.new
  | .proxied _ (.revoke refreshToken) => refreshToken = r.new
  | .answered _ => True
  | _ => False

/-- Where the spent tokens are. -/
structure Spent (c : State) : Prop where
  carried : ∀ r ∈ c.shared.hydra.rotated,
    ∃ task, c.thread r.task = some task ∧ task.Carries r c.shared
  /-- A spent token is stored only while its request is in `refresh_session`. -/
  stored : ∀ id session, c.shared.sessions.getSession id = some session →
    ∀ r ∈ c.shared.hydra.rotated, r.old = session.refreshToken →
    ∃ task, c.thread r.task = some task ∧ task.refreshes id = true
  /-- What a request calls Hydra with is spent by its own call at most. -/
  presented : ∀ t id session, c.thread t = some (.proxied id (.refresh session)) →
    ∀ r ∈ c.shared.hydra.rotated, r.old = session.refreshToken → r.task = t
  /-- What it is about to store is not spent. -/
  updating : ∀ t id data, c.thread t = some (.proxied id (.updateSession data)) →
    ∀ r ∈ c.shared.hydra.rotated, r.old ≠ data.refreshToken

theorem spent_start (now : DateTime) : Spent (State.start now) where
  carried r h := by cases h
  stored id session h r hr := by cases hr
  presented t id session h := by cases h
  updating t id data h := by cases h

/-! ### A rotation and its request -/

/-- Whoever asked for a rotation presented the old token. -/
theorem presented_of_rotated (hcore : Core env w) {r : Rotation} (hr : r ∈ w.hydra.rotated) :
    w.hydra.Presented r.task r.old := by
  obtain ⟨answer, hcall, -⟩ := hcore.hydra.answered r hr
  exact ⟨some answer, hcall⟩

/-- If its answer could be read, the tokens are those of the rotation. -/
theorem tokens_of_rotated (hcore : Core env w) {r : Rotation} (hr : r ∈ w.hydra.rotated)
    {answer : Answer} {tokens : TokenSet} (hanswer : w.hydra.answer? r.task = some answer)
    (htokens : tokenRequest answer = .ok tokens) : tokens.refreshToken = some r.new := by
  obtain ⟨a, hcall, hnew⟩ := hcore.hydra.answered r hr
  obtain rfl : a = answer := by
    rw [HydraServer.answer?_of_call hcall] at hanswer
    exact Option.some.inj hanswer
  obtain ⟨response, hresponse, hsame, -⟩ := tokens_of_tokenRequest htokens
  rw [← hsame]
  exact hnew response hresponse

/-- Two tasks with the turn of the id that one token belongs to are one. -/
theorem turn_unique (hcore : Core env w) {id id' : String} (h : w.Chain id token)
    (h' : w.Chain id' token) (ht : w.refreshLocks.Holds t id) (hu : w.refreshLocks.Holds u id') :
    t = u := by
  obtain rfl := h.unique hcore h'
  exact hcore.locks.holds_unique ht hu

/-- A request in `refresh_session` has the session's turn. -/
theorem holds_of_refreshes {task : Task} (hown : Standing env t w (some task))
    (h : task.refreshes id = true) : w.refreshLocks.Holds t id := by
  cases task with
  | proxied id' here =>
    cases here with
    | refresh session =>
      obtain rfl : id' = id := of_decide_eq_true h
      exact (hown.1 : Refreshing env t w id' session).turn
    | updateSession data =>
      obtain rfl : id' = id := of_decide_eq_true h
      obtain ⟨⟨session, hrenewed⟩, -⟩ := hown
      exact hrenewed.refreshing.turn
    | _ => cases h
  | _ => cases h

/-- A call that Hydra answers with a rotation is that of a request that waits for it. -/
theorem refreshing_of_rotate {c : State} {now : DateTime} {effect : Effect} {answer : Answer}
    {hydra : HydraServer} (hinv : Inv env c) (hok : Uninterrupted c (.hydra u now effect answer))
    (hserve : c.shared.hydra.serve u now effect answer = some hydra) {r : Rotation}
    (hr : r ∈ hydra.rotated) : r ∈ c.shared.hydra.rotated ∨ r.task = u ∧
      ∃ id session, c.thread u = some (.proxied id (.refresh session)) ∧
        Refreshing env u c.shared id session ∧ session.refreshToken = r.old ∧
        hydra.answer? u = some answer ∧ ∃ tokens, tokenRequest answer = .ok tokens := by
  rcases HydraServer.rotated_serve hserve hr with hold | ⟨rfl, rfl, hcall, -⟩
  · exact Or.inl hold
  · obtain ⟨hawaits, hreadable⟩ := hok (HydraServer.refreshes_of_presented ⟨none, hcall⟩)
    obtain ⟨id, session, hthread⟩ := Task.of_awaitsRefresh hawaits
    have hrefreshing : Refreshing env r.task c.shared id session := (hinv.standing hthread).1
    obtain ⟨a, ha⟩ := hrefreshing.call
    have hsame : session.refreshToken = r.old := by
      rw [hcall, Option.some.injEq, TokenCall.mk.injEq, Grant.refreshToken.injEq] at ha
      exact ha.1.symm
    refine Or.inr ⟨rfl, id, session, hthread, hrefreshing, hsame, ?_, exists_of_isOk hreadable⟩
    obtain ⟨grant, h₁, -, -, -, -, rfl⟩ := HydraServer.serve_eq hserve
    simp [HydraServer.answer?]

/-! ### The steps -/

theorem Task.Carries.mono {task : Task} {r : Rotation} (h : task.Carries r w)
    (hgrows : w.hydra.Grows w'.hydra) : task.Carries r w' := by
  cases task with
  | proxied id here =>
    cases here with
    | refresh session =>
      obtain ⟨answer, tokens, hanswer, htokens⟩ := h
      exact ⟨answer, tokens, hgrows.answer? hanswer, htokens⟩
    | _ => exact h
  | _ => exact h

theorem Resumes.carries {i : Input} {task task' : Task} (h : Resumes env t i w task w' task')
    (hcore : Core env w) {r : Rotation} (hr : r ∈ w.hydra.rotated) (ht : r.task = t)
    (hcarries : task.Carries r w) : task'.Carries r w' := by
  subst ht
  cases h with
  | tokens hanswer htokens =>
    exact (refreshed_rotated _ _ _ _ _ (tokens_of_rotated hcore hr hanswer htokens)).1
  | rejected hanswer htokens | unavailable hanswer htokens =>
    obtain ⟨a, tokens, ha, htokens'⟩ := hcarries
    rw [hanswer] at ha
    cases ha
    rw [htokens] at htokens'
    cases htokens'
  | sessionGone => exact hcarries
  | updateSession => trivial
  | revokeLate => trivial
  | _ => exact hcarries.elim

theorem carried_step {c c' : State} {e : Event} (hinv : Inv env c) (h : Spent c)
    (hok : Uninterrupted c e) (hs : step env c e = some c') (r : Rotation)
    (hr : r ∈ c'.shared.hydra.rotated) :
    ∃ task, c'.thread r.task = some task ∧ task.Carries r c'.shared := by
  cases seenBy_of_step hinv hs r.task with
  | other htu g hquiet hthread =>
    rw [hquiet.rotated] at hr
    obtain ⟨task, htask, hcarries⟩ := h.carried r hr
    exact ⟨task, hthread.trans htask, hcarries.mono g.hydra⟩
  | hydra hserve =>
    rcases refreshing_of_rotate hinv hok hserve hr with
      hold | ⟨rfl, id, session, hthread, -, -, hanswer, tokens, htokens⟩
    · obtain ⟨task, htask, hcarries⟩ := h.carried r hold
      exact ⟨task, htask, hcarries.mono (HydraServer.grows_serve hserve)⟩
    · exact ⟨_, hthread, _, tokens, hanswer, htokens⟩
  | start hthread htimely hstart =>
    rw [Threads.shared_move, (hstart.quiet (hinv.unused hthread)).rotated] at hr
    obtain ⟨task, htask, -⟩ := h.carried r hr
    rw [hthread] at htask
    cases htask
  | resume hthread htimely hnow hresumes =>
    rw [Threads.shared_move, (hresumes.quiet (hinv.standing hthread)).rotated] at hr
    obtain ⟨task, htask, hcarries⟩ := h.carried r hr
    obtain rfl := Option.some.inj (hthread.symm.trans htask)
    exact ⟨_, c.thread_move_self _ _ _, hresumes.carries hinv.shared hr rfl hcarries⟩
  | drop hthread hdrops =>
    rw [Threads.shared_move, hdrops.quiet.rotated] at hr
    exact absurd rfl (hok r hr)

theorem presented_step {c c' : State} {e : Event} (hinv : Inv env c) (h : Spent c)
    (hok : Uninterrupted c e) (hs : step env c e = some c') (t : TaskId) (id : String)
    (session : SessionData) (ht : c'.thread t = some (.proxied id (.refresh session)))
    (r : Rotation) (hr : r ∈ c'.shared.hydra.rotated) (hold : r.old = session.refreshToken) :
    r.task = t := by
  cases seenTo_of_step hinv hs ht with
  | other htu g hquiet hthread =>
    rw [hquiet.rotated] at hr
    exact h.presented t id session hthread r hr hold
  | hydra hserve =>
    rcases refreshing_of_rotate hinv hok hserve hr with
      hr | ⟨rfl, id', session', hthread, hrefreshing', hold', -⟩
    · exact h.presented t id session ht r hr hold
    · have hrefreshing : Refreshing env t c.shared id session := (hinv.standing ht).1
      exact turn_unique hinv.shared hrefreshing'.genuine.chain
        (by rw [hold', hold]; exact hrefreshing.genuine.chain) hrefreshing'.turn hrefreshing.turn
  | start hthread htimely hstart => cases hstart
  | resume hthread htimely hnow hresumes =>
    rw [Threads.shared_move, (hresumes.quiet (hinv.standing hthread)).rotated] at hr
    cases hresumes with
    | refresh hget hstale =>
      obtain ⟨task, htask, hrefreshes⟩ := h.stored id session hget r hr hold
      exact hinv.shared.locks.holds_unique (holds_of_refreshes (hinv.standing htask) hrefreshes)
        (hinv.standing hthread).1.1

theorem updating_step {c c' : State} {e : Event} (hinv : Inv env c) (huntouched : Untouched c)
    (h : Spent c) (hok : Uninterrupted c e) (hs : step env c e = some c') (t : TaskId) (id : String)
    (data : SessionData) (ht : c'.thread t = some (.proxied id (.updateSession data)))
    (r : Rotation) (hr : r ∈ c'.shared.hydra.rotated) : r.old ≠ data.refreshToken := by
  intro hold
  cases seenTo_of_step hinv hs ht with
  | other htu g hquiet hthread =>
    rw [hquiet.rotated] at hr
    exact h.updating t id data hthread r hr hold
  | hydra hserve =>
    rcases refreshing_of_rotate hinv hok hserve hr with
      hr | ⟨rfl, id', session', hthread, hrefreshing', hold', -⟩
    · exact h.updating t id data ht r hr hold
    · obtain ⟨⟨session, hrenewed⟩, -⟩ := hinv.standing ht
      have htask : r.task = t := turn_unique hinv.shared hrefreshing'.genuine.chain
        (by rw [hold', hold]; exact hrenewed.genuine.chain) hrefreshing'.turn
        hrenewed.refreshing.turn
      rw [htask, ht] at hthread
      cases hthread
  | start hthread htimely hstart => cases hstart
  | resume hthread htimely hnow hresumes =>
    rw [Threads.shared_move, (hresumes.quiet (hinv.standing hthread)).rotated] at hr
    cases hresumes with
    | @tokens _ session answer tokens hanswer htokens =>
      cases hrefresh : tokens.refreshToken with
      | some new =>
        -- The new token is in transit, and whoever had the old one replaced presented that.
        refine huntouched.transit t _ new hthread
          (HydraServer.answered_of_tokenRequest hanswer htokens hrefresh) r.task ?_
        rw [← (refreshed_rotated _ _ _ _ _ hrefresh).1, ← hold]
        exact presented_of_rotated hinv.shared hr
      | none =>
        rw [(refreshed_kept _ _ _ _ _ hrefresh).1] at hold
        obtain rfl := h.presented t id session hthread r hr hold
        have hnew := tokens_of_rotated hinv.shared hr hanswer htokens
        rw [hrefresh] at hnew
        cases hnew

/-- A request that goes on from `refresh_session` has replaced what is stored. -/
theorem Resumes.refreshes {i : Input} {task task' : Task} (h : Resumes env t i w task w' task')
    {r : Rotation} (ht : r.task = t) (hcarries : task.Carries r w)
    (hrefreshes : task.refreshes id = true) {session : SessionData}
    (hget : w.sessions.getSession id = some session) :
    task'.refreshes id = true ∨ ∃ data, task = .proxied id (.updateSession data) ∧
      w'.sessions.getSession id = some data := by
  subst ht
  cases h with
  | tokens => exact Or.inl hrefreshes
  | rejected hanswer htokens | unavailable hanswer htokens =>
    obtain ⟨a, tokens, ha, htokens'⟩ := hcarries
    rw [hanswer] at ha
    cases ha
    rw [htokens] at htokens'
    cases htokens'
  | @sessionGone id' data hupdate =>
    obtain rfl : id' = id := of_decide_eq_true hrefreshes
    rw [Sessions.updateSession_eq_none.mp hupdate] at hget
    cases hget
  | @updateSession id' data sessions hupdate =>
    obtain rfl : id' = id := of_decide_eq_true hrefreshes
    have hdata := (Sessions.get_updateSession hupdate).2 id'
    rw [if_pos rfl] at hdata
    exact Or.inr ⟨data, rfl, hdata⟩
  | _ => cases hrefreshes

theorem stored_step {c c' : State} {e : Event} (hinv : Inv env c) (huntouched : Untouched c)
    (h : Spent c) (hok : Uninterrupted c e) (hs : step env c e = some c') (id : String)
    (session : SessionData) (hget : c'.shared.sessions.getSession id = some session)
    (r : Rotation) (hr : r ∈ c'.shared.hydra.rotated) (hold : r.old = session.refreshToken) :
    ∃ task, c'.thread r.task = some task ∧ task.refreshes id = true := by
  cases steps_of_step hs with
  | @start t request now w task hthread htimely hstart =>
    rw [Threads.shared_move, (hstart.quiet (hinv.unused hthread)).rotated] at hr
    rw [Threads.shared_move, hstart.sessions] at hget
    obtain ⟨task', htask', hrefreshes⟩ := h.stored id session hget r hr hold
    have hne : r.task ≠ t := by
      rintro rfl
      rw [hthread] at htask'
      cases htask'
    exact ⟨task', (c.thread_move_ne hne _ _).trans htask', hrefreshes⟩
  | @resume t i task task' w hthread htimely hnow hresumes =>
    rw [Threads.shared_move, (hresumes.quiet (hinv.standing hthread)).rotated] at hr
    rcases hresumes.stored hget with hget' | rfl | ⟨pending, previous, rfl⟩
    · obtain ⟨task₁, htask₁, hrefreshes⟩ := h.stored id session hget' r hr hold
      by_cases hrt : r.task = t
      · subst hrt
        obtain ⟨task₂, htask₂, hcarries⟩ := h.carried r hr
        obtain rfl := Option.some.inj (hthread.symm.trans htask₁)
        obtain rfl := Option.some.inj (hthread.symm.trans htask₂)
        rcases hresumes.refreshes rfl hcarries hrefreshes hget' with hnext | ⟨data, rfl, hdata⟩
        · exact ⟨task', c.thread_move_self _ _ _, hnext⟩
        · obtain rfl := Option.some.inj (hdata.symm.trans hget)
          exact absurd hold (h.updating _ id data hthread r hr)
      · exact ⟨task₁, (c.thread_move_ne hrt _ _).trans htask₁, hrefreshes⟩
    · exact absurd hold (h.updating t id session hthread r hr)
    · refine absurd ?_ (huntouched.transit t _ session.refreshToken hthread rfl r.task)
      rw [← hold]
      exact presented_of_rotated hinv.shared hr
  | @drop t task w hthread hdrops =>
    rw [Threads.shared_move, hdrops.quiet.rotated] at hr
    rw [Threads.shared_move, hdrops.sessions] at hget
    obtain ⟨task', htask', hrefreshes⟩ := h.stored id session hget r hr hold
    exact ⟨task', (c.thread_move_ne (hok r hr) _ _).trans htask', hrefreshes⟩
  | hydra hnow hserve =>
    rcases refreshing_of_rotate hinv hok hserve hr with
      hr | ⟨rfl, id', session', hthread, hrefreshing, hold', -⟩
    · exact h.stored id session hget r hr hold
    · refine ⟨_, hthread, decide_eq_true ?_⟩
      exact hrefreshing.genuine.chain.unique hinv.shared
        (by rw [hold', hold]; exact (hinv.shared.genuine id session hget).chain)
  | spawned => exact h.stored id session hget r hr hold

theorem spent_step {c c' : State} {e : Event} (hinv : Inv env c) (huntouched : Untouched c)
    (h : Spent c) (hok : Uninterrupted c e) (hs : step env c e = some c') : Spent c' where
  carried := carried_step hinv h hok hs
  stored := stored_step hinv huntouched h hok hs
  presented := presented_step hinv h hok hs
  updating := updating_step hinv huntouched h hok hs

theorem spent_of_reaches {now : DateTime} {c : State}
    (h : Reaches (step env) Uninterrupted (State.start now) c) : Spent c :=
  h.invariant_of (Q := fun c => Inv env c ∧ Untouched c)
    (fun _ hu => ⟨inv_of_reaches hu, untouched_of_reaches hu⟩) (spent_start now)
    fun _ _ _ hQ hspent hok hs => spent_step hQ.1 hQ.2 hspent hok hs

/-! ### When the request is gone -/

/-- The request is answered or dropped. -/
def Task.gone : Task → Bool
  | .answered _ | .dropped => true
  | _ => false

/-- What a request in `refresh_session` had replaced is the token of its session. -/
theorem chain_of_rotated (hcore : Core env w) {session : SessionData} {r : Rotation}
    (hr : r ∈ w.hydra.rotated) (hrefreshing : Refreshing env r.task w id session) :
    w.Chain id r.old := by
  obtain ⟨answer, hcall⟩ := presented_of_rotated hcore hr
  obtain ⟨answer', hcall'⟩ := hrefreshing.call
  rw [hcall, Option.some.injEq, TokenCall.mk.injEq, Grant.refreshToken.injEq] at hcall'
  rw [hcall'.1]
  exact hrefreshing.genuine.chain

/-- A request that has had a token replaced ends by storing the new one or revoking it. -/
theorem Resumes.kept_or_revoked {i : Input} {task task' : Task}
    (h : Resumes env t i w task w' task') (hcore : Core env w)
    (hown : Standing env t w (some task)) {r : Rotation} (hr : r ∈ w.hydra.rotated)
    (ht : r.task = t) (hcarries : task.Carries r w) (hlive : task.gone = false)
    (hgone : task'.gone = true) :
    ∃ id, w.Chain id r.old ∧
      ((∃ session, w'.sessions.getSession id = some session ∧ session.refreshToken = r.new) ∨
        w'.sessions.getSession id = none ∧ r.new ∈ w'.hydra.revoked) := by
  subst ht
  cases h with
  | tokens | rejected | sessionGone => cases hgone
  | unavailable hanswer htokens =>
    obtain ⟨answer, tokens, hanswer', htokens'⟩ := hcarries
    obtain rfl := Option.some.inj (hanswer.symm.trans hanswer')
    rw [htokens] at htokens'
    cases htokens'
  | @updateSession id data sessions hupdate =>
    obtain ⟨⟨session, hrenewed⟩, -⟩ := hown
    have hget := (Sessions.get_updateSession hupdate).2 id
    rw [if_pos rfl] at hget
    exact ⟨id, chain_of_rotated hcore hr hrenewed.refreshing, Or.inl ⟨data, hget, hcarries⟩⟩
  | @revokeLate id refreshToken =>
    obtain ⟨⟨session, data, hrenewed, hnone, -⟩, -⟩ := hown
    refine ⟨id, chain_of_rotated hcore hr hrenewed.refreshing, Or.inr ⟨hnone, ?_⟩⟩
    obtain rfl : refreshToken = r.new := hcarries
    exact List.mem_append_left _ (List.mem_singleton_self _)
  | _ => exact hcarries.elim

/-- **A rotation is not lost with its request.** In a run without interruption, when a request that
has had a token replaced is gone, the new token is what is stored for the token's session, or that
session is gone too and the new token was handed to a revocation. And whenever a spent token is
stored, the request that spent it is still between Hydra and the store. -/
theorem rotated_kept_or_revoked {now : DateTime} {c c' : State} {e : Event}
    (hc : Reaches (step env) Uninterrupted (State.start now) c) (hok : Uninterrupted c e)
    (hs : step env c e = some c') :
    (∀ r ∈ c'.shared.hydra.rotated, ∀ task task', c.thread r.task = some task →
      task.gone = false → c'.thread r.task = some task' → task'.gone = true →
      ∃ id, c'.shared.Chain id r.old ∧
        ((∃ session, c'.shared.sessions.getSession id = some session ∧
            session.refreshToken = r.new) ∨
          c'.shared.sessions.getSession id = none ∧ r.new ∈ c'.shared.hydra.revoked)) ∧
    ∀ id session, c'.shared.sessions.getSession id = some session →
      ∀ r ∈ c'.shared.hydra.rotated, r.old = session.refreshToken →
      ∃ task, c'.thread r.task = some task ∧ task.refreshes id = true := by
  have hinv := inv_of_reaches hc
  refine ⟨fun r hr task task' htask hlive htask' hgone => ?_,
    (spent_of_reaches (hc.tail hok hs)).stored⟩
  cases seenFrom_of_step hinv htask hs with
  | other htu g hquiet hthread =>
    obtain rfl := Option.some.inj (hthread.symm.trans htask')
    rw [hlive] at hgone
    cases hgone
  | hydra hserve =>
    obtain rfl := Option.some.inj (htask.symm.trans htask')
    rw [hlive] at hgone
    cases hgone
  | resume htimely hnow hresumes =>
    rw [Threads.thread_move_self, Option.some.injEq] at htask'
    subst htask'
    have hown := hinv.standing htask
    rw [Threads.shared_move, (hresumes.quiet hown).rotated] at hr
    obtain ⟨task₁, htask₁, hcarries⟩ := (spent_of_reaches hc).carried r hr
    obtain rfl := Option.some.inj (htask.symm.trans htask₁)
    obtain ⟨id, hchain, hend⟩ :=
      hresumes.kept_or_revoked hinv.shared hown hr rfl hcarries hlive hgone
    exact ⟨id, hchain.mono (hresumes.guarantee hown htimely hnow), hend⟩
  | drop hdrops =>
    rw [Threads.shared_move, hdrops.quiet.rotated] at hr
    exact absurd rfl (hok r hr)

/-- A refresh up to Hydra's answer, which rotates. -/
def Sample.rotated : List Event :=
  login 0 "a" 0 "access" "refresh" ++ refresh 1 "a" 900000000000 ++
    [.hydra 1 900000000000 (.granted (some "refresh'")) (tokens "access'" "refresh'")]

/-- The refresh makes a session of it, and stores that. -/
theorem rotated_kept_or_revoked_kept : ∃ c',
    run (step Sample.env) (State.start 0) (Sample.rotated ++
      [.resume 1 (Sample.at' 900000000000)] ++ [.resume 1 (Sample.at' 900000000000)]) = some c' ∧
    c'.thread 1 = some (.answered (.proxied (.ok "access'"))) ∧
    ∃ id session, c'.shared.sessions.getSession id = some session ∧
      session.refreshToken = "refresh'" := by
  obtain ⟨c, hc, hreaches, hp⟩ := exists_run_of Uninterrupted
    (fun c : State => (c.thread 1).any fun task => !task.gone)
    (by decide : (run (guarded (step Sample.env) Uninterrupted) (State.start 0)
      (Sample.rotated ++ [.resume 1 (Sample.at' 900000000000)])).any _ = true)
  obtain ⟨c', hc', hs, -, hp'⟩ := exists_run_append
    (fun c' : State => decide (c'.thread 1 = some (.answered (.proxied (.ok "access'"))) ∧
      ⟨"refresh", "refresh'", 1⟩ ∈ c'.shared.hydra.rotated ∧ c'.shared.hydra.revoked = [])) hc
    (by decide : (run (step Sample.env) (State.start 0) (Sample.rotated ++
      [.resume 1 (Sample.at' 900000000000)] ++ [.resume 1 (Sample.at' 900000000000)])).any _ = true)
  obtain ⟨task, htask, hlive⟩ := (Option.any_eq_true _ _).mp hp
  obtain ⟨hanswered, hrotated, hrevoked⟩ := of_decide_eq_true hp'
  have hend := rotated_kept_or_revoked (e := .resume 1 (Sample.at' 900000000000)) hreaches trivial
    (step_of_run hs)
  obtain ⟨id, -, hkept | ⟨-, hmem⟩⟩ :=
    hend.1 _ hrotated task _ htask (by simpa using hlive) hanswered rfl
  · exact ⟨c', hc', hanswered, id, hkept⟩
  · rw [hrevoked] at hmem
    cases hmem

/-- **Dropped between Hydra's rotation and the store**, the request leaves the spent token in the
store, nobody has the new one, and the next request presents the spent one again. -/
theorem rotated_lost : ∃ c,
    run (step Sample.env) (State.start 0)
      (Sample.rotated ++ [.drop 1] ++ Sample.refresh 2 "a" 900000000000) = some c ∧
    c.thread 1 = some .dropped ∧
    c.shared.hydra.rotated = [⟨"refresh", "refresh'", 1⟩] ∧
    (c.shared.sessions.getSession "a").map SessionData.refreshToken = some "refresh" ∧
    c.shared.hydra.revoked = [] ∧ c.shared.spawned 1 = [] ∧
    (c.shared.hydra.calls 2).map TokenCall.grant = some (.refreshToken "refresh") := by
  obtain ⟨c, hc, -, hp⟩ := exists_run
    (fun c : State => decide (c.thread 1 = some .dropped ∧
      c.shared.hydra.rotated = [⟨"refresh", "refresh'", 1⟩] ∧
      (c.shared.sessions.getSession "a").map SessionData.refreshToken = some "refresh" ∧
      c.shared.hydra.revoked = [] ∧ c.shared.spawned 1 = [] ∧
      (c.shared.hydra.calls 2).map TokenCall.grant = some (.refreshToken "refresh")))
    (by decide : (run (step Sample.env) (State.start 0)
      (Sample.rotated ++ [.drop 1] ++ Sample.refresh 2 "a" 900000000000)).any _ = true)
  exact ⟨c, hc, of_decide_eq_true hp⟩

end Bff

end WeaveAuth
