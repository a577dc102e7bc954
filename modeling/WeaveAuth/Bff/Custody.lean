import WeaveAuth.Bff.RevocationHandover
import WeaveAuth.Bff.Transit

/-!
# Where the refresh tokens are

A refresh token that Hydra issued to bff is live until Hydra rotates or refuses it, or its time is
up. A live one is stored with a session, handed to a revocation, or with the task that is to do
either; so when no request is in flight it is stored or was revoked.

Three ways through the code let go of a live token: a login that fails once its code is redeemed, an
answer of Hydra whose `expires_in` bff does not accept, and the sweep of a session that ends by its
thirty days.

## Main results

* `custody`: where none is taken, every live token is stored or was handed to Hydra's revocation
* `custody_lost`: two logins and a sweep that lose one

## Scope

No request of these runs is dropped, and the clock does not go back: `RevocationHandover` and
`SpentToken` say what a drop loses. The condition `LosesNothing` is on the events of a run. That it
asks for a usable `expires_in` is a condition like the two others, since Hydra may leave the field
out or answer with a zero.

## How the proof goes

`Kept` lists where a live token may be at any time: stored, handed to a revocation, or with a task
that has yet to do one or the other (`Task.Keeps`). A step of a task moves its own tokens from one
place to another (`Resumes.placed_kept`), and a step of anybody else leaves them where they are or
takes a session over. A token that Hydra has just issued is with the task whose call it answered,
since nobody is dropped here. When no request is in flight nobody keeps one, and the other two
places are what `custody` says.
-/

namespace WeaveAuth

namespace Bff

open Transition

variable {env : Env} {t u : TaskId} {w w' : World} {c c' : State} {id token : String}
  {session : SessionData} {issue : Issue}

/-- Hydra issued the token, has neither rotated nor refused it, and its time is not up. -/
structure Live (env : Env) (w : World) (issue : Issue) : Prop where
  issued : issue ∈ w.hydra.issued
  unrotated : ∀ r ∈ w.hydra.rotated, r.old ≠ issue.token
  unrefused : issue.token ∉ w.hydra.refused
  inTime : w.clock < issue.issuedAt + env.refreshTtl

instance (w : World) (issue : Issue) : Decidable (Live env w issue) :=
  decidable_of_iff (issue ∈ w.hydra.issued ∧ (∀ r ∈ w.hydra.rotated, r.old ≠ issue.token) ∧
      issue.token ∉ w.hydra.refused ∧ w.clock < issue.issuedAt + env.refreshTtl)
    ⟨fun ⟨h₁, h₂, h₃, h₄⟩ => ⟨h₁, h₂, h₃, h₄⟩,
      fun h => ⟨h.issued, h.unrotated, h.unrefused, h.inTime⟩⟩

/-- The tokens of a redeemed code come with an id_token, and it verifies; and a session that the
sweep drops ends with its refresh token. -/
def Task.LosesNothing (t : TaskId) (w : World) (i : Input) : Task → Prop
  | .callback (.exchangeCode _ _) => ∀ answer ∈ w.hydra.answer? t,
      ∀ tokens ∈ (tokenRequest answer).toOption,
      tokens.refreshToken.isSome = true → tokens.idToken.isSome = true
  | .callback (.verifyIdToken _ _ _ _ _) => i.idTokenError = none
  | .sweep (.sessions now) =>
      ∀ e ∈ w.sessions.byId.pairs, e.2.endsAt ≤ now → e.2.refreshExpiresAt ≤ now
  | _ => True

instance (t : TaskId) (w : World) (i : Input) : (task : Task) → Decidable (task.LosesNothing t w i)
  | .callback (.exchangeCode _ _) => inferInstanceAs (Decidable (∀ answer ∈ w.hydra.answer? t,
      ∀ tokens ∈ (tokenRequest answer).toOption,
      tokens.refreshToken.isSome = true → tokens.idToken.isSome = true))
  | .callback (.verifyIdToken _ _ _ _ _) => inferInstanceAs (Decidable (i.idTokenError = none))
  | .sweep (.sessions now) => inferInstanceAs (Decidable (∀ e ∈ w.sessions.byId.pairs,
      e.2.endsAt ≤ now → e.2.refreshExpiresAt ≤ now))
  | .callback (.saveSession _ _ _ _) | .callback (.revokeEvicted _ _ _)
  | .callback (.endSession _ _ _) | .sweep (.logoutJtis _) => .isTrue trivial
  | .proxied _ _ | .logout _ _ | .backchannelLogout _ | .internalRevoke _ | .answered _
  | .dropped => .isTrue trivial

/-- No request is dropped, an answer with a refresh token also has an `expires_in` that bff accepts,
and no step takes a way on which a token is lost. -/
def LosesNothing (c : State) : Event → Prop
  | .drop _ => False
  | .hydra _ _ (.granted (some _)) answer => (tokenRequest answer).isOk = true
  | .resume t i => ∀ task ∈ c.thread t, task.LosesNothing t c.shared i
  | _ => True

instance (c : State) : (e : Event) → Decidable (LosesNothing c e)
  | .drop _ => .isFalse fun h => h
  | .hydra _ _ (.granted (some _)) answer =>
    inferInstanceAs (Decidable ((tokenRequest answer).isOk = true))
  | .resume t i => inferInstanceAs (Decidable (∀ task ∈ c.thread t, task.LosesNothing t c.shared i))
  | .hydra _ _ (.granted none) _ | .hydra _ _ .refused _ | .hydra _ _ .nothing _ => .isTrue trivial
  | .start _ _ _ | .spawned _ => .isTrue trivial

/-- The task has the token, and is to store or to revoke it. -/
def Task.Keeps (t : TaskId) (w : World) (token : String) : Task → Prop
  | .callback (.exchangeCode _ _) | .proxied _ (.refresh _) => ∃ answer tokens,
      w.hydra.answer? t = some answer ∧ tokenRequest answer = .ok tokens ∧
        tokens.refreshToken = some token
  | .callback (.verifyIdToken _ _ _ _ refreshToken) => refreshToken = token
  | .callback (.saveSession _ _ _ data) => data.refreshToken = token
  | .callback (.endSession _ _ (.revoke session)) => session.refreshToken = token
  | .logout _ (.revoke session) => session.refreshToken = token
  | .proxied _ (.updateSession data) => data.refreshToken = token
  | .proxied _ (.revoke refreshToken) => refreshToken = token
  | _ => False

/-- Some session is stored with the token. -/
def Stored (w : World) (token : String) : Prop :=
  ∃ id session, w.sessions.getSession id = some session ∧ session.refreshToken = token

/-- Where a live token is. -/
inductive Kept (c : State) (token : String) : Prop where
  | stored (h : Stored c.shared token)
  | handed {t : TaskId} (h : Handed c.shared t token)
  | carried {t : TaskId} {task : Task} (hthread : c.thread t = some task)
      (h : task.Keeps t c.shared token)

structure Custody (env : Env) (c : State) : Prop where
  kept : ∀ issue, Live env c.shared issue → Kept c issue.token
  /-- A sweep goes by a reading of the past. -/
  sweeping : ∀ t now, c.thread t = some (.sweep (.sessions now)) → now ≤ c.shared.clock

/-! ### What a step leaves alone -/

theorem Live.back (h : Live env w' issue) (g : Guarantee u w w')
    (hissued : issue ∈ w.hydra.issued) : Live env w issue where
  issued := hissued
  unrotated r hr := h.unrotated r (g.hydra.rotated r hr)
  unrefused hmem := h.unrefused (g.hydra.refused _ hmem)
  inTime := lt_of_le_of_lt g.clock h.inTime

theorem Task.Keeps.mono {task : Task} (h : task.Keeps t w token) (hgrows : w.hydra.Grows w'.hydra) :
    task.Keeps t w' token := by
  cases task with
  | callback here =>
    cases here with
    | exchangeCode pending previous =>
      obtain ⟨answer, tokens, hanswer, hrest⟩ := h
      exact ⟨answer, tokens, hgrows.answer? hanswer, hrest⟩
    | endSession pending id here => cases here <;> exact h
    | _ => exact h
  | proxied id here =>
    cases here with
    | refresh session =>
      obtain ⟨answer, tokens, hanswer, hrest⟩ := h
      exact ⟨answer, tokens, hgrows.answer? hanswer, hrest⟩
    | _ => exact h
  | logout redirectUri here => cases here <;> exact h
  | _ => exact h

/-- Where a token of `t` is after its step. -/
def Placed (t : TaskId) (w : World) (task : Task) (token : String) : Prop :=
  Stored w token ∨ Handed w t token ∨ task.Keeps t w token

theorem Placed.kept {task : Task} (h : Placed t w task token) :
    Kept (c.move t w (some task)) token := by
  rcases h with hstored | hhanded | hkeeps
  · exact .stored hstored
  · exact .handed (t := t) hhanded
  · exact .carried (c.thread_move_self t _ _) hkeeps

/-! ### A task's own step -/

theorem Task.keeps_of_revokesInline {task : Task} (h : task.revokesInline = some session) :
    task.Keeps t w session.refreshToken := by
  cases task with
  | callback here =>
    cases here with
    | endSession pending id here =>
      cases here with
      | takeSession => cases h
      | revoke session' =>
        cases h
        rfl
    | _ => cases h
  | logout redirectUri here =>
    cases here with
    | takeSession => cases h
    | revoke session' =>
      cases h
      rfl
  | _ => cases h

/-- A session that is removed to be revoked is on its way there. -/
theorem Resumes.placed_removed {i : Input} {task task' : Task} (h : Resumes env t i w task w' task')
    (hcore : Core env w) (hown : Standing env t w (some task)) (hremoves : task.removes = true)
    (hhas : task.Has w id session) (hgone : w'.sessions.getSession id = none) :
    Placed t w' task' session.refreshToken := by
  rcases h.removed hcore hown hremoves hhas hgone with ⟨-, hawaits, -⟩ | ⟨-, hmem⟩
  · exact Or.inr (Or.inr (Task.keeps_of_revokesInline hawaits))
  · exact Or.inr (Or.inl (Or.inl hmem))

/-- What a refresh stores in the place of a session has that session's token, or Hydra has rotated
it. -/
theorem Renewed.same_or_rotated {data : SessionData} (h : Renewed env t w id session data)
    (hcore : Core env w) : data.refreshToken = session.refreshToken ∨
      ∃ r ∈ w.hydra.rotated, r.old = session.refreshToken := by
  obtain ⟨answer, tokens, now, now', hcall, htokens, rfl⟩ := h.answer
  cases hrefresh : tokens.refreshToken with
  | none => exact Or.inl (refreshed_kept _ _ _ _ _ hrefresh).1
  | some new =>
    obtain ⟨response, hresponse, hsame, -⟩ := tokens_of_tokenRequest htokens
    exact Or.inr ⟨_, hcore.hydra.refreshed t _ answer response new hcall hresponse
      (by rw [hsame, hrefresh]), rfl⟩

/-- A session that stays keeps a token that is live after the step. -/
theorem Resumes.refreshToken_stored {i : Input} {task task' : Task} {session' : SessionData}
    (h : Resumes env t i w task w' task') (hcore : Core env w)
    (hown : Standing env t w (some task)) (g : Guarantee t w w')
    (hget : w.sessions.getSession id = some session) (hlive : Live env w' issue)
    (htoken : session.refreshToken = issue.token)
    (hget' : w'.sessions.getSession id = some session') :
    session'.refreshToken = session.refreshToken := by
  rcases h.stored hget' with hkept | rfl | ⟨pending, previous, rfl⟩
  · rw [Option.some.inj (hget.symm.trans hkept)]
  · obtain ⟨⟨session₀, hrenewed⟩, -⟩ := hown
    rcases hrenewed.refreshing.pinned with hnone | hpinned
    · rw [hget] at hnone
      cases hnone
    · obtain rfl := Option.some.inj (hget.symm.trans hpinned)
      rcases hrenewed.same_or_rotated hcore with hsame | ⟨r, hr, hold⟩
      · exact hsame
      · exact absurd (hold.trans htoken) (hlive.unrotated r (g.hydra.rotated r hr))
  · obtain ⟨⟨-, hnew, -⟩, -⟩ := hown
    obtain ⟨v, hsaved⟩ := (hcore.genuine id session hget).saved
    exact absurd hsaved (hnew v)

/-- A session whose token is live has not ended with it. -/
theorem Live.lt_refreshExpiresAt (hlive : Live env w' issue) (g : Guarantee t w w')
    (hcore : Core env w) (hissue : issue ∈ w.hydra.issued)
    (hget : w.sessions.getSession id = some session) (htoken : session.refreshToken = issue.token) :
    w.clock < session.refreshExpiresAt := by
  obtain ⟨issue', hissue', htoken', hexpiry, -⟩ := hcore.genuine id session hget
  obtain rfl := hcore.hydra.issued_unique issue' hissue' issue hissue (by rw [htoken', htoken])
  exact lt_of_lt_of_le (hlive.back g hissue').inTime hexpiry

/-- What is taken after a refusal is a session with the token that Hydra refused. -/
theorem ne_of_takeRefused {id' endpoint : String} {status : ℕ} (hcore : Core env w)
    (hown : Standing env t w (some (.proxied id' (.takeSession endpoint status))))
    (hget : w.sessions.getSession id = some session)
    (hunrefused : session.refreshToken ∉ w.hydra.refused) : id ≠ id' := by
  rintro rfl
  obtain ⟨⟨session₀, answer, hrefreshing, hcall, hrejected⟩, -⟩ := hown
  rcases hrefreshing.pinned with hnone | hpinned
  · rw [hget] at hnone
    cases hnone
  · obtain rfl := Option.some.inj (hget.symm.trans hpinned)
    exact hunrefused (hcore.hydra.refused t _ answer hcall hrejected)

/-- What a sweep drops, if it ended with its refresh token, has one that is not live. -/
theorem Live.notMem_expired {now : DateTime} (hlive : Live env w' issue) (g : Guarantee t w w')
    (hcore : Core env w) (hissue : issue ∈ w.hydra.issued)
    (hget : w.sessions.getSession id = some session) (htoken : session.refreshToken = issue.token)
    (hnow : now ≤ w.clock)
    (hends : ∀ e ∈ w.sessions.byId.pairs, e.2.endsAt ≤ now → e.2.refreshExpiresAt ≤ now) :
    id ∉ w.sessions.expired now := by
  intro hmem
  obtain ⟨session', hget', hended⟩ := HashMap.mem_map_fst_filter.mp hmem
  obtain rfl : session = session' := Option.some.inj (hget.symm.trans hget')
  have hexpired : session.refreshExpiresAt ≤ now :=
    hends _ (HashMap.mem_pairs.mpr hget) (of_decide_eq_true hended)
  exact absurd (hlive.lt_refreshExpiresAt g hcore hissue hget htoken)
    (not_lt.mpr (hexpired.trans hnow))

/-- A stored token that is live after the step. -/
theorem Resumes.placed_stored {i : Input} {task task' : Task} (h : Resumes env t i w task w' task')
    (hcore : Core env w) (hown : Standing env t w (some task)) (hok : task.LosesNothing t w i)
    (hsweep : ∀ now, task = .sweep (.sessions now) → now ≤ w.clock) (g : Guarantee t w w')
    (hget : w.sessions.getSession id = some session)
    (hlive : Live env w' issue) (htoken : session.refreshToken = issue.token) :
    Placed t w' task' issue.token := by
  cases hget' : w'.sessions.getSession id with
  | some session' =>
    refine Or.inl ⟨id, session', hget', ?_⟩
    rw [h.refreshToken_stored hcore hown g hget hlive htoken hget', htoken]
  | none =>
    by_cases hremoves : task.removes = true
    · rw [← htoken]
      exact h.placed_removed hcore hown hremoves (Or.inl hget) hget'
    · have h' := h
      cases h with
      | @takeRefused id' endpoint status =>
        have hne := ne_of_takeRefused hcore hown hget (htoken ▸ hlive.unrefused)
        have hkept := Sessions.get_remove w.sessions id' id
        rw [if_neg hne, hget] at hkept
        rw [World.release, Sessions.takeSession, hkept] at hget'
        cases hget'
      | @sweepSessions now =>
        have hissue : issue ∈ w.hydra.issued := by
          rw [← (h'.quiet hown).issued]
          exact hlive.issued
        have hmem := hlive.notMem_expired g hcore hissue hget htoken (hsweep now rfl) hok
        replace hget' : (w.sessions.removeAll (w.sessions.expired now)).2.getSession id = none :=
          hget'
        rw [Sessions.get_removeAll, if_neg hmem, hget] at hget'
        cases hget'
      | @updateSession id' data sessions hupdate =>
        replace hget' := ((Sessions.get_updateSession hupdate).2 id).symm.trans hget'
        split at hget'
        · cases hget'
        · rw [hget] at hget'
          cases hget'
      | saveSession | noPrevious | takePrevious | noLogout | takeLogout | endBackchannel
      | endInternal => exact absurd rfl hremoves
      | _ =>
        rw [show w.sessions.getSession id = none from hget'] at hget
        cases hget

/-- A token that the task had. -/
theorem Resumes.placed_kept {i : Input} {task task' : Task} (h : Resumes env t i w task w' task')
    (hcore : Core env w) (hown : Standing env t w (some task)) (hok : task.LosesNothing t w i)
    (hkeeps : task.Keeps t w token) : Placed t w' task' token := by
  have htokens : ∀ {answer result}, (∃ answer got, w.hydra.answer? t = some answer ∧
      tokenRequest answer = .ok got ∧ got.refreshToken = some token) →
      w.hydra.answer? t = some answer → tokenRequest answer = result →
      ∃ got, result = .ok got ∧ got.refreshToken = some token :=
    fun {answer result} ⟨answer', got, hanswer', htokens', hrefresh⟩ hanswer htokens => by
      obtain rfl := Option.some.inj (hanswer.symm.trans hanswer')
      exact ⟨got, htokens.symm.trans htokens', hrefresh⟩
  have h' := h
  cases h with
  | exchangeFailed hanswer hfailed | rejected hanswer hfailed | unavailable hanswer hfailed =>
    obtain ⟨got, hresult, -⟩ := htokens hkeeps hanswer hfailed
    cases hresult
  | noIdToken hanswer hexchanged hid =>
    obtain ⟨got, hresult, hrefresh⟩ := htokens hkeeps hanswer hexchanged
    cases hresult
    have hsome := hok _ hanswer _ (by rw [hexchanged]; rfl)
      (Option.isSome_iff_exists.mpr ⟨_, hrefresh⟩)
    rw [hid] at hsome
    cases hsome
  | noRefreshToken hanswer hexchanged hnone =>
    obtain ⟨got, hresult, hrefresh⟩ := htokens hkeeps hanswer hexchanged
    cases hresult
    rw [hnone] at hrefresh
    cases hrefresh
  | exchanged hanswer hexchanged hid hsome =>
    obtain ⟨got, hresult, hrefresh⟩ := htokens hkeeps hanswer hexchanged
    cases hresult
    exact Or.inr (Or.inr (Option.some.inj (hsome.symm.trans hrefresh)))
  | idTokenRejected hid =>
    rw [show i.idTokenError = none from hok] at hid
    cases hid
  | verified => exact Or.inr (Or.inr hkeeps)
  | @saveSession pending previous id data =>
    obtain rfl : data.refreshToken = token := hkeeps
    cases hget : (w.sessions.saveSession id data).2.getSession id with
    | none => exact h'.placed_removed hcore hown rfl (Or.inr ⟨pending, previous, rfl⟩) hget
    | some session =>
      refine Or.inl ⟨id, session, hget, ?_⟩
      rw [Sessions.get_saveSession] at hget
      split at hget
      · cases hget
      · rw [if_pos rfl] at hget
        cases hget
        rfl
  | revokePrevious | revokeLogout | revokeLate =>
    cases hkeeps
    exact Or.inr (Or.inl (Or.inr (List.mem_append_left _ (List.mem_singleton_self _))))
  | tokens hanswer hrefreshed =>
    obtain ⟨got, hresult, hrefresh⟩ := htokens hkeeps hanswer hrefreshed
    cases hresult
    exact Or.inr (Or.inr (refreshed_rotated _ _ _ _ _ hrefresh).1)
  | sessionGone => exact Or.inr (Or.inr hkeeps)
  | @updateSession id data sessions hupdate =>
    have hget := (Sessions.get_updateSession hupdate).2 id
    rw [if_pos rfl] at hget
    exact Or.inl ⟨id, data, hget, hkeeps⟩
  | _ => exact hkeeps.elim

/-! ### The steps -/

/-- A refresh token that is issued is in the answer to the call it is issued for. -/
theorem HydraServer.issued_serve {h h' : HydraServer} {now : DateTime} {effect : Effect}
    {answer : Answer} (hs : h.serve u now effect answer = some h') (hissue : issue ∈ h'.issued) :
    issue ∈ h.issued ∨ effect = .granted (some issue.token) := by
  obtain ⟨grant, h₁, -, -, -, hperformed, rfl⟩ := serve_eq hs
  cases hperformed with
  | nothing | refuse | redeem => exact Or.inl hissue
  | issue code verifier new fresh | rotate old new issue' mem hold fresh =>
    rcases List.mem_cons.mp hissue with rfl | hissue
    · exact Or.inr rfl
    · exact Or.inl hissue

/-- A token that Hydra has just issued is with the task that waits for it. -/
theorem kept_of_issued {now : DateTime} {answer : Answer} {hydra : HydraServer}
    (hawaited : Awaited c)
    (hserve : c.shared.hydra.serve u now (.granted (some token)) answer = some hydra)
    (hreadable : (tokenRequest answer).isOk = true) :
    Kept ⟨{ c.shared with hydra := hydra }, c.thread⟩ token := by
  obtain ⟨tokens, htokens⟩ := exists_of_isOk hreadable
  obtain ⟨response, hresponse, hsame, -⟩ := tokens_of_tokenRequest htokens
  obtain ⟨grant, h₁, hcall, hagrees, -, -, rfl⟩ := HydraServer.serve_eq hserve
  have hrefresh : tokens.refreshToken = some token := by
    have heffect := HydraServer.agrees_tokens hagrees hresponse
    rw [Effect.granted.injEq] at heffect
    rw [← hsame, ← heffect]
  have hhas : ∃ answer' tokens, ({ h₁ with
        lastAt := now
        calls := Function.update c.shared.hydra.calls u (some ⟨grant, some answer⟩) } :
        HydraServer).answer? u = some answer' ∧
      tokenRequest answer' = .ok tokens ∧ tokens.refreshToken = some token :=
    ⟨answer, tokens, by simp [HydraServer.answer?], htokens, hrefresh⟩
  obtain ⟨id, session, hthread⟩ | ⟨pending, previous, hthread⟩ :=
    Task.of_awaitsHydra (hawaited u grant hcall)
  · refine .carried hthread ?_
    exact hhas
  · refine .carried hthread ?_
    exact hhas

theorem kept_step {e : Event} (hinv : Inv env c) (hawaited : Awaited c) (h : Custody env c)
    (hok : LosesNothing c e) (hs : step env c e = some c') (hlive : Live env c'.shared issue) :
    Kept c' issue.token := by
  obtain ⟨u, g⟩ := guarantee_of_step hinv hs
  -- What another task carries it keeps, and what is handed over stays so.
  have hrest : issue ∈ c.shared.hydra.issued →
      (Stored c.shared issue.token → Kept c' issue.token) →
      (∀ t task, c.thread t = some task → task.Keeps t c.shared issue.token →
        c'.thread t = some task ∨ Kept c' issue.token) → Kept c' issue.token :=
    fun hissue hstored hcarried => by
      cases h.kept issue (hlive.back g hissue) with
      | stored hget => exact hstored hget
      | handed hhanded => exact .handed (handed_step hhanded hs)
      | carried hthread hkeeps =>
        rcases hcarried _ _ hthread hkeeps with hsame | hkept
        · exact .carried hsame (hkeeps.mono g.hydra)
        · exact hkept
  cases steps_of_step hs with
  | @start t request now w task hthread htimely hstart =>
    have hissue := hlive.issued
    rw [Threads.shared_move, (hstart.quiet (hinv.unused hthread)).issued] at hissue
    refine hrest hissue (fun hstored => .stored ?_) fun v task' hv _ => Or.inl ?_
    · rw [Stored, Threads.shared_move, hstart.sessions]
      exact hstored
    · have hne : v ≠ t := by
        rintro rfl
        rw [hthread] at hv
        cases hv
      exact (c.thread_move_ne hne _ _).trans hv
  | @resume t i task task' w hthread htimely hnow hresumes =>
    have hown := hinv.standing hthread
    have hissue := hlive.issued
    rw [Threads.shared_move, (hresumes.quiet hown).issued] at hissue
    have hloses := hok task hthread
    refine hrest hissue (fun ⟨id, session, hget, htoken⟩ => ?_) fun v task₁ hv hkeeps => ?_
    · exact (hresumes.placed_stored hinv.shared hown hloses
        (fun now heq => h.sweeping t now (by rw [hthread, heq]))
        (hresumes.guarantee hown htimely hnow) hget hlive htoken).kept
    · by_cases hvt : v = t
      · subst hvt
        obtain rfl := Option.some.inj (hthread.symm.trans hv)
        exact Or.inr (hresumes.placed_kept hinv.shared hown hloses hkeeps).kept
      · exact Or.inl ((c.thread_move_ne hvt _ _).trans hv)
  | drop => exact hok.elim
  | @hydra t now effect answer hydra hnow hserve =>
    rcases HydraServer.issued_serve hserve hlive.issued with hissue | rfl
    · exact hrest hissue (fun hstored => .stored hstored) fun v task hv _ => Or.inl hv
    · exact kept_of_issued hawaited hserve hok
  | spawned =>
    exact hrest hlive.issued (fun hstored => .stored hstored) fun v task hv _ => Or.inl hv

theorem sweeping_step {e : Event} (hinv : Inv env c) (h : Custody env c)
    (hs : step env c e = some c') {now : DateTime}
    (ht : c'.thread t = some (.sweep (.sessions now))) : now ≤ c'.shared.clock := by
  obtain ⟨u, g⟩ := guarantee_of_step hinv hs
  cases seenTo_of_step hinv hs ht with
  | other htu g hquiet hthread => exact le_trans (h.sweeping t now hthread) g.clock
  | hydra _ hthread => exact h.sweeping t now hthread
  | start hthread htimely hstart =>
    cases hstart
    exact le_refl _
  | resume hthread htimely hnow hresumes => cases hresumes

theorem custody_start (env : Env) (now : DateTime) : Custody env (State.start now) where
  kept issue hlive := by cases hlive.issued
  sweeping t now ht := by cases ht

theorem custody_of_reaches {now : DateTime}
    (h : Reaches (step env) LosesNothing (State.start now) c) : Custody env c :=
  h.invariant_of (Q := fun c => Inv env c ∧ Awaited c)
    (fun _ hc => ⟨inv_of_reaches hc, awaited_of_reaches hc fun _ _ _ hok he => by
      subst he
      exact hok⟩)
    (custody_start env now)
    fun _ _ _ hQ hcustody hok hs =>
      ⟨fun _ hlive => kept_step hQ.1 hQ.2 hcustody hok hs hlive,
        fun _ _ ht => sweeping_step hQ.1 hcustody hs ht⟩

/-- The task is a request that was answered, or is none. -/
def Task.idle : Task → Bool
  | .answered _ | .sweep _ => true
  | _ => false

/-- **Custody.** In a run on which no token is lost, when no request is in flight every live refresh
token is stored with a session or was handed to Hydra's revocation. -/
theorem custody {now : DateTime} (hc : Reaches (step env) LosesNothing (State.start now) c)
    (hidle : ∀ t task, c.thread t = some task → task.idle = true)
    (hlive : Live env c.shared issue) :
    (∃ id session, c.shared.sessions.getSession id = some session ∧
      session.refreshToken = issue.token) ∨ issue.token ∈ c.shared.hydra.revoked := by
  cases (custody_of_reaches hc).kept issue hlive with
  | stored hstored => exact Or.inl hstored
  | @handed t hhanded =>
    refine Or.inr (hhanded.resolve_left fun hmem => ?_)
    -- A request that was answered has joined its revocations.
    have hnone : c.shared.spawned t = [] := by
      have hstanding := (inv_of_reaches hc).thread t
      cases hthread : c.thread t with
      | none =>
        rw [hthread] at hstanding
        exact hstanding.2
      | some task =>
        rw [hthread] at hstanding
        refine hstanding.2 ?_
        have h := hidle t task hthread
        cases task <;> first | rfl | cases h
    rw [hnone] at hmem
    cases hmem
  | @carried t task hthread hkeeps =>
    have h := hidle t task hthread
    cases task <;> first | exact hkeeps.elim | cases h

/-- After a run of the first tasks nobody else is about. -/
theorem idle_of_run {now : DateTime} {es : List Event} {n : ℕ}
    (hrun : run (step env) (State.start now) es = some c) (hes : ∀ e ∈ es, e.task < n)
    (hidle : ∀ t ∈ List.range n, (c.thread t).all Task.idle = true) (t : TaskId) (task : Task)
    (ht : c.thread t = some task) : task.idle = true := by
  by_cases htn : t < n
  · have h := hidle t (List.mem_range.mpr htn)
    rwa [ht] at h
  · have hother : ∀ e ∈ es, e.task ≠ t := by
      rintro e he rfl
      exact htn (hes e he)
    rw [thread_run hother hrun] at ht
    cases ht

/-- A login and a refresh. -/
def Sample.refreshed : List Event :=
  login 0 "a" 0 "access" "refresh" ++ refresh 1 "a" (Duration.days 20) ++
    finish 1 (Duration.days 20) "access'" "refresh'"

/-- The token of a refresh is stored or revoked. -/
theorem custody_refreshed : ∃ c,
    run (step Sample.env) (State.start 0) Sample.refreshed = some c ∧
    Live Sample.env c.shared ⟨"refresh'", Duration.days 20, 0⟩ ∧
    ((∃ id session, c.shared.sessions.getSession id = some session ∧
      session.refreshToken = "refresh'") ∨ "refresh'" ∈ c.shared.hydra.revoked) := by
  obtain ⟨c, hc, hreaches, hp⟩ := exists_run_of LosesNothing
    (fun c : State => decide ((∀ t ∈ List.range 2, (c.thread t).all Task.idle = true) ∧
      Live Sample.env c.shared ⟨"refresh'", Duration.days 20, 0⟩))
    (by decide : (run (guarded (step Sample.env) LosesNothing) (State.start 0)
      Sample.refreshed).any _ = true)
  obtain ⟨hidle, hlive⟩ := of_decide_eq_true hp
  exact ⟨c, hc, hlive, custody hreaches (idle_of_run hc (by decide) hidle) hlive⟩

theorem not_stored_of_pairs (hnone : w.sessions.byId.pairs = []) : ¬Stored w token := by
  rintro ⟨id, session, hget, -⟩
  have hmem := HashMap.mem_pairs.mpr hget
  rw [hnone] at hmem
  cases hmem

/-- A login whose token response leaves `expires_in` out. -/
def Sample.neverExpires : List Event :=
  [.start 0 (.callback (some ⟨"s", "v", "n", "https://app.test/"⟩) (.code "c" (some "s")) none) 0,
    .hydra 0 0 (.granted (some "refresh"))
      (.ok ⟨200, none, .ok ⟨"access", some "refresh", some "id", none⟩⟩),
    .resume 0 (at' 0)]

/-- **Three tokens lost.** A login whose id_token does not verify, one whose token response has no
`expires_in`, and a session that was refreshed after twenty days and is swept after thirty: nobody
is about any more, the token is live, and it is neither stored nor was it revoked. -/
theorem custody_lost :
    (∃ c, run (step Sample.env) (State.start 0) (Sample.redeem 0 none 0 "access" "refresh" ++
        [.resume 0 (Sample.at' 0),
          .resume 0 { Sample.at' 0 with idTokenError := some (.wrongIssuer "other") }]) = some c ∧
      (∀ t task, c.thread t = some task → task.idle = true) ∧
      Live Sample.env c.shared ⟨"refresh", 0, 0⟩ ∧ ¬Stored c.shared "refresh" ∧
      "refresh" ∉ c.shared.hydra.revoked) ∧
    (∃ c, run (step Sample.env) (State.start 0) Sample.neverExpires = some c ∧
      (∀ t task, c.thread t = some task → task.idle = true) ∧
      Live Sample.env c.shared ⟨"refresh", 0, 0⟩ ∧ ¬Stored c.shared "refresh" ∧
      "refresh" ∉ c.shared.hydra.revoked) ∧
    ∃ c, run (step Sample.env) (State.start 0) (Sample.refreshed ++
        [.start 2 .sweep (Duration.days 30), .resume 2 (Sample.at' (Duration.days 30)),
          .resume 2 (Sample.at' (Duration.days 30))]) = some c ∧
      (∀ t task, c.thread t = some task → task.idle = true) ∧
      Live Sample.env c.shared ⟨"refresh'", Duration.days 20, 0⟩ ∧ ¬Stored c.shared "refresh'" ∧
      "refresh'" ∉ c.shared.hydra.revoked := by
  refine ⟨?_, ?_, ?_⟩
  · obtain ⟨c, hc, -, hp⟩ := exists_run
      (fun c : State => decide ((∀ t ∈ List.range 1, (c.thread t).all Task.idle = true) ∧
        Live Sample.env c.shared ⟨"refresh", 0, 0⟩ ∧ c.shared.sessions.byId.pairs = [] ∧
        "refresh" ∉ c.shared.hydra.revoked))
      (by decide : (run (step Sample.env) (State.start 0)
        (Sample.redeem 0 none 0 "access" "refresh" ++ [.resume 0 (Sample.at' 0),
          .resume 0 { Sample.at' 0 with idTokenError := some (.wrongIssuer "other") }])).any _
        = true)
    obtain ⟨hidle, hlive, hnone, hrevoked⟩ := of_decide_eq_true hp
    exact ⟨c, hc, idle_of_run hc (by decide) hidle, hlive, not_stored_of_pairs hnone, hrevoked⟩
  · obtain ⟨c, hc, -, hp⟩ := exists_run
      (fun c : State => decide ((∀ t ∈ List.range 1, (c.thread t).all Task.idle = true) ∧
        Live Sample.env c.shared ⟨"refresh", 0, 0⟩ ∧ c.shared.sessions.byId.pairs = [] ∧
        "refresh" ∉ c.shared.hydra.revoked))
      (by decide : (run (step Sample.env) (State.start 0) Sample.neverExpires).any _ = true)
    obtain ⟨hidle, hlive, hnone, hrevoked⟩ := of_decide_eq_true hp
    exact ⟨c, hc, idle_of_run hc (by decide) hidle, hlive, not_stored_of_pairs hnone, hrevoked⟩
  · obtain ⟨c, hc, -, hp⟩ := exists_run
      (fun c : State => decide ((∀ t ∈ List.range 3, (c.thread t).all Task.idle = true) ∧
        Live Sample.env c.shared ⟨"refresh'", Duration.days 20, 0⟩ ∧
        c.shared.sessions.byId.pairs = [] ∧ "refresh'" ∉ c.shared.hydra.revoked))
      (by decide : (run (step Sample.env) (State.start 0) (Sample.refreshed ++
        [.start 2 .sweep (Duration.days 30), .resume 2 (Sample.at' (Duration.days 30)),
          .resume 2 (Sample.at' (Duration.days 30))])).any _ = true)
    obtain ⟨hidle, hlive, hnone, hrevoked⟩ := of_decide_eq_true hp
    exact ⟨c, hc, idle_of_run hc (by decide) hidle, hlive, not_stored_of_pairs hnone, hrevoked⟩

end Bff

end WeaveAuth
