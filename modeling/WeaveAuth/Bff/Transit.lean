import WeaveAuth.Bff.Invariant

/-!
# Tokens on their way into the store

Between Hydra's answer and the store a new refresh token is a local of one task. Nobody presents it
to Hydra until it is stored, since what a task presents is what it has read from the store.

## Main results

* `untouched_of_reaches`: a token in transit has not been presented
* `awaited_of_reaches`: where nobody is dropped, every call is awaited
* `Chain.unique`: a refresh token belongs to one session id

## Implementation notes

`Chain` ties a refresh token to a session id by the login whose tokens it came of, and not by what
is stored, because in transit it is not stored anywhere. That no two ids have a token in common
follows from Hydra's never issuing one twice.
-/

namespace WeaveAuth

namespace Bff

open Transition

variable {env : Env} {t u : TaskId} {w w' : World} {id id' token : String}

/-- The refresh token comes of the login that the id was saved by. -/
def World.Chain (w : World) (id token : String) : Prop :=
  ∃ issue ∈ w.hydra.issued, issue.token = token ∧ (id, issue.login) ∈ w.saved

theorem Genuine.chain {session : SessionData} (h : Genuine env w id session) :
    w.Chain id session.refreshToken := by
  obtain ⟨issue, hissue, htoken, -, hsaved, -⟩ := h
  exact ⟨issue, hissue, htoken, hsaved⟩

theorem World.Chain.mono (h : w.Chain id token) (g : Guarantee t w w') : w'.Chain id token := by
  obtain ⟨issue, hissue, htoken, hsaved⟩ := h
  exact ⟨issue, g.hydra.issued _ hissue, htoken, g.saved _ hsaved⟩

/-- **A refresh token belongs to one session id.** -/
theorem World.Chain.unique (hcore : Core env w) (h : w.Chain id token) (h' : w.Chain id' token) :
    id = id' := by
  obtain ⟨issue, hissue, htoken, hsaved⟩ := h
  obtain ⟨issue', hissue', htoken', hsaved'⟩ := h'
  obtain rfl := hcore.hydra.issued_unique issue hissue issue' hissue' (by rw [htoken, htoken'])
  exact hcore.ids.id_unique id id' issue.login (hcore.ids.saved_drawn _ hsaved)
    (hcore.ids.saved_drawn _ hsaved')

/-- Hydra's answer to the task's call carries the refresh token. -/
def HydraServer.Answered (h : HydraServer) (t : TaskId) (token : String) : Prop :=
  ∃ answer response, h.answer? t = some answer ∧ answer.tokens? = some response ∧
    response.refreshToken = some token

theorem HydraServer.answered_of_tokenRequest {h : HydraServer} {answer : Answer}
    {tokens : TokenSet} (hanswer : h.answer? t = some answer)
    (htokens : tokenRequest answer = .ok tokens) (hrefresh : tokens.refreshToken = some token) :
    h.Answered t token := by
  obtain ⟨response, hresponse, hsame, -⟩ := tokens_of_tokenRequest htokens
  exact ⟨answer, response, hanswer, hresponse, by rw [hsame, hrefresh]⟩

/-- The task has the refresh token from Hydra, and has yet to store it. -/
def Task.InTransit (t : TaskId) (w : World) (token : String) : Task → Prop
  | .callback (.exchangeCode _ _) => w.hydra.Answered t token
  | .callback (.verifyIdToken _ _ _ _ refreshToken) => refreshToken = token
  | .callback (.saveSession _ _ _ data) => data.refreshToken = token
  | .proxied _ (.refresh _) => w.hydra.Answered t token
  | .proxied _ (.updateSession data) =>
      data.refreshToken = token ∧ ∃ old, ⟨old, token, t⟩ ∈ w.hydra.rotated
  | _ => False

/-- No refresh token in transit has been presented, and every one presented was issued. -/
structure Untouched (c : State) : Prop where
  presented : ∀ u token, c.shared.hydra.Presented u token →
    ∃ issue ∈ c.shared.hydra.issued, issue.token = token
  transit : ∀ t task token, c.thread t = some task → task.InTransit t c.shared token →
    ∀ u, ¬c.shared.hydra.Presented u token

/-! ### Whose a token in transit is -/

/-- It comes of the task's own code, while the task has saved no session, or the task has the turn
of the id it belongs to. -/
theorem owner_of_inTransit {task : Task} (hcore : Core env w)
    (hown : Standing env t w (some task)) (h : task.InTransit t w token) :
    (∃ now, ⟨token, now, t⟩ ∈ w.hydra.issued ∧ ∀ id, (id, t) ∉ w.saved) ∨
    ∃ id, w.Chain id token ∧ w.refreshLocks.Holds t id := by
  have hexchanged : ∀ {code verifier answer response}, w.hydra.calls t
      = some ⟨.authorizationCode code verifier, some answer⟩ → answer.tokens? = some response →
      response.refreshToken = some token → (∀ id, (id, t) ∉ w.drawn) →
      ∃ now, ⟨token, now, t⟩ ∈ w.hydra.issued ∧ ∀ id, (id, t) ∉ w.saved :=
    fun hcall hresponse hrefresh hdrawn => by
      obtain ⟨now, hissue⟩ := hcore.hydra.exchanged t _ _ _ _ token hcall hresponse hrefresh
      exact ⟨now, hissue, fun id hsaved => hdrawn id (hcore.ids.saved_drawn _ hsaved)⟩
  cases task with
  | callback here =>
    cases here with
    | exchangeCode pending previous =>
      obtain ⟨⟨hdrawn, code, verifier, a, hcall⟩, -⟩ := hown
      obtain ⟨answer, response, hanswer, hresponse, hrefresh⟩ := h
      exact Or.inl
        (hexchanged (HydraServer.call_of_answer ⟨a, hcall⟩ hanswer) hresponse hrefresh hdrawn)
    | verifyIdToken pending previous tokens idToken refreshToken =>
      obtain ⟨⟨hdrawn, code, verifier, answer, hcall, htokens, -, hrefresh⟩, -⟩ := hown
      obtain rfl : refreshToken = token := h
      obtain ⟨response, hresponse, hsame, -⟩ := tokens_of_tokenRequest htokens
      exact Or.inl (hexchanged hcall hresponse (by rw [hsame, hrefresh]) hdrawn)
    | saveSession pending previous id data =>
      obtain ⟨⟨hdrawn, hnew, now, hissue, -⟩, -⟩ := hown
      obtain rfl : data.refreshToken = token := h
      refine Or.inl ⟨now, hissue, fun id' hsaved => ?_⟩
      obtain rfl := hcore.ids.id_unique id' id t (hcore.ids.saved_drawn _ hsaved) hdrawn
      exact hnew t hsaved
    | revokeEvicted pending previous id => exact h.elim
    | endSession pending id here => exact h.elim
  | proxied id here =>
    cases here with
    | refresh session =>
      have hrefreshing : Refreshing env t w id session := hown.1
      obtain ⟨a, hcall⟩ := hrefreshing.call
      obtain ⟨answer, response, hanswer, hresponse, hrefresh⟩ := h
      have hrotation := hcore.hydra.refreshed t _ answer response token
        (HydraServer.call_of_answer ⟨a, hcall⟩ hanswer) hresponse hrefresh
      obtain ⟨issue, hissue, hold, now, hnew⟩ := hcore.hydra.chained _ hrotation
      obtain ⟨issue', hissue', hold', hsaved⟩ := hrefreshing.genuine.chain
      obtain rfl := hcore.hydra.issued_unique issue hissue issue' hissue' (by rw [hold, hold'])
      exact Or.inr ⟨id, ⟨_, hnew, rfl, hsaved⟩, hrefreshing.turn⟩
    | updateSession data =>
      obtain ⟨⟨session, hrenewed⟩, -⟩ := hown
      obtain ⟨rfl, -⟩ := h
      exact Or.inr ⟨id, hrenewed.genuine.chain, hrenewed.refreshing.turn⟩
    | _ => exact h.elim
  | _ => exact h.elim

/-! ### The steps -/

theorem HydraServer.Answered.of_quiet {h h' : HydraServer} (hquiet : h.Quiet h')
    (ha : h'.Answered t token) : h.Answered t token := by
  obtain ⟨answer, response, hanswer, hrest⟩ := ha
  exact ⟨answer, response, (hquiet.answer? t).symm.trans hanswer, hrest⟩

theorem Task.InTransit.of_quiet {task : Task} (hquiet : w.hydra.Quiet w'.hydra)
    (h : task.InTransit t w' token) : task.InTransit t w token := by
  cases task with
  | callback here =>
    cases here with
    | exchangeCode => exact HydraServer.Answered.of_quiet hquiet h
    | _ => exact h
  | proxied id here =>
    cases here with
    | refresh => exact HydraServer.Answered.of_quiet hquiet h
    | updateSession data =>
      obtain ⟨htoken, old, hrotated⟩ := h
      exact ⟨htoken, old, hquiet.rotated ▸ hrotated⟩
    | _ => exact h
  | _ => exact h

/-- A token that Hydra hands out with this answer is new. -/
theorem HydraServer.answered_serve {h h' : HydraServer} {now : DateTime} {effect : Effect}
    {answer : Answer} (hs : h.serve u now effect answer = some h') (ha : h'.Answered t token) :
    h.Answered t token ∨ ∀ issue ∈ h.issued, issue.token ≠ token := by
  obtain ⟨grant, h₁, hcall, hagrees, -, hperformed, rfl⟩ := serve_eq hs
  obtain ⟨a, response, hanswer, hresponse, hrefresh⟩ := ha
  by_cases htu : t = u
  · subst htu
    obtain rfl : answer = a := by simpa [HydraServer.answer?] using hanswer
    obtain rfl : effect = .granted (some token) := by
      rw [agrees_tokens hagrees hresponse, hrefresh]
    cases hperformed with
    | nothing _ _ _ hgranted => exact absurd rfl (hgranted token)
    | issue code verifier new fresh => exact Or.inr fresh
    | rotate old new issue mem hold fresh => exact Or.inr fresh
  · exact Or.inl ⟨a, response, by simpa [HydraServer.answer?, htu] using hanswer, hresponse,
      hrefresh⟩

/-- A rotation is for the call that is answered, and to a token that is new. -/
theorem HydraServer.rotated_serve {h h' : HydraServer} {now : DateTime} {effect : Effect}
    {answer : Answer} (hs : h.serve u now effect answer = some h') {r : Rotation}
    (hr : r ∈ h'.rotated) : r ∈ h.rotated ∨ r.task = u ∧ effect = .granted (some r.new) ∧
      h.calls u = some ⟨.refreshToken r.old, none⟩ ∧ ∀ issue ∈ h.issued, issue.token ≠ r.new := by
  obtain ⟨grant, h₁, hcall, -, -, hperformed, rfl⟩ := serve_eq hs
  cases hperformed with
  | nothing | refuse | redeem | issue => exact Or.inl hr
  | rotate old new issue mem hold fresh =>
    rcases List.mem_cons.mp hr with rfl | hr
    · exact Or.inr ⟨rfl, rfl, hcall, fresh⟩
    · exact Or.inl hr

theorem Task.InTransit.serve {task : Task} {now : DateTime} {effect : Effect} {answer : Answer}
    {hydra : HydraServer} (hs : w.hydra.serve u now effect answer = some hydra)
    (h : task.InTransit t { w with hydra := hydra } token) :
    task.InTransit t w token ∨ ∀ issue ∈ w.hydra.issued, issue.token ≠ token := by
  cases task with
  | callback here =>
    cases here with
    | exchangeCode => exact HydraServer.answered_serve hs h
    | _ => exact Or.inl h
  | proxied id here =>
    cases here with
    | refresh => exact HydraServer.answered_serve hs h
    | updateSession data =>
      obtain ⟨htoken, old, hrotated⟩ := h
      rcases HydraServer.rotated_serve hs hrotated with hold | ⟨-, -, -, hfresh⟩
      · exact Or.inl ⟨htoken, old, hold⟩
      · exact Or.inr hfresh
    | _ => exact Or.inl h
  | _ => exact Or.inl h

/-- A task's own step brings no token into transit, and presents none where one is. -/
theorem Resumes.inTransit {i : Input} {task task' : Task} (h : Resumes env t i w task w' task')
    (hcore : Core env w) (hown : Standing env t w (some task))
    (htransit : task'.InTransit t w' token) :
    task.InTransit t w token ∧ ∀ u, w'.hydra.Presented u token → w.hydra.Presented u token := by
  cases h with
  | refresh =>
    obtain ⟨answer, response, hanswer, -⟩ := htransit
    simp [World.call, HydraServer.call, HydraServer.answer?] at hanswer
  | @tokens id session answer tokens hanswer htokens =>
    refine ⟨?_, fun _ hu => hu⟩
    obtain ⟨htoken, old, hrotated⟩ := htransit
    cases hrefresh : tokens.refreshToken with
    | some new =>
      obtain rfl : new = token := by
        rw [← htoken, (refreshed_rotated _ _ _ _ _ hrefresh).1]
      exact HydraServer.answered_of_tokenRequest hanswer htokens hrefresh
    | none =>
      obtain ⟨a, hcall, hnew⟩ := hcore.hydra.answered _ hrotated
      obtain rfl : a = answer := by
        rw [HydraServer.answer?_of_call hcall] at hanswer
        exact Option.some.inj hanswer
      obtain ⟨response, hresponse, hsame, -⟩ := tokens_of_tokenRequest htokens
      have hsome := hnew response hresponse
      rw [hsame, hrefresh] at hsome
      cases hsome
  | exchanged hanswer htokens hid hrefresh =>
    refine ⟨?_, fun _ hu => hu⟩
    obtain rfl := (htransit : _ = token)
    exact HydraServer.answered_of_tokenRequest hanswer htokens hrefresh
  | verified => exact ⟨htransit, fun _ hu => hu⟩
  | _ => exact htransit.elim

theorem Starts.not_inTransit {request : Request} {now : DateTime} {task : Task}
    (h : Starts env t now w request w' task) : ¬task.InTransit t w' token := by
  cases h with
  | exchange =>
    rintro ⟨answer, response, hanswer, -⟩
    simp [World.call, HydraServer.call, HydraServer.answer?] at hanswer
  | _ => exact fun h => h

/-- What others present while a token is in transit is not that token. -/
theorem Guarantee.not_presented (g : Guarantee u w w') (hcore : Core env w) (htu : t ≠ u)
    {task : Task} (hown : Standing env t w (some task)) (htransit : task.InTransit t w token)
    (hold : ∀ v, ¬w.hydra.Presented v token) (v : TaskId) : ¬w'.hydra.Presented v token := by
  intro hv
  rcases g.presented v token hv with hv | ⟨-, id, session, hget, rfl, hturn⟩
  · exact hold v hv
  · obtain ⟨issue, hissue, htoken, hsaved⟩ := (hcore.genuine id session hget).chain
    rcases owner_of_inTransit hcore hown htransit with ⟨now, hissue', hnew⟩ | ⟨id', hchain, hturn'⟩
    · obtain rfl := hcore.hydra.issued_unique issue hissue _ hissue' htoken
      exact hnew id hsaved
    · obtain rfl := hchain.unique hcore ⟨issue, hissue, htoken, hsaved⟩
      exact htu (hcore.locks.holds_unique hturn' hturn)

theorem untouched_start (now : DateTime) : Untouched (State.start now) where
  presented u token h := by
    obtain ⟨answer, hcall⟩ := h
    cases hcall
  transit t task token h := by cases h

theorem untouched_step {c c' : State} {e : Event} (hinv : Inv env c) (h : Untouched c)
    (hs : step env c e = some c') : Untouched c' where
  presented v token hv := by
    obtain ⟨u, g⟩ := guarantee_of_step hinv hs
    rcases g.presented v token hv with hv | ⟨-, id, session, hget, rfl, -⟩
    · obtain ⟨issue, hissue, htoken⟩ := h.presented v token hv
      exact ⟨issue, g.hydra.issued _ hissue, htoken⟩
    · obtain ⟨issue, hissue, htoken, -⟩ := hinv.shared.genuine id session hget
      exact ⟨issue, g.hydra.issued _ hissue, htoken⟩
  transit t task token ht htransit := by
    cases seenTo_of_step hinv hs ht with
    | other htu g hquiet hthread =>
      have hold := htransit.of_quiet hquiet
      exact g.not_presented hinv.shared htu (hinv.standing hthread) hold
        (h.transit t task token hthread hold)
    | hydra hserve =>
      intro v hv
      have hv' := HydraServer.presented_serve hserve hv
      rcases htransit.serve hserve with hold | hfresh
      · exact h.transit t task token ht hold v hv'
      · obtain ⟨issue, hissue, htoken⟩ := h.presented v token hv'
        exact hfresh issue hissue htoken
    | start hthread htimely hstart => exact absurd htransit hstart.not_inTransit
    | resume hthread htimely hnow hresumes =>
      obtain ⟨hold, hpresented⟩ :=
        hresumes.inTransit hinv.shared (hinv.standing hthread) htransit
      exact fun v hv => h.transit t _ token hthread hold v (hpresented v hv)
    | drop => exact htransit.elim

/-- **A token in transit has not been presented.** -/
theorem untouched_of_reaches {ok : State → Event → Prop} {now : DateTime} {c : State}
    (h : Reaches (step env) ok (State.start now) c) : Untouched c :=
  h.invariant_of (fun _ => inv_of_reaches) (untouched_start now)
    fun _ _ _ hinv hu _ hs => untouched_step hinv hu hs

/-! ### Who waits for Hydra -/

/-- The task waits for Hydra's answer to its call. -/
def Task.awaitsHydra : Task → Bool
  | .proxied _ (.refresh _) | .callback (.exchangeCode _ _) => true
  | _ => false

theorem Task.of_awaitsHydra {c : State} (h : (c.thread t).any Task.awaitsHydra = true) :
    (∃ id session, c.thread t = some (.proxied id (.refresh session))) ∨
    ∃ pending previous, c.thread t = some (.callback (.exchangeCode pending previous)) := by
  obtain ⟨task, htask, hawaits⟩ := (Option.any_eq_true _ _).mp h
  cases task with
  | proxied id here =>
    cases here with
    | refresh session => exact Or.inl ⟨id, session, htask⟩
    | _ => cases hawaits
  | callback here =>
    cases here with
    | exchangeCode pending previous => exact Or.inr ⟨pending, previous, htask⟩
    | _ => cases hawaits
  | _ => cases hawaits

/-- A call is awaited until it is answered. -/
def Awaited (c : State) : Prop :=
  ∀ t grant, c.shared.hydra.calls t = some ⟨grant, none⟩ → (c.thread t).any Task.awaitsHydra = true

/-- The step of another task is not a call of `t`, nor an answer to it. -/
theorem Guarantee.unanswered (g : Guarantee u w w') (htu : t ≠ u) {grant : Grant}
    (h : w'.hydra.calls t = some ⟨grant, none⟩) : w.hydra.calls t = some ⟨grant, none⟩ := by
  cases hcall : w.hydra.calls t with
  | none =>
    rw [g.calls t htu hcall] at h
    cases h
  | some call =>
    obtain ⟨grant', answer⟩ := call
    cases answer with
    | none =>
      obtain ⟨answer, hcall'⟩ := g.hydra.calls t grant' hcall
      rw [hcall', Option.some.injEq, TokenCall.mk.injEq] at h
      rw [h.1]
    | some answer =>
      rw [g.hydra.answers t grant' answer hcall] at h
      cases h

/-- A task's own step leaves no call behind unanswered. -/
theorem Resumes.awaited {i : Input} {task task' : Task} (h : Resumes env t i w task w' task')
    {grant : Grant}
    (hawaited : w.hydra.calls t = some ⟨grant, none⟩ → task.awaitsHydra = true)
    (hcall : w'.hydra.calls t = some ⟨grant, none⟩) : task'.awaitsHydra = true := by
  cases h with
  | refresh => rfl
  | tokens hanswer | rejected hanswer | unavailable hanswer | exchangeFailed hanswer
  | noIdToken hanswer | noRefreshToken hanswer | exchanged hanswer =>
    rw [HydraServer.answer?] at hanswer
    replace hcall : w.hydra.calls t = _ := hcall
    rw [hcall] at hanswer
    cases hanswer
  | _ => cases hawaited hcall

theorem Starts.awaited {request : Request} {now : DateTime} {task : Task}
    (h : Starts env t now w request w' task) (hnone : w.hydra.calls t = none) {grant : Grant}
    (hcall : w'.hydra.calls t = some ⟨grant, none⟩) : task.awaitsHydra = true := by
  cases h with
  | exchange => rfl
  | _ =>
    replace hcall : w.hydra.calls t = _ := hcall
    rw [hnone] at hcall
    cases hcall

theorem awaited_step {c c' : State} {e : Event} (hinv : Inv env c) (h : Awaited c)
    (hdrop : ∀ t, e ≠ .drop t) (hs : step env c e = some c') : Awaited c' := by
  intro t grant hcall
  cases seenBy_of_step hinv hs t with
  | other htu g hquiet hthread =>
    rw [hthread]
    exact h t grant (g.unanswered htu hcall)
  | @hydra u now effect answer hydra hserve =>
    refine h t grant ?_
    obtain ⟨grant', h₁, -, -, -, -, rfl⟩ := HydraServer.serve_eq hserve
    by_cases htu : t = u
    · subst htu
      simp at hcall
    · simpa [htu] using hcall
  | start hthread htimely hstart =>
    rw [Threads.thread_move_self]
    exact hstart.awaited (hinv.unused hthread).calls hcall
  | resume hthread htimely hnow hresumes =>
    rw [Threads.thread_move_self]
    refine hresumes.awaited (fun hcall => ?_) hcall
    have hawaits := h t grant hcall
    rwa [hthread] at hawaits
  | drop => exact absurd rfl (hdrop t)

/-- **Where nobody is dropped, every call is awaited.** -/
theorem awaited_of_reaches {ok : State → Event → Prop} {now : DateTime} {c : State}
    (h : Reaches (step env) ok (State.start now) c) (hok : ∀ c e t, ok c e → e ≠ .drop t) :
    Awaited c :=
  h.invariant_of (fun _ => inv_of_reaches) (fun t grant hcall => by cases hcall)
    fun c e _ hinv hawaited he hs => awaited_step hinv hawaited (fun t => hok c e t he) hs

end Bff

end WeaveAuth
