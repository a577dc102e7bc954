import Mathlib.Logic.Function.Basic
import WeaveAuth.Bff.Hydra
import WeaveAuth.Bff.Session

/-!
# Hydra, as far as bff's tokens are concerned

bff's counterpart: the calls to its token endpoint, what it did with each, and the refresh tokens
it issued, rotated and refused. None of this is bff's code. It says what an answer stands for, so
that a claim about tokens has something to be about, and assumes little: Hydra issues no refresh
token twice, its answers tell the truth as far as they arrive (`Effect.agrees`), and it rotates no
token that it did not issue.

A call stays in `calls` when it has been answered. A task makes at most one.

## Main definitions

* `HydraServer.serve`: Hydra takes up a call and answers it
* `HydraServer.Sound`: what holds of Hydra at any time
* `HydraServer.Grows`: what was once so stays so

## What is assumed

`serve` refuses an event in which Hydra contradicts itself, and that is all. It may refuse any
grant, answer late, or answer something that bff cannot read, though it took the grant: `Effect` is
what happened, `Answer` is what arrived. It may also forget what it issued, since nothing says that
a token is still good. A code is redeemed for whoever presents it; that a code is only good for its
own verifier is a matter of `LoginProtocol`, and no theorem about tokens needs it.
-/

namespace WeaveAuth

namespace Bff

/-- A call to the token endpoint. -/
structure TokenCall where
  grant : Grant
  /-- `none` while bff waits. -/
  answer : Option Answer

/-- A refresh token that Hydra issued. -/
structure Issue where
  token : String
  issuedAt : DateTime
  /-- Whose code exchange the token's chain began with. -/
  login : TaskId
  deriving DecidableEq, Repr

/-- A refresh token that Hydra replaced by another, for the call of `task`. -/
structure Rotation where
  old : String
  new : String
  task : TaskId
  deriving DecidableEq, Repr

structure HydraServer where
  /-- The calls to the token endpoint. -/
  calls : TaskId → Option TokenCall
  issued : List Issue
  rotated : List Rotation
  /-- The refresh tokens it refused to redeem. -/
  refused : List String
  /-- The logins whose code it redeemed. -/
  redeemed : List TaskId
  /-- The refresh tokens it was asked to revoke. -/
  revoked : List String
  /-- When it last did something. -/
  lastAt : DateTime

namespace HydraServer

instance : Inhabited HydraServer := ⟨⟨fun _ => none, [], [], [], [], [], 0⟩⟩

/-- Before the first call. -/
def start (now : DateTime) : HydraServer := ⟨fun _ => none, [], [], [], [], [], now⟩

/-- A call arrives. -/
def call (h : HydraServer) (t : TaskId) (grant : Grant) : HydraServer :=
  { h with calls := Function.update h.calls t (some ⟨grant, none⟩) }

/-- The answer to a task's call, once there is one. -/
def answer? (h : HydraServer) (t : TaskId) : Option Answer :=
  (h.calls t).bind TokenCall.answer

/-- What redeeming a grant, or refusing to, changes. A refresh token is only issued once, and only
one that was issued is rotated. -/
def perform (h : HydraServer) (t : TaskId) (now : DateTime) (grant : Grant) (effect : Effect) :
    Option HydraServer :=
  match effect, grant with
  | .nothing, _ => some h
  | .refused, .authorizationCode _ _ => some h
  | .refused, .refreshToken old => some { h with refused := old :: h.refused }
  | .granted none, .authorizationCode _ _ => some { h with redeemed := t :: h.redeemed }
  | .granted none, .refreshToken _ => some h
  | .granted (some new), .authorizationCode _ _ =>
    if new ∈ h.issued.map Issue.token then none
    else some { h with redeemed := t :: h.redeemed, issued := ⟨new, now, t⟩ :: h.issued }
  | .granted (some new), .refreshToken old =>
    if new ∈ h.issued.map Issue.token then none
    else
      match h.issued.find? (·.token = old) with
      | none => none
      | some issue =>
        some { h with
          rotated := ⟨old, new, t⟩ :: h.rotated
          issued := ⟨new, now, issue.login⟩ :: h.issued }

/-- Hydra takes up the call of `t` and answers it. -/
def serve (h : HydraServer) (t : TaskId) (now : DateTime) (effect : Effect) (answer : Answer) :
    Option HydraServer :=
  match h.calls t with
  | some ⟨grant, none⟩ =>
    if effect.agrees answer && decide (h.lastAt ≤ now) then
      (h.perform t now grant effect).map fun h =>
        { h with
          lastAt := now
          calls := Function.update h.calls t (some ⟨grant, some answer⟩) }
    else none
  | _ => none

/-! ### What serving a call does -/

/-- The cases of `perform`. -/
inductive Performed (h : HydraServer) (t : TaskId) (now : DateTime) :
    Grant → Effect → HydraServer → Prop where
  | nothing (grant : Grant) (effect : Effect) (hrefused : ∀ old, grant = .refreshToken old →
      effect ≠ .refused) (hgranted : ∀ token, effect ≠ .granted (some token)) :
      Performed h t now grant effect h
  | refuse (old : String) :
      Performed h t now (.refreshToken old) .refused { h with refused := old :: h.refused }
  | redeem (code verifier : String) : Performed h t now (.authorizationCode code verifier)
      (.granted none) { h with redeemed := t :: h.redeemed }
  | issue (code verifier new : String) (fresh : ∀ issue ∈ h.issued, issue.token ≠ new) :
      Performed h t now (.authorizationCode code verifier) (.granted (some new))
        { h with redeemed := t :: h.redeemed, issued := ⟨new, now, t⟩ :: h.issued }
  | rotate (old new : String) (issue : Issue) (mem : issue ∈ h.issued) (token : issue.token = old)
      (fresh : ∀ issue ∈ h.issued, issue.token ≠ new) :
      Performed h t now (.refreshToken old) (.granted (some new))
        { h with
          rotated := ⟨old, new, t⟩ :: h.rotated
          issued := ⟨new, now, issue.login⟩ :: h.issued }

theorem performed_of_perform {h h' : HydraServer} {t : TaskId} {now : DateTime} {grant : Grant}
    {effect : Effect} (hs : h.perform t now grant effect = some h') :
    Performed h t now grant effect h' := by
  rw [perform.eq_def] at hs
  split at hs
  · cases hs
    exact .nothing _ _ (by simp) (by simp)
  · cases hs
    exact .nothing _ _ (by simp) (by simp)
  · cases hs
    exact .refuse _
  · cases hs
    exact .redeem _ _
  · cases hs
    exact .nothing _ _ (by simp) (by simp)
  · split at hs
    · cases hs
    · next hfresh =>
      cases hs
      exact .issue _ _ _ (by simpa using hfresh)
  · split at hs
    · cases hs
    · next hfresh =>
      split at hs
      · cases hs
      · next issue hfind =>
        cases hs
        exact .rotate _ _ issue (List.mem_of_find?_eq_some hfind)
          (by simpa using List.find?_some hfind) (by simpa using hfresh)

/-- What `serve` does, when it can. -/
theorem serve_eq {h h' : HydraServer} {t : TaskId} {now : DateTime} {effect : Effect}
    {answer : Answer} (hs : h.serve t now effect answer = some h') :
    ∃ grant h₁, h.calls t = some ⟨grant, none⟩ ∧ effect.agrees answer = true ∧ h.lastAt ≤ now ∧
      Performed h t now grant effect h₁ ∧
      h' = { h₁ with
        lastAt := now
        calls := Function.update h.calls t (some ⟨grant, some answer⟩) } := by
  rw [serve] at hs
  split at hs
  · next grant hcall =>
    split at hs
    · next hguard =>
      rw [Bool.and_eq_true, decide_eq_true_iff] at hguard
      obtain ⟨h₁, hperform, rfl⟩ := Option.map_eq_some_iff.mp hs
      have hperformed := performed_of_perform hperform
      have hcalls : h₁.calls = h.calls := by cases hperformed <;> rfl
      exact ⟨grant, h₁, hcall, hguard.1, hguard.2, hperformed, by rw [hcalls]⟩
    · cases hs
  · cases hs

/-- What was once so stays so. -/
structure Grows (h h' : HydraServer) : Prop where
  calls : ∀ t grant, h.calls t = some ⟨grant, none⟩ → ∃ answer, h'.calls t = some ⟨grant, answer⟩
  answers : ∀ t grant answer, h.calls t = some ⟨grant, some answer⟩ →
    h'.calls t = some ⟨grant, some answer⟩
  issued : ∀ issue ∈ h.issued, issue ∈ h'.issued
  rotated : ∀ rotation ∈ h.rotated, rotation ∈ h'.rotated
  refused : ∀ token ∈ h.refused, token ∈ h'.refused
  redeemed : ∀ t ∈ h.redeemed, t ∈ h'.redeemed
  revoked : ∀ token ∈ h.revoked, token ∈ h'.revoked
  lastAt : h.lastAt ≤ h'.lastAt

theorem Grows.refl (h : HydraServer) : h.Grows h where
  calls _ _ hcall := ⟨_, hcall⟩
  answers _ _ _ := id
  issued _ := id
  rotated _ := id
  refused _ := id
  redeemed _ := id
  revoked _ := id
  lastAt := le_refl _

theorem grows_revoke (h : HydraServer) (tokens : List String) :
    h.Grows { h with revoked := tokens ++ h.revoked } :=
  { Grows.refl h with revoked := fun _ => List.mem_append_right _ }

/-- A task that made no call before makes one. -/
theorem grows_call {h : HydraServer} {t : TaskId} (hnone : h.calls t = none) (grant : Grant) :
    h.Grows (h.call t grant) where
  calls u g hcall := by
    have hut : u ≠ t := by
      rintro rfl
      rw [hnone] at hcall
      cases hcall
    exact ⟨none, by simpa [call, hut] using hcall⟩
  answers u g answer hcall := by
    have hut : u ≠ t := by
      rintro rfl
      rw [hnone] at hcall
      cases hcall
    simpa [call, hut] using hcall
  issued _ := id
  rotated _ := id
  refused _ := id
  redeemed _ := id
  revoked _ := id
  lastAt := le_refl _

theorem grows_serve {h h' : HydraServer} {t : TaskId} {now : DateTime} {effect : Effect}
    {answer : Answer} (hs : h.serve t now effect answer = some h') : h.Grows h' := by
  obtain ⟨grant, h₁, hcall, -, hnow, hperformed, rfl⟩ := serve_eq hs
  refine ⟨fun u g hu => ?_, fun u g a hu => ?_, fun issue hi => ?_, fun rotation hr => ?_,
    fun token ht => ?_, fun u hu => ?_, fun token ht => ?_, hnow⟩
  · by_cases hut : u = t
    · subst hut
      obtain rfl : grant = g := by simpa [hcall] using hu
      exact ⟨some answer, by simp⟩
    · exact ⟨none, by simpa [hut] using hu⟩
  · have hut : u ≠ t := by
      rintro rfl
      simp [hcall] at hu
    simpa [hut] using hu
  all_goals cases hperformed <;> simp [*]

/-- The task has presented the refresh token. -/
def Presented (h : HydraServer) (t : TaskId) (token : String) : Prop :=
  ∃ answer, h.calls t = some ⟨.refreshToken token, answer⟩

/-- The task's call is one with a refresh token. -/
def refreshes (h : HydraServer) (t : TaskId) : Bool :=
  match h.calls t with
  | some ⟨.refreshToken _, _⟩ => true
  | _ => false

theorem refreshes_of_presented {h : HydraServer} {t : TaskId} {token : String}
    (hpresented : h.Presented t token) : h.refreshes t = true := by
  obtain ⟨answer, hcall⟩ := hpresented
  rw [refreshes, hcall]

/-- Hydra has done nothing, though it may have been called. -/
structure Quiet (h h' : HydraServer) : Prop where
  answer? : ∀ t, h'.answer? t = h.answer? t
  issued : h'.issued = h.issued
  rotated : h'.rotated = h.rotated
  refused : h'.refused = h.refused
  redeemed : h'.redeemed = h.redeemed

theorem Quiet.refl (h : HydraServer) : h.Quiet h := ⟨fun _ => rfl, rfl, rfl, rfl, rfl⟩

theorem quiet_call {h : HydraServer} {t : TaskId} (hnone : h.calls t = none) (grant : Grant) :
    h.Quiet (h.call t grant) :=
  { Quiet.refl h with
    answer? := fun u => by
      by_cases hut : u = t
      · subst hut
        simp [HydraServer.answer?, call, hnone]
      · simp [HydraServer.answer?, call, hut] }

/-- Hydra's answer changes no call. -/
theorem presented_serve {h h' : HydraServer} {t u : TaskId} {now : DateTime} {effect : Effect}
    {answer : Answer} {token : String} (hs : h.serve t now effect answer = some h')
    (hpresented : h'.Presented u token) : h.Presented u token := by
  obtain ⟨grant, h₁, hcall, -, -, -, rfl⟩ := serve_eq hs
  obtain ⟨a, ha⟩ := hpresented
  by_cases hut : u = t
  · subst hut
    obtain ⟨rfl, -⟩ : grant = .refreshToken token ∧ some answer = a := by simpa using ha
    exact ⟨none, hcall⟩
  · exact ⟨a, by simpa [hut] using ha⟩

/-! ### What holds at any time -/

/-- What an answer stands for, and that a refresh token is issued once. -/
structure Sound (h : HydraServer) : Prop where
  issued_unique : ∀ issue ∈ h.issued, ∀ issue' ∈ h.issued, issue.token = issue'.token →
    issue = issue'
  issued_le : ∀ issue ∈ h.issued, issue.issuedAt ≤ h.lastAt
  /-- A refresh token that came of a code was issued for it. -/
  exchanged : ∀ t code verifier answer token new,
    h.calls t = some ⟨.authorizationCode code verifier, some answer⟩ →
    answer.tokens? = some token → token.refreshToken = some new →
    ∃ now, ⟨new, now, t⟩ ∈ h.issued
  /-- One that came of another replaced it, and continues its chain. -/
  refreshed : ∀ t old answer token new, h.calls t = some ⟨.refreshToken old, some answer⟩ →
    answer.tokens? = some token → token.refreshToken = some new → ⟨old, new, t⟩ ∈ h.rotated
  chained : ∀ rotation ∈ h.rotated, ∃ issue ∈ h.issued, issue.token = rotation.old ∧
    ∃ now, ⟨rotation.new, now, issue.login⟩ ∈ h.issued
  /-- A rotation was done for a call that has been answered, if not with the new token. -/
  answered : ∀ rotation ∈ h.rotated, ∃ answer,
    h.calls rotation.task = some ⟨.refreshToken rotation.old, some answer⟩ ∧
    ∀ token, answer.tokens? = some token → token.refreshToken = some rotation.new
  /-- A refusal is one. -/
  refused : ∀ t old answer, h.calls t = some ⟨.refreshToken old, some answer⟩ →
    answer.isRejected = true → old ∈ h.refused
  /-- A code is redeemed for a call that is answered. -/
  redeemed : ∀ t ∈ h.redeemed, ∃ grant answer, h.calls t = some ⟨grant, some answer⟩

theorem sound_start (now : DateTime) : (start now).Sound where
  issued_unique _ h := by cases h
  issued_le _ h := by cases h
  exchanged _ _ _ _ _ _ h := by cases h
  refreshed _ _ _ _ _ h := by cases h
  chained _ h := by cases h
  answered _ h := by cases h
  refused _ _ _ h := by cases h
  redeemed _ h := by cases h

theorem Sound.revoke {h : HydraServer} (hs : h.Sound) (tokens : List String) :
    Sound { h with revoked := tokens ++ h.revoked } :=
  { hs with }

theorem Sound.call {h : HydraServer} (hs : h.Sound) {t : TaskId} (hnone : h.calls t = none)
    (grant : Grant) : (h.call t grant).Sound where
  issued_unique := hs.issued_unique
  issued_le := hs.issued_le
  exchanged u code verifier answer token new hcall := by
    have hut : u ≠ t := by
      rintro rfl
      simp [HydraServer.call] at hcall
    exact hs.exchanged u code verifier answer token new
      (by simpa [HydraServer.call, hut] using hcall)
  refreshed u old answer token new hcall := by
    have hut : u ≠ t := by
      rintro rfl
      simp [HydraServer.call] at hcall
    exact hs.refreshed u old answer token new (by simpa [HydraServer.call, hut] using hcall)
  chained := hs.chained
  answered rotation hr := by
    obtain ⟨answer, hcall, htoken⟩ := hs.answered rotation hr
    exact ⟨answer, (grows_call hnone grant).answers _ _ _ hcall, htoken⟩
  refused u old answer hcall := by
    have hut : u ≠ t := by
      rintro rfl
      simp [HydraServer.call] at hcall
    exact hs.refused u old answer (by simpa [HydraServer.call, hut] using hcall)
  redeemed u hu := by
    obtain ⟨g, answer, hcall⟩ := hs.redeemed u hu
    exact ⟨g, answer, (grows_call hnone grant).answers _ _ _ hcall⟩

theorem agrees_tokens {effect : Effect} {answer : Answer} (h : effect.agrees answer = true)
    {token : TokenResponse} (htoken : answer.tokens? = some token) :
    effect = .granted token.refreshToken := by
  rw [Effect.agrees, htoken, Bool.and_eq_true] at h
  simpa using h.1

theorem agrees_rejected {effect : Effect} {answer : Answer} (h : effect.agrees answer = true)
    (hrejected : answer.isRejected = true) : effect = .refused := by
  rw [Effect.agrees, hrejected, Bool.and_eq_true] at h
  simpa using h.2

/-- A new token beside those issued before. -/
theorem Sound.issued_cons {h : HydraServer} (hs : h.Sound) {new : Issue}
    (fresh : ∀ issue ∈ h.issued, issue.token ≠ new.token) :
    ∀ issue ∈ new :: h.issued, ∀ issue' ∈ new :: h.issued, issue.token = issue'.token →
      issue = issue' := by
  intro issue hi issue' hi' htoken
  rcases List.mem_cons.mp hi with rfl | hold <;> rcases List.mem_cons.mp hi' with rfl | hold'
  · rfl
  · exact absurd htoken.symm (fresh issue' hold')
  · exact absurd htoken (fresh issue hold)
  · exact hs.issued_unique issue hold issue' hold' htoken

section Performed

variable {h h' : HydraServer} {t : TaskId} {now : DateTime} {grant : Grant} {effect : Effect}

theorem Performed.issued_unique (hs : h.Sound) (hperformed : Performed h t now grant effect h') :
    ∀ issue ∈ h'.issued, ∀ issue' ∈ h'.issued, issue.token = issue'.token → issue = issue' := by
  cases hperformed with
  | nothing | refuse | redeem => exact hs.issued_unique
  | issue code verifier new fresh => exact hs.issued_cons fresh
  | rotate old new issue mem token fresh => exact hs.issued_cons fresh

theorem Performed.issued_le (hperformed : Performed h t now grant effect h')
    (hle : ∀ issue ∈ h.issued, issue.issuedAt ≤ now) :
    ∀ issue ∈ h'.issued, issue.issuedAt ≤ now := by
  cases hperformed with
  | nothing | refuse | redeem => exact hle
  | issue code verifier new fresh => exact List.forall_mem_cons.mpr ⟨le_refl _, hle⟩
  | rotate old new issue mem token fresh => exact List.forall_mem_cons.mpr ⟨le_refl _, hle⟩

/-- A refresh token for a code is issued. -/
theorem Performed.issued_of_code {code verifier new : String}
    (hperformed : Performed h t now (.authorizationCode code verifier) (.granted (some new)) h') :
    ⟨new, now, t⟩ ∈ h'.issued := by
  cases hperformed with
  | nothing _ _ _ hgranted => exact absurd rfl (hgranted new)
  | issue => exact List.mem_cons_self

/-- One for another takes its place. -/
theorem Performed.rotated_of_token {old new : String}
    (hperformed : Performed h t now (.refreshToken old) (.granted (some new)) h') :
    ⟨old, new, t⟩ ∈ h'.rotated := by
  cases hperformed with
  | nothing _ _ _ hgranted => exact absurd rfl (hgranted new)
  | rotate => exact List.mem_cons_self

theorem Performed.refused_of_token {old : String}
    (hperformed : Performed h t now (.refreshToken old) .refused h') : old ∈ h'.refused := by
  cases hperformed with
  | nothing _ _ hrefused _ => exact absurd rfl (hrefused old rfl)
  | refuse => exact List.mem_cons_self

/-- A rotation is an old one, or the one for a refresh token that was issued. -/
theorem Performed.of_mem_rotated (hperformed : Performed h t now grant effect h')
    {rotation : Rotation} (hr : rotation ∈ h'.rotated) : rotation ∈ h.rotated ∨
      grant = .refreshToken rotation.old ∧ effect = .granted (some rotation.new) ∧
        rotation.task = t ∧ ∃ issue ∈ h'.issued, issue.token = rotation.old ∧
          ⟨rotation.new, now, issue.login⟩ ∈ h'.issued := by
  cases hperformed with
  | nothing | refuse | redeem | issue => exact .inl hr
  | rotate old new issue mem token fresh =>
    rcases List.mem_cons.mp hr with rfl | hr
    · exact .inr ⟨rfl, rfl, rfl, issue, List.mem_cons_of_mem _ mem, token, List.mem_cons_self⟩
    · exact .inl hr

theorem Performed.of_mem_redeemed (hperformed : Performed h t now grant effect h') {u : TaskId}
    (hu : u ∈ h'.redeemed) : u = t ∨ u ∈ h.redeemed := by
  cases hperformed with
  | nothing | refuse | rotate => exact .inr hu
  | redeem | issue => exact List.mem_cons.mp hu

end Performed

/-- A call that is answered has its answer now, or had it before. -/
theorem answered_update {calls : TaskId → Option TokenCall} {t u : TaskId} {grant g : Grant}
    {answer a : Answer}
    (h : Function.update calls t (some ⟨grant, some answer⟩) u = some ⟨g, some a⟩) :
    (u = t ∧ g = grant ∧ a = answer) ∨ calls u = some ⟨g, some a⟩ := by
  by_cases hut : u = t
  · rw [hut, Function.update_self] at h
    cases h
    exact .inl ⟨hut, rfl, rfl⟩
  · rw [Function.update_of_ne hut] at h
    exact .inr h

theorem Sound.serve {h h' : HydraServer} (hs : h.Sound) {t : TaskId} {now : DateTime}
    {effect : Effect} {answer : Answer} (hserve : h.serve t now effect answer = some h') :
    h'.Sound := by
  have hgrows := grows_serve hserve
  obtain ⟨grant, h₁, hcall, hagrees, hnow, hperformed, rfl⟩ := serve_eq hserve
  have hunique := hperformed.issued_unique hs
  have hle := hperformed.issued_le fun issue hi => le_trans (hs.issued_le issue hi) hnow
  refine ⟨hunique, hle, fun u code verifier a token new hu htoken hnew => ?_,
    fun u old a token new hu htoken hnew => ?_, fun rotation hr => ?_, fun rotation hr => ?_,
    fun u old a hu hrejected => ?_, fun u hu => ?_⟩
  · obtain ⟨rfl, rfl, rfl⟩ | hu := answered_update hu
    · obtain rfl : effect = .granted (some new) := by rw [agrees_tokens hagrees htoken, hnew]
      exact ⟨now, hperformed.issued_of_code⟩
    · obtain ⟨at', hmem⟩ := hs.exchanged u code verifier a token new hu htoken hnew
      exact ⟨at', hgrows.issued _ hmem⟩
  · obtain ⟨rfl, rfl, rfl⟩ | hu := answered_update hu
    · obtain rfl : effect = .granted (some new) := by rw [agrees_tokens hagrees htoken, hnew]
      exact hperformed.rotated_of_token
    · exact hgrows.rotated _ (hs.refreshed u old a token new hu htoken hnew)
  · obtain hr | ⟨-, -, -, issue, hi, htoken, hmem⟩ := hperformed.of_mem_rotated hr
    · obtain ⟨issue, hi, htoken, at', hmem⟩ := hs.chained rotation hr
      exact ⟨issue, hgrows.issued _ hi, htoken, at', hgrows.issued _ hmem⟩
    · exact ⟨issue, hi, htoken, now, hmem⟩
  · obtain hr | ⟨rfl, rfl, rfl, -⟩ := hperformed.of_mem_rotated hr
    · obtain ⟨answer', hc, htokens⟩ := hs.answered rotation hr
      exact ⟨answer', hgrows.answers _ _ _ hc, htokens⟩
    · refine ⟨answer, Function.update_self _ _ _, fun token htoken => ?_⟩
      simpa using (agrees_tokens hagrees htoken).symm
  · obtain ⟨rfl, rfl, rfl⟩ | hu := answered_update hu
    · obtain rfl := agrees_rejected hagrees hrejected
      exact hperformed.refused_of_token
    · exact hgrows.refused _ (hs.refused u old a hu hrejected)
  · obtain rfl | hold := hperformed.of_mem_redeemed hu
    · exact ⟨grant, answer, Function.update_self _ _ _⟩
    · obtain ⟨g, a, ha⟩ := hs.redeemed u hold
      exact ⟨g, a, hgrows.answers _ _ _ ha⟩

end HydraServer

end Bff

end WeaveAuth
