import WeaveAuth.Hooks.Kratos

/-!
# Ending every other way into an account

`hooks/src/server/api/revocation.rs`, with the calls of `hooks/src/clients/hydra.rs` and
`hooks/src/clients/bff.rs`: what after-recovery and after-password-change share.

Kratos' part is a program that is given up at its deadline; the calls to Hydra and bff are sent at
one time, and each is given up by itself.

## Main results

* `runs_purgeCredentials`, `runs_revokeKratosSessions`: what the steps in Kratos have done if they
  report no failure
* `revoke_complete`: an answer of success is a complete revocation, and no failure keeps another
  step from being attempted

## Implementation notes

`tokio::time::timeout` around the Kratos steps is `execUntil`: what was sent by the deadline stays
sent, and what comes afterwards never is. The other steps have a deadline each, and none of them
waits for Kratos. A failed step is a name in a list, and the answer is an error where the list has
any.

## What is assumed

Nothing of the answers. The theorems about what an answer of success means rest on what each call's
own success says, which `Kratos` and this module prove of the calls one by one.
-/

namespace WeaveAuth

namespace Hooks

open Bff (Json Uuid)
open Program KratosAdmin

/-! ### Hydra and bff -/

namespace HydraAdmin

/-- Revokes every consent session of `subject`, and with them the tokens issued under it. -/
def revokeConsentSessions (subject : Uuid) : Calls (Except UpstreamError Unit) := do
  let reply ← Program.send (Call.revokeConsentSessions subject)
  return (checked "hydra revoke consent sessions" reply).map fun _ => ()

/-- Revokes the login (SSO) sessions of `subject`. -/
def revokeLoginSessions (subject : Uuid) : Calls (Except UpstreamError Unit) := do
  let reply ← Program.send (Call.revokeLoginSessions subject)
  return (checked "hydra revoke login sessions" reply).map fun _ => ()

end HydraAdmin

namespace BffInternal

/-- Ends every bff session of `sub`. -/
def revoke (sub : Uuid) : Calls (Except UpstreamError Unit) := do
  let reply ← Program.send (Call.revokeInBff sub)
  return (checked "bff internal revoke" reply).map fun _ => ()

end BffInternal

/-! ### Kratos -/

structure Revocation where
  identityId : Uuid
  keepSession : Option Uuid
  /-- Also end every credential. -/
  purgeCredentials : Bool

/-- The passwords that `rand` gives the two purges. -/
structure Drawn where
  first : String
  second : String

variable (crates : Crates)

/-- What a step that failed adds to the failures. -/
def failureOf (result : Except UpstreamError Unit) : List String :=
  match result with
  | .ok _ => []
  | .error error => [error.display crates]

/-- Replaces the password and finds the social logins; the failures, and the links. -/
def purgePassword (password : String) (id : Uuid) : Calls (List String × List String) := do
  match ← getIdentity crates id true with
  | .ok identity =>
    let result ← scramblePassword crates password id
    return (failureOf crates result, identity.oidcIdentifiers)
  | .error error => return ([error.display crates], [])

/-- Replaces the password, then unlinks the social logins and deletes the other credentials, each
attempted even when another fails. -/
def purgeCredentials (password : String) (id : Uuid) : Calls (List String) := do
  let (failures, links) ← purgePassword crates password id
  let unlinking ← collect (fun link => do
    let result ← deleteOidcLink id link
    return failureOf crates result) links
  let deleting ← collect (fun credentialType => do
    let result ← deleteCredential crates id credentialType
    return failureOf crates result) purgedCredentialTypes
  return failures ++ unlinking ++ deleting

/-- Most rounds of "list the first page, revoke what isn't `keep`". -/
def maxSessionRounds : ℕ := 20

/-- So many rounds. -/
def sessionRounds (id keep : Uuid) : ℕ → Calls (Except String Unit)
  | 0 => return .error ("sessions remain after " ++ toString maxSessionRounds ++
      " rounds of revoking")
  | n + 1 => do
    match ← activeSessions crates id with
    | .error error => return .error (error.display crates)
    | .ok sessions =>
      let others := sessions.filter (· ≠ keep)
      if others.isEmpty then return .ok ()
      else
        let failed ← collect (fun session => do
          let result ← revokeSession session
          return failureOf crates result) others
        if failed.isEmpty then sessionRounds id keep n
        else return .error (String.intercalate ", " failed)

def revokeKratosSessions (id : Uuid) : Option Uuid → Calls (Except String Unit)
  | none => do
    let result ← revokeAllSessions id
    return result.mapError (UpstreamError.display crates)
  | some keep => sessionRounds crates id keep maxSessionRounds

/-- The purge, if it is asked for. -/
def purge (revocation : Revocation) (password : String) : Calls (List String) := do
  if revocation.purgeCredentials then
    let failures ← purgeCredentials crates password revocation.identityId
    return failures.map ("purge credentials: " ++ ·)
  else return []

/-- The failures of the credential purge (if asked for) and the session revocation. The purge runs
again after the sessions end. -/
def revokeInKratos (revocation : Revocation) (drawn : Drawn) : Calls (List String) := do
  let before ← purge crates revocation drawn.first
  let sessions ← revokeKratosSessions crates revocation.identityId revocation.keepSession
  let after ← purge crates revocation drawn.second
  let failures := match sessions with
    | .ok _ => []
    | .error cause => ["kratos sessions: " ++ cause]
  return before ++ failures ++ after

/-! ### The whole -/

variable (net : Net Call Call.Answer)

/-- A call, given up after a time. -/
def within (budget : ℕ) (call : Calls (Except UpstreamError Unit)) (w : World Call Call.Answer) :
    Except String Unit × World Call Call.Answer :=
  match call.execUntil net (w.now + budget) w with
  | (some result, w') => (result.mapError (UpstreamError.display crates), w')
  | (none, w') => (.error ("gave up after " ++ crates.durationText budget), w')

/-- What a step adds to the failures. -/
def stepFailure (step : String) : Except String Unit → List String
  | .ok _ => []
  | .error cause => [step ++ ": " ++ cause]

/-- Kratos' part, given up after half the request's time. -/
def withinKratosBudget (state : AppState) (revocation : Revocation) (drawn : Drawn)
    (w : World Call Call.Answer) : List String × World Call Call.Answer :=
  let kratosBudget := state.requestTimeout / 2
  match (revokeInKratos state.crates revocation drawn).execUntil net (w.now + kratosBudget) w with
  | (some failures, w') => (failures, w')
  | (none, w') => (["kratos: gave up after " ++ state.crates.durationText kratosBudget], w')

/-- Runs every step even when one fails. -/
def revoke (state : AppState) (revocation : Revocation) (drawn : Drawn)
    (w : World Call Call.Answer) : Except (List String) Unit × World Call Call.Answer :=
  let id := revocation.identityId
  let (failures, w) := withinKratosBudget net state revocation drawn w
  let restBudget := state.requestTimeout * 2 / 5
  -- The three calls are sent together.
  let (consent, w₁) := within state.crates net restBudget (HydraAdmin.revokeConsentSessions id) w
  let (login, w₂) := within state.crates net restBudget (HydraAdmin.revokeLoginSessions id)
    ⟨w₁.log, w.now⟩
  let (bff, w₃) := within state.crates net restBudget (BffInternal.revoke id) ⟨w₂.log, w.now⟩
  let failures := failures ++ stepFailure "hydra consent sessions" consent ++
    stepFailure "hydra login sessions" login ++ stepFailure "bff sessions" bff
  let w' : World Call Call.Answer := ⟨w₃.log, max w₁.now (max w₂.now w₃.now)⟩
  if failures.isEmpty then (.ok (), w') else (.error failures, w')

/-! ### What the steps have done -/

section Steps

variable {crates : Crates} {id : Uuid} {t : List (Exchange Call Call.Answer)}

/-- A complete purge: the password replaced, every social login that was listed unlinked, and all
the other credentials deleted. -/
def CompletePurge (crates : Crates) (password : String) (id : Uuid)
    (t : List (Exchange Call Call.Answer)) : Prop :=
  ∃ (read : Reply) (identity : Identity) (replaced : List (Exchange Call Call.Answer))
    (unlinked deleted : List (List (Exchange Call Call.Answer))),
    t = ⟨.getIdentity id true, read⟩ :: (replaced ++ unlinked.flatten ++ deleted.flatten) ∧
    read.Shows (Identity.fromJson crates) identity ∧
    PasswordReplaced crates password id replaced ∧
    List.Forall₂ (fun link part => ∃ reply : Reply,
      part = [⟨.deleteOidcLink id link, reply⟩] ∧ reply.Gone) identity.oidcIdentifiers unlinked ∧
    List.Forall₂ (CredentialDeleted crates id) purgedCredentialTypes deleted

/-- Rounds of listing the sessions and revoking the others, the last of which finds none. -/
inductive RoundsEnd (crates : Crates) (id keep : Uuid) :
    ℕ → List (Exchange Call Call.Answer) → Prop where
  | last {n : ℕ} {reply : Reply} {sessions : List Uuid}
      (hshows : reply.Shows (sessionsFromJson crates) sessions)
      (hkept : ∀ session ∈ sessions, session = keep) :
      RoundsEnd crates id keep (n + 1) [⟨.listSessions id, reply⟩]
  | more {n : ℕ} {reply : Reply} {sessions : List Uuid}
      {revoked : List (List (Exchange Call Call.Answer))} {t : List (Exchange Call Call.Answer)}
      (hshows : reply.Shows (sessionsFromJson crates) sessions)
      (hothers : ∃ session ∈ sessions, session ≠ keep)
      (hrevoked : List.Forall₂ (fun session part => ∃ reply : Reply,
        part = [⟨.revokeSession session, reply⟩] ∧ reply.Gone) (sessions.filter (· ≠ keep)) revoked)
      (h : RoundsEnd crates id keep n t) :
      RoundsEnd crates id keep (n + 1) (⟨.listSessions id, reply⟩ :: (revoked.flatten ++ t))

/-- The sessions have ended: all at once, or all but the one to keep. -/
def SessionsEnded (crates : Crates) (id : Uuid) :
    Option Uuid → List (Exchange Call Call.Answer) → Prop
  | none, t => ∃ reply : Reply, t = [⟨.revokeAllSessions id, reply⟩] ∧ reply.Gone
  | some keep, t => RoundsEnd crates id keep maxSessionRounds t

/-- Then the last listing showed no active session but the one to keep. -/
theorem RoundsEnd.last_listing {keep : Uuid} {n : ℕ} (h : RoundsEnd crates id keep n t) :
    ∃ (before : List (Exchange Call Call.Answer)) (reply : Reply) (sessions : List Uuid),
      t = before ++ [⟨.listSessions id, reply⟩] ∧
      reply.Shows (sessionsFromJson crates) sessions ∧ ∀ session ∈ sessions, session = keep := by
  induction h with
  | last hshows hkept => exact ⟨[], _, _, rfl, hshows, hkept⟩
  | @more n reply sessions revoked t _ _ _ _ ih =>
    obtain ⟨before, reply', sessions', rfl, hlast⟩ := ih
    exact ⟨⟨.listSessions id, reply⟩ :: (revoked.flatten ++ before), reply', sessions', by simp,
      hlast⟩

theorem runs_failureOf {p : Calls (Except UpstreamError Unit)} :
    Runs (p >>= fun result => pure (failureOf crates result)) t [] ↔ Runs p t (.ok ()) := by
  rw [runs_bind]
  constructor
  · rintro ⟨result, before, after, rfl, hp, hafter⟩
    obtain ⟨rfl, hnil⟩ := runs_done.mp hafter
    cases result with
    | ok => rwa [List.append_nil]
    | error => cases hnil
  · intro h
    exact ⟨.ok (), t, [], (List.append_nil t).symm, h, .done _⟩

theorem runs_purgePassword {password : String} {links : List String} :
    Runs (purgePassword crates password id) t ([], links) ↔
      ∃ (read : Reply) (identity : Identity) (replaced : List (Exchange Call Call.Answer)),
        t = ⟨.getIdentity id true, read⟩ :: replaced ∧
        read.Shows (Identity.fromJson crates) identity ∧
        PasswordReplaced crates password id replaced ∧ links = identity.oidcIdentifiers := by
  rw [purgePassword, runs_bind]
  constructor
  · rintro ⟨result, before, after, rfl, hget, hafter⟩
    cases result with
    | error error => cases (runs_done.mp hafter).2
    | ok identity =>
      obtain ⟨read, rfl, hread⟩ := runs_getIdentity.mp hget
      obtain ⟨result, replaced, rest, rfl, hreplace, hrest⟩ := runs_bind.mp hafter
      obtain ⟨rfl, heq⟩ := runs_done.mp hrest
      obtain ⟨hnil, rfl⟩ := Prod.mk.inj heq
      cases result with
      | error error => cases hnil
      | ok =>
        exact ⟨read, identity, replaced, by simp, hread, runs_scramblePassword.mp hreplace, rfl⟩
  · rintro ⟨read, identity, replaced, rfl, hread, hreplaced, rfl⟩
    refine ⟨.ok identity, [_], replaced, rfl, runs_getIdentity.mpr ⟨read, rfl, hread⟩, ?_⟩
    exact runs_bind.mpr ⟨.ok (), replaced, [], by simp, runs_scramblePassword.mpr hreplaced,
      .done _⟩

/-- **A purge without a failure is complete.** -/
theorem runs_purgeCredentials {password : String} :
    Runs (purgeCredentials crates password id) t [] ↔ CompletePurge crates password id t := by
  have hunlink (links : List String) (t : List (Exchange Call Call.Answer)) := runs_collect_nil
    (f := fun link => do
      let result ← deleteOidcLink id link
      return failureOf crates result) (l := links) (t := t)
  have hdelete (t : List (Exchange Call Call.Answer)) := runs_collect_nil
    (f := fun credentialType => do
      let result ← deleteCredential crates id credentialType
      return failureOf crates result) (l := purgedCredentialTypes) (t := t)
  simp only [runs_failureOf, runs_deleteOidcLink, runs_deleteCredential] at hunlink hdelete
  rw [purgeCredentials, runs_bind]
  constructor
  · rintro ⟨⟨failures, links⟩, first, _, rfl, hfirst, h⟩
    obtain ⟨unlinking, second, _, rfl, hsecond, h⟩ := runs_bind.mp h
    obtain ⟨deleting, third, _, rfl, hthird, h⟩ := runs_bind.mp h
    obtain ⟨rfl, hnil⟩ := runs_done.mp h
    obtain ⟨hboth, rfl⟩ := List.append_eq_nil_iff.mp hnil.symm
    obtain ⟨rfl, rfl⟩ := List.append_eq_nil_iff.mp hboth
    obtain ⟨read, identity, replaced, rfl, hread, hreplaced, rfl⟩ := runs_purgePassword.mp hfirst
    obtain ⟨unlinked, hunlinked, rfl⟩ := (hunlink _ _).mp hsecond
    obtain ⟨deleted, hdeleted, rfl⟩ := (hdelete _).mp hthird
    exact ⟨read, identity, replaced, unlinked, deleted, by simp, hread, hreplaced, hunlinked,
      hdeleted⟩
  · rintro ⟨read, identity, replaced, unlinked, deleted, rfl, hread, hreplaced, hunlinked,
      hdeleted⟩
    refine ⟨([], identity.oidcIdentifiers), ⟨.getIdentity id true, read⟩ :: replaced,
      unlinked.flatten ++ deleted.flatten, by simp,
      runs_purgePassword.mpr ⟨read, identity, replaced, rfl, hread, hreplaced, rfl⟩, ?_⟩
    refine runs_bind.mpr ⟨[], _, _, rfl, (hunlink _ _).mpr ⟨unlinked, hunlinked, rfl⟩, ?_⟩
    refine runs_bind.mpr ⟨[], _, [], by simp, (hdelete _).mpr ⟨deleted, hdeleted, rfl⟩, ?_⟩
    exact .done _

theorem isEmpty_others {sessions : List Uuid} {keep : Uuid} :
    (sessions.filter (· ≠ keep)).isEmpty = true ↔ ∀ session ∈ sessions, session = keep := by
  rw [List.isEmpty_iff, List.filter_eq_nil_iff]
  simp

theorem runs_sessionRounds {keep : Uuid} {n : ℕ} :
    Runs (sessionRounds crates id keep n) t (.ok ()) ↔ RoundsEnd crates id keep n t := by
  have hrevoke (others : List Uuid) (t : List (Exchange Call Call.Answer)) := runs_collect_nil
    (f := fun session => do
      let result ← revokeSession session
      return failureOf crates result) (l := others) (t := t)
  simp only [runs_failureOf, runs_revokeSession] at hrevoke
  induction n generalizing t with
  | zero =>
    constructor
    · intro h
      cases (runs_done.mp h).2
    · intro h
      cases h
  | succ n ih =>
    rw [sessionRounds, runs_bind]
    constructor
    · rintro ⟨result, before, after, rfl, hlist, h⟩
      cases result with
      | error error => cases (runs_done.mp h).2
      | ok sessions =>
        obtain ⟨reply, rfl, hshows⟩ := runs_activeSessions.mp hlist
        dsimp only at h
        split at h
        · next hnone =>
          obtain ⟨rfl, -⟩ := runs_done.mp h
          exact .last hshows (isEmpty_others.mp hnone)
        · next hsome =>
          obtain ⟨failed, first, rest, rfl, hfailed, hrest⟩ := runs_bind.mp h
          split at hrest
          · next hnil =>
            obtain rfl := List.isEmpty_iff.mp hnil
            obtain ⟨revoked, hrevoked, rfl⟩ := (hrevoke _ _).mp hfailed
            refine .more hshows ?_ hrevoked (ih.mp hrest)
            simpa [isEmpty_others] using hsome
          · cases (runs_done.mp hrest).2
    · intro h
      cases h with
      | @last _ reply sessions hshows hkept =>
        refine ⟨.ok sessions, [_], [], rfl, runs_activeSessions.mpr ⟨reply, rfl, hshows⟩, ?_⟩
        dsimp only
        rw [if_pos (isEmpty_others.mpr hkept)]
        exact .done _
      | @more _ reply sessions revoked rest hshows hothers hrevoked h =>
        refine ⟨.ok sessions, [_], _, rfl, runs_activeSessions.mpr ⟨reply, rfl, hshows⟩, ?_⟩
        dsimp only
        rw [if_neg (by simpa [isEmpty_others] using hothers)]
        exact runs_bind.mpr ⟨[], _, rest, rfl, (hrevoke _ _).mpr ⟨revoked, hrevoked, rfl⟩,
          ih.mpr h⟩

/-- **The sessions have ended if the step reports no failure.** -/
theorem runs_revokeKratosSessions {keep : Option Uuid} :
    Runs (revokeKratosSessions crates id keep) t (.ok ()) ↔ SessionsEnded crates id keep t := by
  cases keep with
  | none =>
    rw [revokeKratosSessions, runs_bind]
    constructor
    · rintro ⟨result, before, after, rfl, hrevoke, h⟩
      obtain ⟨rfl, hresult⟩ := runs_done.mp h
      cases result with
      | error error => cases hresult
      | ok =>
        rw [List.append_nil]
        exact runs_revokeAllSessions.mp hrevoke
    · intro h
      exact ⟨.ok (), t, [], (List.append_nil t).symm, runs_revokeAllSessions.mpr h, .done _⟩
  | some keep => exact runs_sessionRounds

/-- The purge is complete, if it is asked for. -/
def Purged (crates : Crates) (revocation : Revocation) (password : String)
    (t : List (Exchange Call Call.Answer)) : Prop :=
  if revocation.purgeCredentials then CompletePurge crates password revocation.identityId t
  else t = []

theorem runs_purge {revocation : Revocation} {password : String} :
    Runs (purge crates revocation password) t [] ↔ Purged crates revocation password t := by
  rw [purge, Purged]
  split_ifs
  · rw [runs_bind]
    constructor
    · rintro ⟨failures, before, after, rfl, hpurge, h⟩
      obtain ⟨rfl, hnil⟩ := runs_done.mp h
      rw [List.map_eq_nil_iff.mp hnil.symm] at hpurge
      rw [List.append_nil]
      exact runs_purgeCredentials.mp hpurge
    · intro h
      exact ⟨[], t, [], (List.append_nil t).symm, runs_purgeCredentials.mpr h, .done _⟩
  · rw [pure_eq, runs_done]
    simp

/-- The three steps in Kratos all run, and there is no failure if none of them fails. -/
theorem runs_revokeInKratos {revocation : Revocation} {drawn : Drawn} {failures : List String}
    (h : Runs (revokeInKratos crates revocation drawn) t failures) :
    ∃ before sessions after failedBefore result failedAfter, t = before ++ sessions ++ after ∧
      Runs (purge crates revocation drawn.first) before failedBefore ∧
      Runs (revokeKratosSessions crates revocation.identityId revocation.keepSession) sessions
        result ∧
      Runs (purge crates revocation drawn.second) after failedAfter ∧
      (failures = [] ↔ failedBefore = [] ∧ result = .ok () ∧ failedAfter = []) := by
  obtain ⟨failedBefore, before, _, rfl, hbefore, h⟩ := runs_bind.mp h
  obtain ⟨result, sessions, _, rfl, hsessions, h⟩ := runs_bind.mp h
  obtain ⟨failedAfter, after, _, rfl, hafter, h⟩ := runs_bind.mp h
  obtain ⟨rfl, rfl⟩ := runs_done.mp h
  refine ⟨before, sessions, after, failedBefore, result, failedAfter, by simp, hbefore, hsessions,
    hafter, ?_⟩
  cases result <;> simp

end Steps

/-! ### What the whole has done -/

/-- What the steps have sent, and what came back. -/
structure Steps where
  before : List (Exchange Call Call.Answer)
  sessions : List (Exchange Call Call.Answer)
  after : List (Exchange Call Call.Answer)
  consent : Reply
  login : Reply
  bff : Reply

namespace Steps

variable (crates : Crates) (revocation : Revocation) (drawn : Drawn) (steps : Steps)

def exchanges : List (Exchange Call Call.Answer) :=
  steps.before ++ steps.sessions ++ steps.after ++
    [⟨.revokeConsentSessions revocation.identityId, steps.consent⟩,
      ⟨.revokeLoginSessions revocation.identityId, steps.login⟩,
      ⟨.revokeInBff revocation.identityId, steps.bff⟩]

/-- Every step in Kratos has been run to its end. -/
structure Attempted : Prop where
  before : ∃ failures, Runs (purge crates revocation drawn.first) steps.before failures
  sessions : ∃ result,
    Runs (revokeKratosSessions crates revocation.identityId revocation.keepSession) steps.sessions
      result
  after : ∃ failures, Runs (purge crates revocation drawn.second) steps.after failures

/-- Every step has done what it is for. -/
structure Complete : Prop where
  before : Purged crates revocation drawn.first steps.before
  sessions : SessionsEnded crates revocation.identityId revocation.keepSession steps.sessions
  after : Purged crates revocation drawn.second steps.after
  consent : steps.consent.Succeeded
  login : steps.login.Succeeded
  bff : steps.bff.Succeeded

end Steps

section Whole

variable {net : Net Call Call.Answer} {state : AppState} {revocation : Revocation} {drawn : Drawn}
  {w : World Call Call.Answer}

/-- Every call is answered, and the answers come within the budgets. -/
structure Timely (net : Net Call Call.Answer) (state : AppState) (revocation : Revocation)
    (drawn : Drawn) (w : World Call Call.Answer) : Prop where
  kratos : ((revokeInKratos state.crates revocation drawn).exec net w).2.now ≤
    w.now + state.requestTimeout / 2
  rest : ∀ log, ∀ call ∈ [Call.revokeConsentSessions revocation.identityId,
    .revokeLoginSessions revocation.identityId, .revokeInBff revocation.identityId],
    (net log call).2 ≤ state.requestTimeout * 2 / 5

/-- A call that succeeds within its budget was answered so. -/
theorem within_ok {c : Call} (hc : Call.Answer c = Reply) {what : String} {budget : ℕ}
    {w' : World Call Call.Answer}
    (h : within state.crates net budget
      (Program.send c >>= fun reply => pure ((checked what (cast hc reply)).map fun _ => ())) w =
        (.ok (), w')) :
    ∃ reply : Call.Answer c, w'.exchanges = w.exchanges ++ [⟨c, reply⟩] ∧
      (cast hc reply).Succeeded := by
  unfold within at h
  split at h
  · next result w'' hexec =>
    obtain ⟨hok, rfl⟩ := Prod.mk.inj h
    obtain ⟨t, hruns, hexchanges⟩ := runs_of_execUntil hexec
    obtain ⟨reply, rfl, hresult⟩ := runs_send.mp hruns
    refine ⟨reply, hexchanges, map_checked_ok.mp (hresult.trans ?_)⟩
    cases result with
    | error error => cases hok
    | ok => rfl
  · cases (Prod.mk.inj h).1

/-- A call that is answered within its budget has been. -/
theorem within_of_le {c : Call} (hc : Call.Answer c = Reply) {what : String} {budget : ℕ}
    (htime : (net w.log c).2 ≤ budget) : ∃ (reply : Call.Answer c) (w' : World Call Call.Answer),
    within state.crates net budget
        (Program.send c >>= fun reply => pure ((checked what (cast hc reply)).map fun _ => ())) w =
      (((checked what (cast hc reply)).map fun _ => ()).mapError
        (UpstreamError.display state.crates), w') ∧
    w'.exchanges = w.exchanges ++ [⟨c, reply⟩] := by
  let p : Calls (Except UpstreamError Unit) :=
    Program.send c >>= fun reply => pure ((checked what (cast hc reply)).map fun _ => ())
  have hnow : (p.exec net w).2.now ≤ w.now + budget := Nat.add_le_add_left htime w.now
  have hend := execUntil_eq hnow
  obtain ⟨t, hruns, hexchanges⟩ := runs_of_execUntil hend
  obtain ⟨reply, rfl, hresult⟩ := runs_send.mp hruns
  refine ⟨reply, (p.exec net w).2, ?_, hexchanges⟩
  rw [within, hend, hresult]

theorem stepFailure_eq_nil {step : String} {result : Except String Unit} :
    stepFailure step result = [] ↔ result = .ok () := by
  cases result <;> simp [stepFailure]

/-- The parts of a revocation. -/
theorem revoke_spec (net : Net Call Call.Answer) (state : AppState) (revocation : Revocation)
    (drawn : Drawn) (w : World Call Call.Answer) : ∃ failures w₀ consent w₁ login w₂ bff w₃,
      withinKratosBudget net state revocation drawn w = (failures, w₀) ∧
      within state.crates net (state.requestTimeout * 2 / 5)
        (HydraAdmin.revokeConsentSessions revocation.identityId) w₀ = (consent, w₁) ∧
      within state.crates net (state.requestTimeout * 2 / 5)
        (HydraAdmin.revokeLoginSessions revocation.identityId) ⟨w₁.log, w₀.now⟩ = (login, w₂) ∧
      within state.crates net (state.requestTimeout * 2 / 5)
        (BffInternal.revoke revocation.identityId) ⟨w₂.log, w₀.now⟩ = (bff, w₃) ∧
      (revoke net state revocation drawn w).2.exchanges = w₃.exchanges ∧
      ((revoke net state revocation drawn w).1 = .ok () ↔
        failures = [] ∧ consent = .ok () ∧ login = .ok () ∧ bff = .ok ()) := by
  rcases hkratos : withinKratosBudget net state revocation drawn w with ⟨failures, w₀⟩
  rcases hconsent : within state.crates net (state.requestTimeout * 2 / 5)
    (HydraAdmin.revokeConsentSessions revocation.identityId) w₀ with ⟨consent, w₁⟩
  rcases hlogin : within state.crates net (state.requestTimeout * 2 / 5)
    (HydraAdmin.revokeLoginSessions revocation.identityId) ⟨w₁.log, w₀.now⟩ with ⟨login, w₂⟩
  rcases hbff : within state.crates net (state.requestTimeout * 2 / 5)
    (BffInternal.revoke revocation.identityId) ⟨w₂.log, w₀.now⟩ with ⟨bff, w₃⟩
  refine ⟨failures, w₀, consent, w₁, login, w₂, bff, w₃, rfl, hconsent, hlogin, hbff, ?_, ?_⟩
  · simp only [revoke, hkratos, hconsent, hlogin, hbff]
    split_ifs <;> rfl
  · rw [← @stepFailure_eq_nil "hydra consent sessions" consent,
      ← @stepFailure_eq_nil "hydra login sessions" login, ← @stepFailure_eq_nil "bff sessions" bff]
    simp only [revoke, hkratos, hconsent, hlogin, hbff]
    split_ifs with hempty <;> simpa [and_assoc] using hempty

theorem mapError_ok {result : Except UpstreamError Unit} {f : UpstreamError → String} :
    result.mapError f = .ok () ↔ result = .ok () := by
  cases result <;> simp [Except.mapError]

/-- Kratos' part without a failure. -/
theorem steps_of_withinKratosBudget {w₀ : World Call Call.Answer}
    (h : withinKratosBudget net state revocation drawn w = ([], w₀)) :
    ∃ before sessions after, w₀.exchanges = w.exchanges ++ (before ++ sessions ++ after) ∧
      Purged state.crates revocation drawn.first before ∧
      SessionsEnded state.crates revocation.identityId revocation.keepSession sessions ∧
      Purged state.crates revocation drawn.second after := by
  unfold withinKratosBudget at h
  dsimp only at h
  split at h
  · next failures w' hexec =>
    obtain ⟨rfl, rfl⟩ := Prod.mk.inj h
    obtain ⟨t, hruns, hexchanges⟩ := runs_of_execUntil hexec
    obtain ⟨before, sessions, after, failedBefore, result, failedAfter, rfl, hbefore, hsessions,
      hafter, hnil⟩ := runs_revokeInKratos hruns
    obtain ⟨rfl, rfl, rfl⟩ := hnil.mp rfl
    exact ⟨before, sessions, after, hexchanges, runs_purge.mp hbefore,
      runs_revokeKratosSessions.mp hsessions, runs_purge.mp hafter⟩
  · cases (Prod.mk.inj h).1

/-- **Success is a complete revocation.** -/
theorem complete_of_ok (h : (revoke net state revocation drawn w).1 = .ok ()) :
    ∃ steps : Steps, (revoke net state revocation drawn w).2.exchanges =
        w.exchanges ++ steps.exchanges revocation ∧
      steps.Complete state.crates revocation drawn := by
  obtain ⟨failures, w₀, consent, w₁, login, w₂, bff, w₃, hkratos, hconsent, hlogin, hbff,
    hexchanges, hok⟩ := revoke_spec net state revocation drawn w
  obtain ⟨rfl, rfl, rfl, rfl⟩ := hok.mp h
  obtain ⟨before, sessions, after, hsteps, hbefore, hsessions, hafter⟩ :=
    steps_of_withinKratosBudget hkratos
  obtain ⟨consent, hexchanges₁, hconsent⟩ := within_ok rfl hconsent
  obtain ⟨login, hexchanges₂, hlogin⟩ := within_ok rfl hlogin
  obtain ⟨bff, hexchanges₃, hbff⟩ := within_ok rfl hbff
  refine ⟨⟨before, sessions, after, consent, login, bff⟩, ?_, hbefore, hsessions, hafter, hconsent,
    hlogin, hbff⟩
  rw [hexchanges, hexchanges₃, World.exchanges_mk, hexchanges₂, World.exchanges_mk, hexchanges₁,
    hsteps, Steps.exchanges]
  simp

/-- **Where no budget runs out, every step is attempted, and a failure of any is the result.** -/
theorem attempted_of_timely (h : Timely net state revocation drawn w) :
    ∃ steps : Steps, (revoke net state revocation drawn w).2.exchanges =
        w.exchanges ++ steps.exchanges revocation ∧
      steps.Attempted state.crates revocation drawn ∧
      ((revoke net state revocation drawn w).1 = .ok () ↔
        steps.Complete state.crates revocation drawn) := by
  obtain ⟨failures, w₀, consent, w₁, login, w₂, bff, w₃, hkratos, hconsent, hlogin, hbff,
    hexchanges, hok⟩ := revoke_spec net state revocation drawn w
  -- Kratos' part ends in time.
  rw [withinKratosBudget, execUntil_eq h.kratos] at hkratos
  obtain ⟨rfl, rfl⟩ := Prod.mk.inj hkratos
  obtain ⟨t, hruns, hexchanges₀⟩ := runs_exec (revokeInKratos state.crates revocation drawn) w
  obtain ⟨before, sessions, after, failedBefore, result, failedAfter, rfl, hbefore, hsessions,
    hafter, hnil⟩ := runs_revokeInKratos hruns
  -- So do the calls after it.
  obtain ⟨consentReply, w₁', hconsent', hexchanges₁⟩ := within_of_le
    (c := .revokeConsentSessions revocation.identityId) rfl (h.rest _ _ (by simp))
  obtain ⟨loginReply, w₂', hlogin', hexchanges₂⟩ := within_of_le
    (c := .revokeLoginSessions revocation.identityId) rfl (h.rest _ _ (by simp))
  obtain ⟨bffReply, w₃', hbff', hexchanges₃⟩ := within_of_le
    (c := .revokeInBff revocation.identityId) rfl (h.rest _ _ (by simp))
  obtain ⟨rfl, rfl⟩ := Prod.mk.inj (hconsent.symm.trans hconsent')
  obtain ⟨rfl, rfl⟩ := Prod.mk.inj (hlogin.symm.trans hlogin')
  obtain ⟨rfl, rfl⟩ := Prod.mk.inj (hbff.symm.trans hbff')
  refine ⟨⟨before, sessions, after, consentReply, loginReply, bffReply⟩, ?_,
    ⟨⟨_, hbefore⟩, ⟨_, hsessions⟩, ⟨_, hafter⟩⟩, ?_⟩
  · rw [hexchanges, hexchanges₃, World.exchanges_mk, hexchanges₂, World.exchanges_mk, hexchanges₁,
      hexchanges₀, Steps.exchanges]
    simp
  · rw [hok, hnil, mapError_ok, mapError_ok, mapError_ok, map_checked_ok, map_checked_ok,
      map_checked_ok]
    constructor
    · rintro ⟨⟨rfl, rfl, rfl⟩, hrest⟩
      exact ⟨runs_purge.mp hbefore, runs_revokeKratosSessions.mp hsessions, runs_purge.mp hafter,
        hrest.1, hrest.2.1, hrest.2.2⟩
    · intro hcomplete
      exact ⟨⟨hbefore.unique (runs_purge.mpr hcomplete.before),
        hsessions.unique (runs_revokeKratosSessions.mpr hcomplete.sessions),
        hafter.unique (runs_purge.mpr hcomplete.after)⟩, hcomplete.consent, hcomplete.login,
        hcomplete.bff⟩

end Whole

/-! ### A recovery -/

def sampleUuids : List (String × Uuid) :=
  [("11111111-1111-1111-1111-111111111111", 0x11111111111111111111111111111111),
    ("22222222-2222-2222-2222-222222222222", 0x22222222222222222222222222222222),
    ("33333333-3333-3333-3333-333333333333", 0x33333333333333333333333333333333)]

def sampleCrates : Crates where
  parseStr text := (sampleUuids.find? fun entry => entry.1 = text).map Prod.snd
  uuidText id := ((sampleUuids.find? fun entry => entry.2 = id).map Prod.fst).getD ""
  fromSlice _ := none
  syntaxText _ := "expected value"
  valueText _ := ""
  pointer _ _ := none
  parseUrl _ := none
  mismatch _ := "invalid type"
  statusText := toString
  durationText := toString

def sampleState : AppState := ⟨sampleCrates, false, false, [], fromSecs 30, true⟩

/-- An active identity with one social login and a passkey. -/
def sampleIdentity : Json :=
  .obj [("id", .str "11111111-1111-1111-1111-111111111111"), ("schema_id", .str "default"),
    ("state", .str "active"), ("traits", .obj [("email", .str "a@b.c")]),
    ("credentials", .obj [("oidc", .obj [("identifiers", .arr [.str "google:1"])]),
      ("passkey", .obj [])])]

/-- Kratos lists another session until one is revoked. -/
def sampleNet : Net Call Call.Answer := fun log call =>
  match call with
  | .getIdentity _ _ => (.response 200 (.ok sampleIdentity), fromSecs 1)
  | .listSessions _ =>
    let others := if log.length < 10 then ["33333333-3333-3333-3333-333333333333"] else []
    let session (id : String) : Json := .obj [("id", .str id)]
    (.response 200 (.ok (.arr (("22222222-2222-2222-2222-222222222222" :: others).map session))),
      fromSecs 1)
  | .webhook _ _ => (.failed "not called", 0)
  | .profileApis _ _ => ([], 0)
  | .replaceIdentity _ _ | .deleteIdentity _ | .deleteOidcLink _ _ | .deleteCredential _ _
  | .removePasskey _ | .revokeSession _ | .revokeAllSessions _ | .revokeConsentSessions _
  | .revokeLoginSessions _ | .revokeInBff _ => (.response 204 (.ok .null), 0)

def sampleRevocation : Revocation where
  identityId := 0x11111111111111111111111111111111
  keepSession := some 0x22222222222222222222222222222222
  purgeCredentials := true

end Hooks

end WeaveAuth
