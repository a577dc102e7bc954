import WeaveAuth.ForMathlib.SharedServer
import WeaveAuth.Hooks.RevocationBudget

/-!
# What an intruder keeps of an account

`hooks/src/server/api/after_recovery.rs` and `after_password_change.rs`: a revocation, while whoever
held the account before is still signed in to it. An intruder may sign in with what the account
accepts, and add to that over a session, whenever they like; Kratos is left open, but for what its
admin API is documented to do.

## Main results

* `purge_clears`: a purge takes away what is not added while it runs
* `shut_out`: who is not shut out has added something before the sessions ended, and has signed in
  with it right after that
* `signed_in_since`: who is still signed in has signed in since the sessions ended

## What is assumed of Kratos

`IsAccount` is its documented behaviour, a field for each thing that the revocation relies on: no
call lets anybody in but a `PUT` with its password, a deleted credential is gone, sessions that were
revoked are over. `May` is what others do to the account, in any order and at any time: whoever is
signed in may add to it, and nobody knows the passwords that were drawn.

## What it is about

Not whether a call is made, which is `Revocation`'s matter, but what is left of an intruder's ways
into the account afterwards. A purge is many calls, and an intruder who still has a session may add
to the account between any two of them, so the theorems say what such a one has to have done, and
when.
-/

namespace WeaveAuth

namespace Hooks

open Bff (Json Uuid)
open Program SharedServer KratosAdmin

/-! ### The two routes -/

/-- The body of both. -/
structure RevocationRequest where
  identityId : Uuid
  /-- The session to keep. -/
  sessionId : Option Uuid

def afterRecovery (net : Net Call Call.Answer) (state : AppState) (req : RevocationRequest)
    (drawn : Drawn) (w : World Call Call.Answer) :
    Except (List String) Unit × World Call Call.Answer :=
  revoke net state ⟨req.identityId, req.sessionId, true⟩ drawn w

def afterPasswordChange (net : Net Call Call.Answer) (state : AppState) (req : RevocationRequest)
    (drawn : Drawn) (w : World Call Call.Answer) :
    Except (List String) Unit × World Call Call.Answer :=
  revoke net state ⟨req.identityId, req.sessionId, false⟩ drawn w

/-! ### Accounts -/

/-- What an account may have besides a password and social logins. -/
inductive Factor where
  | webauthn
  | passkey
  | totp
  | lookupSecret
  deriving DecidableEq

/-- Kratos' name for it. -/
def Factor.name : Factor → String
  | .webauthn => "webauthn"
  | .passkey => "passkey"
  | .totp => "totp"
  | .lookupSecret => "lookup_secret"

/-- What one signs in with. -/
inductive Way where
  | password (password : String)
  | link (identifier : String)
  | factor (factor : Factor)
  deriving DecidableEq

/-- An account as Kratos has it. -/
structure Account where
  password : Option String
  links : List String
  factors : List Factor
  /-- The active ones. -/
  sessions : List Uuid

/-- The account accepts it. -/
def Account.Accepts (account : Account) : Way → Prop
  | .password password => account.password = some password
  | .link identifier => identifier ∈ account.links
  | .factor factor => factor ∈ account.factors

def Account.add (account : Account) : Way → Account
  | .password password => { account with password := some password }
  | .link identifier => { account with links := identifier :: account.links }
  | .factor factor => { account with factors := factor :: account.factors }

/-! ### Intruders -/

/-- The password that `rand` gave for a purge. -/
def Way.IsDrawn (drawn : Drawn) (way : Way) : Prop :=
  way = .password drawn.first ∨ way = .password drawn.second

inductive Move where
  | signIn (way : Way) (session : Uuid)
  | add (session : Uuid) (way : Way)
  /-- Something ends, or is removed. -/
  | lose

/-- What may happen to an account. Nobody knows the passwords that were drawn, and the session to
keep is not the intruder's. -/
inductive May (keep : Option Uuid) (drawn : Drawn) : Account → Move → Account → Prop where
  | signIn {account : Account} {way : Way} {session : Uuid} (haccepts : account.Accepts way)
      (hknown : ¬way.IsDrawn drawn) (hnew : some session ≠ keep) :
      May keep drawn account (.signIn way session)
        { account with sessions := session :: account.sessions }
  | add {account : Account} {session : Uuid} {way : Way} (hactive : session ∈ account.sessions)
      (hother : some session ≠ keep) (hknown : ¬way.IsDrawn drawn) :
      May keep drawn account (.add session way) (account.add way)
  | lose {account account' : Account} (hways : ∀ way, account'.Accepts way → account.Accepts way)
      (hsessions : ∀ session ∈ account'.sessions, session ∈ account.sessions) :
      May keep drawn account .lose account'

/-- Nobody but the kept session is in, and nobody knows how to get in. -/
structure ShutOut (keep : Option Uuid) (drawn : Drawn) (account : Account) : Prop where
  sessions : ∀ session ∈ account.sessions, some session = keep
  ways : ∀ way, account.Accepts way → way.IsDrawn drawn

/-! ### Kratos -/

/-- The password of a `PUT`. -/
def newPassword (body : Json) : Option String := do
  (← (← (← (← body.get "credentials").get "password").get "config").get "password").asStr

/-- What Kratos' admin API is documented to do with the account of one identity. -/
structure IsAccount (crates : Crates) (id : Uuid) (kratos : Server Call Call.Answer Account) :
    Prop where
  /-- No call lets anybody in, but a `PUT` with its password. -/
  ways : ∀ call account way, (kratos call account).2.Accepts way → account.Accepts way ∨
    ∃ id' body password, call = .replaceIdentity id' body ∧ newPassword body = some password ∧
      way = .password password
  sessions : ∀ call account, ∀ session ∈ (kratos call account).2.sessions,
    session ∈ account.sessions
  shows : ∀ includeOidc account identity, Reply.Shows (Identity.fromJson crates) identity
    (kratos (.getIdentity id includeOidc) account).1 → identity.id = id ∧
      (includeOidc = true → ∀ link ∈ account.links, link ∈ identity.oidcIdentifiers) ∧
      (.passkey ∈ account.factors → identity.hasCredential "passkey" = true)
  replaces : ∀ body password account, newPassword body = some password →
    Reply.Succeeded (kratos (.replaceIdentity id body) account).1 →
      (kratos (.replaceIdentity id body) account).2.password = some password
  unlinks : ∀ link account, Reply.Gone (kratos (.deleteOidcLink id link) account).1 →
    link ∉ (kratos (.deleteOidcLink id link) account).2.links
  deletes : ∀ (factor : Factor) account,
    Reply.Gone (kratos (.deleteCredential id factor.name) account).1 →
      factor ∉ (kratos (.deleteCredential id factor.name) account).2.factors
  removes : ∀ account, Reply.Gone (kratos (.removePasskey id) account).1 →
    .passkey ∉ (kratos (.removePasskey id) account).2.factors
  /-- The first page: all of them, or more than one. -/
  lists : ∀ account sessions, Reply.Shows (sessionsFromJson crates) sessions
    (kratos (.listSessions id) account).1 → (∀ session ∈ account.sessions, session ∈ sessions) ∨
      sessions.Nodup ∧ 2 ≤ sessions.length
  ends : ∀ account, Reply.Gone (kratos (.revokeAllSessions id) account).1 →
    (kratos (.revokeAllSessions id) account).2.sessions = []

/-! ### What stays out -/

section Traces

variable {crates : Crates} {id : Uuid} {keep : Option Uuid} {drawn : Drawn}
  {kratos : Server Call Call.Answer Account} {account account' : Account}
  {items : List (Item Call Call.Answer Move)} {way : Way}

theorem newPassword_withPassword (identity : Identity) (password : String) :
    newPassword (identity.withPassword password) = some password := by
  simp [newPassword, Identity.withPassword, Json.get, Json.asStr]

/-- The call does not let it in. -/
def Call.Spares (way : Way) (c : Call) : Prop :=
  ∀ id body password, c = .replaceIdentity id body → newPassword body = some password →
    way ≠ .password password

theorem spares_of_ne {c : Call} (h : ∀ id body, c ≠ .replaceIdentity id body) : c.Spares way :=
  fun id body _ hcall => absurd hcall (h id body)

theorem accepts_add {way' : Way} (h : (account.add way').Accepts way) :
    account.Accepts way ∨ way = way' := by
  cases way' <;> cases way <;> simp_all [Account.add, Account.Accepts, or_comm]

theorem sessions_add (account : Account) (way : Way) :
    (account.add way).sessions = account.sessions := by
  cases way <;> rfl

/-- **What nobody lets in stays out.** -/
theorem stays_out (hkratos : IsAccount crates id kratos)
    (h : Serves kratos (May keep drawn) account items account')
    (hadd : ∀ session, .other (.add session way) ∉ items)
    (hspares : ∀ e ∈ exchangesOf items, e.call.Spares way) (hout : ¬account.Accepts way) :
    ¬account'.Accepts way := by
  refine h.invariant (I := fun account => ¬account.Accepts way) (fun move hmove s s' hs hmay => ?_)
    (fun e he s hs haccepts => ?_) hout
  · intro haccepts
    cases hmay with
    | signIn => exact hs haccepts
    | add =>
      rcases accepts_add haccepts with hbefore | rfl
      · exact hs hbefore
      · exact hadd _ hmove
    | lose hways => exact hs (hways way haccepts)
  · rcases hkratos.ways e.call s way haccepts with hbefore | ⟨id', body, password, hcall, hnew, rfl⟩
    · exact hs hbefore
    · exact hspares e he id' body password hcall hnew rfl

/-- Where a call puts it out, it stays out. -/
theorem out_of_served (hkratos : IsAccount crates id kratos)
    (h : Serves kratos (May keep drawn) account items account')
    (hadd : ∀ session, .other (.add session way) ∉ items)
    (hspares : ∀ e ∈ exchangesOf items, e.call.Spares way)
    {before after : List (Exchange Call Call.Answer)} {c : Call} {answer : c.Answer}
    (hsplit : exchangesOf items = before ++ ⟨c, answer⟩ :: after)
    (hout : ∀ account, (kratos c account).1 = answer → ¬(kratos c account).2.Accepts way) :
    ¬account'.Accepts way := by
  obtain ⟨xs, ys, mid, rfl, -, -, -, hanswer, hys⟩ := h.at_served hsplit
  refine stays_out hkratos hys (fun session hmem => hadd session ?_) (fun e he => hspares e ?_)
    (hout mid hanswer)
  · exact List.mem_append_right _ (List.mem_cons_of_mem _ hmem)
  · rw [exchangesOf_append, exchangesOf_served]
    exact List.mem_append_right _ (List.mem_cons_of_mem _ he)

/-! ### A purge -/

/-- Deleting lets nothing in. -/
theorem spares_of_credentialDeleted {credentialType : String}
    {t : List (Exchange Call Call.Answer)} (h : CredentialDeleted crates id credentialType t) :
    ∀ e ∈ t, e.call.Spares way := by
  intro e he
  rw [CredentialDeleted] at h
  split_ifs at h
  · obtain ⟨read, identity, -, h⟩ := h
    split_ifs at h
    · obtain ⟨reply, rfl, -⟩ := h
      simp only [List.mem_cons, List.not_mem_nil, or_false] at he
      rcases he with rfl | rfl <;> exact spares_of_ne (by simp)
    · obtain rfl := List.mem_singleton.mp (h ▸ he)
      exact spares_of_ne (by simp)
  · obtain ⟨reply, rfl, -⟩ := h
    obtain rfl := List.mem_singleton.mp he
    exact spares_of_ne (by simp)

/-- A purge lets its password in only. -/
theorem spares_of_completePurge {password : String} {t : List (Exchange Call Call.Answer)}
    (h : CompletePurge crates password id t) (hway : way ≠ .password password) :
    ∀ e ∈ t, e.call.Spares way := by
  obtain ⟨read, identity, replaced, unlinked, deleted, rfl, -, hreplaced, hunlinked, hdeleted⟩ := h
  obtain ⟨read', identity', written, rfl, -, -, -⟩ := hreplaced
  intro e he
  simp only [List.mem_cons, List.mem_append, List.not_mem_nil, or_false] at he
  rcases he with rfl | ((rfl | rfl) | he) | he
  · exact spares_of_ne (by simp)
  · exact spares_of_ne (by simp)
  · rintro id' body password' hcall hnew rfl
    obtain ⟨-, rfl⟩ := Call.replaceIdentity.inj hcall
    rw [newPassword_withPassword] at hnew
    exact hway (congrArg Way.password (Option.some.inj hnew).symm)
  · obtain ⟨link, -, part, ⟨reply, rfl, -⟩, he⟩ := exists_of_mem_flatten hunlinked he
    obtain rfl := List.mem_singleton.mp he
    exact spares_of_ne (by simp)
  · obtain ⟨credentialType, -, part, hpart, he⟩ := exists_of_mem_flatten hdeleted he
    exact spares_of_credentialDeleted hpart e he

theorem name_mem_purgedCredentialTypes (factor : Factor) :
    factor.name ∈ purgedCredentialTypes := by
  cases factor <;> decide

/-- A social login that a purge is shown is unlinked. -/
theorem purge_clears_link (hkratos : IsAccount crates id kratos)
    (h : Serves kratos (May keep drawn) account items account') {password link : String}
    (hpurge : CompletePurge crates password id (exchangesOf items))
    (hadd : ∀ session, .other (.add session (.link link)) ∉ items) :
    ¬account'.Accepts (.link link) := by
  have hspares := @spares_of_completePurge crates id (.link link) password _ hpurge (by simp)
  obtain ⟨read, identity, replaced, unlinked, deleted, heq, hread, -, hunlinked, -⟩ := hpurge
  by_cases hshown : link ∈ identity.oidcIdentifiers
  · obtain ⟨_, before, after, ⟨reply, rfl, hgone⟩, hflat⟩ := exists_part hunlinked hshown
    have hsplit : exchangesOf items = (⟨.getIdentity id true, read⟩ :: (replaced ++ before)) ++
        ⟨.deleteOidcLink id link, reply⟩ :: (after ++ deleted.flatten) := by
      rw [heq, hflat]
      simp
    exact out_of_served hkratos h hadd hspares hsplit fun account hanswer =>
      hkratos.unlinks link account (hanswer ▸ hgone)
  · have hsplit : exchangesOf items = [] ++ ⟨.getIdentity id true, read⟩ ::
        (replaced ++ unlinked.flatten ++ deleted.flatten) := heq
    refine out_of_served hkratos h hadd hspares hsplit fun account hanswer haccepts => ?_
    obtain ⟨-, hlinks, -⟩ := hkratos.shows true account identity (hanswer ▸ hread)
    rcases hkratos.ways _ account _ haccepts with hbefore | ⟨_, _, _, hcall, -⟩
    · exact hshown (hlinks rfl link hbefore)
    · cases hcall

/-- Any other credential is deleted. -/
theorem purge_clears_factor (hkratos : IsAccount crates id kratos)
    (h : Serves kratos (May keep drawn) account items account') {password : String}
    {factor : Factor} (hpurge : CompletePurge crates password id (exchangesOf items))
    (hadd : ∀ session, .other (.add session (.factor factor)) ∉ items) :
    ¬account'.Accepts (.factor factor) := by
  have hspares := @spares_of_completePurge crates id (.factor factor) password _ hpurge (by simp)
  obtain ⟨read, identity, replaced, unlinked, deleted, heq, -, -, -, hdeleted⟩ := hpurge
  obtain ⟨part, before, after, hpart, hflat⟩ :=
    exists_part hdeleted (name_mem_purgedCredentialTypes factor)
  rw [hflat] at heq
  rw [CredentialDeleted] at hpart
  split_ifs at hpart with hpasskey
  · obtain rfl : factor = .passkey := by revert hpasskey; cases factor <;> decide
    obtain ⟨read', identity', hread', hpart⟩ := hpart
    split_ifs at hpart with hhas
    · obtain ⟨reply, rfl, hgone⟩ := hpart
      have hsplit : exchangesOf items = (⟨.getIdentity id true, read⟩ :: (replaced ++
          unlinked.flatten ++ before ++ [⟨.getIdentity id false, read'⟩])) ++
          ⟨.removePasskey id, reply⟩ :: after := by
        rw [heq]
        simp
      exact out_of_served hkratos h hadd hspares hsplit fun account hanswer =>
        hkratos.removes account (hanswer ▸ hgone)
    · subst hpart
      have hsplit : exchangesOf items = (⟨.getIdentity id true, read⟩ :: (replaced ++
          unlinked.flatten ++ before)) ++ ⟨.getIdentity id false, read'⟩ :: after := by
        rw [heq]
        simp
      refine out_of_served hkratos h hadd hspares hsplit fun account hanswer haccepts => ?_
      obtain ⟨-, -, hshown⟩ := hkratos.shows false account identity' (hanswer ▸ hread')
      rcases hkratos.ways _ account _ haccepts with hbefore | ⟨_, _, _, hcall, -⟩
      · exact hhas (hshown hbefore)
      · cases hcall
  · obtain ⟨reply, rfl, hgone⟩ := hpart
    have hsplit : exchangesOf items = (⟨.getIdentity id true, read⟩ :: (replaced ++
        unlinked.flatten ++ before)) ++ ⟨.deleteCredential id factor.name, reply⟩ :: after := by
      rw [heq]
      simp
    exact out_of_served hkratos h hadd hspares hsplit fun account hanswer =>
      hkratos.deletes factor account (hanswer ▸ hgone)

/-- **A purge takes away what is not added while it runs.** -/
theorem purge_clears (hkratos : IsAccount crates id kratos)
    (h : Serves kratos (May keep drawn) account items account') {password : String}
    (hpurge : CompletePurge crates password id (exchangesOf items))
    (hway : way ≠ .password password) (hadd : ∀ session, .other (.add session way) ∉ items) :
    ¬account'.Accepts way := by
  cases way with
  | link link => exact purge_clears_link hkratos h hpurge hadd
  | factor factor => exact purge_clears_factor hkratos h hpurge hadd
  | password other =>
    have hspares := spares_of_completePurge hpurge hway
    obtain ⟨read, identity, replaced, unlinked, deleted, heq, -, hreplaced, -, -⟩ := hpurge
    obtain ⟨read', identity', written, rfl, hread', -, hwritten⟩ := hreplaced
    -- It is written to the identity that was read.
    have hread : exchangesOf items = [⟨.getIdentity id true, read⟩] ++
        ⟨.getIdentity id false, read'⟩ :: ([⟨.replaceIdentity identity'.id
          (identity'.withPassword password), written⟩] ++ unlinked.flatten ++ deleted.flatten) := by
      rw [heq]
      simp
    obtain ⟨_, _, mid, -, -, -, -, hanswer, -⟩ := h.at_served hread
    obtain ⟨hsame, -⟩ := hkratos.shows false mid identity' (hanswer ▸ hread')
    rw [hsame] at heq
    have hsplit : exchangesOf items =
        [⟨.getIdentity id true, read⟩, ⟨.getIdentity id false, read'⟩] ++
        ⟨.replaceIdentity id (identity'.withPassword password), written⟩ ::
          (unlinked.flatten ++ deleted.flatten) := by
      rw [heq]
      simp
    refine out_of_served hkratos h hadd hspares hsplit fun account hanswer haccepts => hway ?_
    have hset := hkratos.replaces _ password account (newPassword_withPassword identity' password)
      (hanswer ▸ hwritten)
    rw [Option.some.inj (haccepts.symm.trans hset)]

/-! ### The sessions -/

/-- The call says that the sessions have ended. -/
def Call.TellsEnd (id : Uuid) (c : Call) : Prop := c = .listSessions id ∨ c = .revokeAllSessions id

/-- Ending sessions lets nothing in. -/
theorem spares_of_sessionsEnded {t : List (Exchange Call Call.Answer)}
    (h : SessionsEnded crates id keep t) : ∀ e ∈ t, e.call.Spares way := by
  cases keep with
  | none =>
    obtain ⟨reply, rfl, -⟩ := h
    intro e he
    obtain rfl := List.mem_singleton.mp he
    exact spares_of_ne (by simp)
  | some keep =>
    obtain ⟨n, hrounds⟩ : ∃ n, RoundsEnd crates id keep n t := ⟨_, h⟩
    clear h
    induction hrounds with
    | last =>
      intro e he
      obtain rfl := List.mem_singleton.mp he
      exact spares_of_ne (by simp)
    | more _ _ hrevoked _ ih =>
      intro e he
      rcases List.mem_cons.mp he with rfl | he
      · exact spares_of_ne (by simp)
      rcases List.mem_append.mp he with he | he
      · obtain ⟨session, -, part, ⟨reply, rfl, -⟩, he⟩ := exists_of_mem_flatten hrevoked he
        obtain rfl := List.mem_singleton.mp he
        exact spares_of_ne (by simp)
      · exact ih e he

/-- The last of its calls finds nobody in but the kept session. -/
theorem tellsEnd_of_sessionsEnded (hkratos : IsAccount crates id kratos)
    {t : List (Exchange Call Call.Answer)} (h : SessionsEnded crates id keep t) :
    ∃ (before : List (Exchange Call Call.Answer)) (c : Call) (answer : c.Answer),
      t = before ++ [⟨c, answer⟩] ∧ c.TellsEnd id ∧
      ∀ account, (kratos c account).1 = answer →
        ∀ session ∈ (kratos c account).2.sessions, some session = keep := by
  cases keep with
  | none =>
    obtain ⟨reply, rfl, hgone⟩ := h
    refine ⟨[], .revokeAllSessions id, reply, rfl, Or.inr rfl,
      fun account hanswer session hmem => ?_⟩
    rw [hkratos.ends account (hanswer ▸ hgone)] at hmem
    cases hmem
  | some keep =>
    obtain ⟨before, reply, sessions, rfl, hshows, hkept⟩ := RoundsEnd.last_listing h
    refine ⟨before, .listSessions id, reply, rfl, Or.inl rfl,
      fun account hanswer session hmem => ?_⟩
    rcases hkratos.lists account sessions (hanswer ▸ hshows) with hall | ⟨hnodup, hlength⟩
    · exact congrArg some (hkept session (hall session (hkratos.sessions _ account session hmem)))
    · -- A page of nothing but the kept session is not a full one.
      match sessions, hnodup, hlength, hkept with
      | first :: second :: _, hnodup, _, hkept =>
        have hsame : first = second :=
          (hkept first (by simp)).trans (hkept second (by simp)).symm
        simp [hsame] at hnodup

/-- While nobody signs in, nobody gets in. -/
theorem alone_of_noSignIn (hkratos : IsAccount crates id kratos)
    (h : Serves kratos (May keep drawn) account items account')
    (hno : ∀ way session, .other (.signIn way session) ∉ items)
    (hs : ∀ session ∈ account.sessions, some session = keep) :
    ∀ session ∈ account'.sessions, some session = keep := by
  refine h.invariant (I := fun account => ∀ session ∈ account.sessions, some session = keep)
    (fun move hmove s s' hs hmay session hmem => ?_)
    (fun e _ s hs session hmem => hs session (hkratos.sessions _ _ session hmem)) hs
  cases hmay with
  | signIn => exact absurd hmove (hno _ _)
  | add => exact hs session (sessions_add _ _ ▸ hmem)
  | lose _ hsessions => exact hs session (hsessions session hmem)

/-- Nothing is added then. -/
theorem noAdd_of_noSignIn (hkratos : IsAccount crates id kratos)
    (h : Serves kratos (May keep drawn) account items account')
    (hno : ∀ way session, .other (.signIn way session) ∉ items)
    (hs : ∀ session ∈ account.sessions, some session = keep) (session : Uuid) (way : Way) :
    .other (.add session way) ∉ items := by
  intro hmem
  obtain ⟨xs, ys, rfl⟩ := List.append_of_mem hmem
  obtain ⟨mid, hxs, hys⟩ := serves_append.mp h
  have halone := alone_of_noSignIn hkratos hxs
    (fun way session hmem => hno way session (List.mem_append_left _ hmem)) hs
  obtain ⟨_, hmay, -⟩ := serves_other.mp hys
  cases hmay with
  | add hactive hother => exact hother (halone session hactive)

/-- **Who is shut out stays so.** -/
theorem ShutOut.stays (hshut : ShutOut keep drawn account) {moves : List Move}
    (h : Serves kratos (May keep drawn) account (moves.map .other) account') :
    ShutOut keep drawn account' := by
  refine h.invariant (I := ShutOut keep drawn) (fun move _ s s' hs hmay => ?_) (fun e he => ?_)
    hshut
  · cases hmay with
    | signIn haccepts hknown => exact absurd (hs.ways _ haccepts) hknown
    | add hactive hother => exact absurd (hs.sessions _ hactive) hother
    | lose hways hsessions =>
      exact ⟨fun session hmem => hs.sessions session (hsessions session hmem),
        fun way haccepts => hs.ways way (hways way haccepts)⟩
  · obtain ⟨move, -, hmove⟩ := List.mem_map.mp (mem_exchangesOf.mp he)
    cases hmove

end Traces

/-! ### A revocation -/

section Whole

variable {net : Net Call Call.Answer} {state : AppState} {revocation : Revocation} {drawn : Drawn}
  {w : World Call Call.Answer} {kratos : Server Call Call.Answer Account}
  {account account' : Account} {items : List (Item Call Call.Answer Move)}
  {rest : List (Exchange Call Call.Answer)}

/-- A revocation that reports no failure, at a Kratos that others use too: its calls to Kratos are
those of `items`, and three to Hydra and bff follow. -/
structure Revoked (net : Net Call Call.Answer) (state : AppState) (revocation : Revocation)
    (drawn : Drawn) (w : World Call Call.Answer) (kratos : Server Call Call.Answer Account)
    (account : Account) (items : List (Item Call Call.Answer Move)) (account' : Account) :
    Prop where
  isAccount : IsAccount state.crates revocation.identityId kratos
  ok : (revoke net state revocation drawn w).1 = .ok ()
  calls : ∃ rest, rest.length = 3 ∧
    (revoke net state revocation drawn w).2.exchanges = w.exchanges ++ (exchangesOf items ++ rest)
  serves : Serves kratos (May revocation.keepSession drawn) account items account'

/-- Its parts. -/
theorem Revoked.exists_ended
    (h : Revoked net state revocation drawn w kratos account items account') :
    ∃ (early late : List (Item Call Call.Answer Move)) (c : Call) (answer : c.Answer)
      (mid : Account) (before others : List (Exchange Call Call.Answer)),
      items = early ++ .served ⟨c, answer⟩ :: late ∧ c.TellsEnd revocation.identityId ∧
      exchangesOf early = before ++ others ∧
      Purged state.crates revocation drawn.first before ∧
      (∀ way, c.Spares way ∧ ∀ e ∈ others, e.call.Spares way) ∧
      Purged state.crates revocation drawn.second (exchangesOf late) ∧
      Serves kratos (May revocation.keepSession drawn) account early mid ∧
      Serves kratos (May revocation.keepSession drawn) (kratos c mid).2 late account' ∧
      ∀ session ∈ (kratos c mid).2.sessions, some session = revocation.keepSession := by
  obtain ⟨steps, hexchanges, hcomplete⟩ := complete_of_ok h.ok
  obtain ⟨rest, hrest, hcalls⟩ := h.calls
  have hsame := List.append_cancel_left (hcalls.symm.trans hexchanges)
  obtain ⟨hitems, -⟩ := List.append_inj' hsame (by rw [hrest]; rfl)
  obtain ⟨others, c, answer, hsessions, htells, hended⟩ :=
    tellsEnd_of_sessionsEnded h.isAccount hcomplete.sessions
  rw [hsessions] at hitems
  have hsplit : exchangesOf items = (steps.before ++ others) ++ ⟨c, answer⟩ :: steps.after := by
    rw [hitems]
    simp
  obtain ⟨early, late, mid, rfl, hearly, hlate, hserved, hanswer, hrest⟩ :=
    h.serves.at_served hsplit
  refine ⟨early, late, c, answer, mid, steps.before, others, rfl, htells, hearly, hcomplete.before,
    fun way => ?_, hlate ▸ hcomplete.after, hserved, hrest, hended mid hanswer⟩
  have hspares := @spares_of_sessionsEnded _ _ _ way _ hcomplete.sessions
  rw [hsessions] at hspares
  exact ⟨hspares _ (List.mem_append_right _ (List.mem_singleton_self _)),
    fun e he => hspares e (List.mem_append_left _ he)⟩

def isSignIn : Item Call Call.Answer Move → Bool
  | .other (.signIn _ _) => true
  | _ => false

/-- The items from the sessions' end on, and those before it. -/
def SplitAtEnd (id : Uuid) (items early late : List (Item Call Call.Answer Move)) : Prop :=
  ∃ e : Exchange Call Call.Answer, items = early ++ .served e :: late ∧ e.call.TellsEnd id

/-- **Who is not shut out has raced the recovery twice.** Where a revocation with a purge reports no
failure, then nobody is in the account but the kept session, and nobody knows how to get in, then or
whatever happens after that; or else somebody has added a credential, while the revocation was
running and over a session that had not ended yet, and has signed in with that one after the
sessions ended and before the second purge came to it. Nothing from before lets anybody in. -/
theorem shut_out (h : Revoked net state revocation drawn w kratos account items account')
    (hpurge : revocation.purgeCredentials = true) :
    (∀ (moves : List Move) (later : Account),
      Serves kratos (May revocation.keepSession drawn) account' (moves.map .other) later →
        ShutOut revocation.keepSession drawn later) ∨
    ∃ early late, SplitAtEnd revocation.identityId items early late ∧ ∃ way session session',
      .other (.add session way) ∈ early ∧ .other (.signIn way session') ∈ late := by
  obtain ⟨early, late, c, answer, mid, before, others, hitems, htells, hearly, hbefore, hspares,
    hlate, hserved, hrest, halone⟩ := h.exists_ended
  rw [Purged, if_pos hpurge] at hbefore hlate
  cases hfirst : late.find? isSignIn with
  | none =>
    left
    have hno : ∀ way session, .other (.signIn way session) ∉ late := fun way session hmem =>
      absurd rfl (List.find?_eq_none.mp hfirst _ hmem)
    refine fun moves later hlater => ShutOut.stays ⟨?_, fun way haccepts => ?_⟩ hlater
    · exact alone_of_noSignIn h.isAccount hrest hno halone
    · by_contra hknown
      refine purge_clears h.isAccount hrest hlate (fun heq => hknown (Or.inr heq)) ?_ haccepts
      exact fun session => noAdd_of_noSignIn h.isAccount hrest hno halone session way
  | some item =>
    right
    obtain ⟨hsignIn, xs, ys, rfl, hxs⟩ := List.find?_eq_some_iff_append.mp hfirst
    obtain ⟨way, session', rfl⟩ : ∃ way session', item = .other (.signIn way session') := by
      cases item with
      | served => cases hsignIn
      | other move =>
        cases move with
        | signIn way session' => exact ⟨way, session', rfl⟩
        | add => cases hsignIn
        | lose => cases hsignIn
    have hno : ∀ way session, .other (.signIn way session) ∉ xs := fun way session hmem => by
      simpa [isSignIn] using hxs _ hmem
    obtain ⟨now, hquiet, hnow⟩ := serves_append.mp hrest
    obtain ⟨_, hmay, -⟩ := serves_other.mp hnow
    obtain ⟨haccepts, hknown⟩ : now.Accepts way ∧ ¬way.IsDrawn drawn := by
      cases hmay with
      | signIn haccepts hknown => exact ⟨haccepts, hknown⟩
    -- It was accepted when the sessions ended, as nothing is added after that,
    have hmid : mid.Accepts way := by
      have hended : (kratos c mid).2.Accepts way := by
        by_contra hout
        refine stays_out h.isAccount hquiet
          (fun session => noAdd_of_noSignIn h.isAccount hquiet hno halone session way)
          (fun e he => ?_) hout haccepts
        refine spares_of_completePurge hlate (fun heq => hknown (Or.inr heq)) e ?_
        rw [exchangesOf_append]
        exact List.mem_append_left _ he
      rcases h.isAccount.ways c mid way hended with hmid | ⟨id', body, password, hcall, hnew, hway⟩
      · exact hmid
      · exact absurd hway ((hspares way).1 id' body password hcall hnew)
    -- and so it was added since the first purge.
    have hadded : ∃ session, .other (.add session way) ∈ early := by
      by_contra hnone
      obtain ⟨first, second, rfl, rfl, rfl⟩ := exists_trace_append hearly
      obtain ⟨purged, hfirst, hsecond⟩ := serves_append.mp hserved
      have hout : ¬purged.Accepts way :=
        purge_clears h.isAccount hfirst hbefore (fun heq => hknown (Or.inl heq))
          fun session hmem => hnone ⟨session, List.mem_append_left _ hmem⟩
      exact stays_out h.isAccount hsecond
        (fun session hmem => hnone ⟨session, List.mem_append_right _ hmem⟩) (hspares way).2 hout
        hmid
    obtain ⟨session, hadd⟩ := hadded
    exact ⟨early, _, ⟨_, hitems, htells⟩, way, session, session', hadd,
      List.mem_append_right _ List.mem_cons_self⟩

/-- **Who is in has signed in since.** Where a revocation reports no failure, then whoever is in the
account after it, but for the kept session, has signed in after the sessions ended. -/
theorem signed_in_since (h : Revoked net state revocation drawn w kratos account items account')
    {session : Uuid} (hin : session ∈ account'.sessions)
    (hother : some session ≠ revocation.keepSession) :
    ∃ early late, SplitAtEnd revocation.identityId items early late ∧
      ∃ way, .other (.signIn way session) ∈ late := by
  obtain ⟨early, late, c, answer, mid, before, others, hitems, htells, -, -, -, -, -, hrest,
    halone⟩ := h.exists_ended
  refine ⟨early, late, ⟨_, hitems, htells⟩, ?_⟩
  by_contra hnone
  have hout : session ∉ (kratos c mid).2.sessions := fun hmem => hother (halone session hmem)
  refine hrest.invariant (I := fun account => session ∉ account.sessions)
    (fun move hmove s s' hs hmay hmem => ?_)
    (fun e _ s hs hmem => hs (h.isAccount.sessions _ _ session hmem)) hout hin
  cases hmay with
  | signIn =>
    rcases List.mem_cons.mp hmem with rfl | hmem
    · exact hnone ⟨_, hmove⟩
    · exact hs hmem
  | add => exact hs (sessions_add _ _ ▸ hmem)
  | lose _ hsessions => exact hs (hsessions session hmem)

end Whole

end Hooks

end WeaveAuth
