import WeaveAuth.Hooks.Upstream
import WeaveAuth.Text

/-!
# Kratos' admin API

`hooks/src/clients/kratos.rs`: the parts of an identity that hooks reads or writes back, and the
calls on it.

## Main results

* `Identity.emailVerified_iff`: the address in the traits is one that Kratos has verified
* `runs_getIdentity`, `runs_scramblePassword`, `runs_deleteOidcLink`, `runs_deleteCredential`,
  `runs_activeSessions`, `runs_revokeSession`, `runs_revokeAllSessions`: what each call sends, and
  what its success says

## What is left out

Of an identity the fields that hooks neither reads nor writes back. A call is what is sent: the
method, the path's parts and the body; how a URL is put together from the base is the same for all
of them.
-/

namespace WeaveAuth

namespace Hooks

open Bff (Json Uuid)

/-! ### Identities -/

structure VerifiableAddress where
  value : String
  verified : Bool

structure Credential where
  /-- What Kratos addresses the credential by; for `oidc`, one `provider:subject` per link. -/
  identifiers : List String
  config : Json

/-- The parts of a Kratos identity hooks reads or has to write back. -/
structure Identity where
  id : Uuid
  schemaId : String
  state : Option String
  traits : Json
  verifiableAddresses : List VerifiableAddress
  metadataPublic : Json
  metadataAdmin : Json
  credentials : List (String × Credential)

/-- `Value::is_null`. -/
def isNull : Json → Bool
  | .null => true
  | _ => false

/-- A derived `Deserialize` reads a structure's fields from an object by their names, each of which
may be there once, and from an array in their order. -/
def structFields (names : List String) : Json → Option (List (Option Json))
  | .obj members =>
    if ((members.map Prod.fst).filter (· ∈ names)).Nodup then
      some (names.map (Json.obj members).get)
    else none
  | .arr values =>
    if values.length ≤ names.length then
      some (values.map some ++ List.replicate (names.length - values.length) none)
    else none
  | _ => none

/-- A field of type `Option<String>` with a default. -/
def optionalString : Option Json → Option (Option String)
  | none | some .null => some none
  | some (.str text) => some (some text)
  | _ => none

/-- A field of a list type with a default. -/
def defaultedList {α : Type} (decode : Json → Option α) : Option Json → Option (List α)
  | none => some []
  | some (.arr values) => values.mapM decode
  | _ => none

namespace VerifiableAddress

def verifiedFromJson : Option Json → Option Bool
  | none => some false
  | some (.bool verified) => some verified
  | _ => none

def fromJson (json : Json) : Option VerifiableAddress := do
  match ← structFields ["value", "verified"] json with
  | [some (.str value), verified] => return ⟨value, ← verifiedFromJson verified⟩
  | _ => none

end VerifiableAddress

def Credential.fromJson (json : Json) : Option Credential := do
  match ← structFields ["identifiers", "config"] json with
  | [identifiers, config] =>
    return ⟨← defaultedList Json.asStr identifiers, config.getD .null⟩
  | _ => none

namespace Identity

def uuidFromJson (crates : Crates) (json : Json) : Option Uuid := json.asStr.bind crates.parseStr

/-- A map, for which the last member of a name counts: it comes first here. -/
def credentialsFromJson : Option Json → Option (List (String × Credential))
  | none => some []
  | some (.obj members) =>
    members.reverse.mapM fun member => return (member.1, ← Credential.fromJson member.2)
  | _ => none

def fromJson (crates : Crates) (json : Json) : Option Identity := do
  match ← structFields ["id", "schema_id", "state", "traits", "verifiable_addresses",
    "metadata_public", "metadata_admin", "credentials"] json with
  | [some id, some (.str schemaId), state, traits, addresses, metadataPublic, metadataAdmin,
      credentials] =>
    return {
      id := ← uuidFromJson crates id
      schemaId
      state := ← optionalString state
      traits := traits.getD .null
      verifiableAddresses := ← defaultedList VerifiableAddress.fromJson addresses
      metadataPublic := metadataPublic.getD .null
      metadataAdmin := metadataAdmin.getD .null
      credentials := ← credentialsFromJson credentials }
  | _ => none

variable (identity : Identity)

/-- Whether Kratos lets the identity sign in. -/
def isActive : Bool := identity.state = some "active"

def credential (credentialType : String) : Option Credential :=
  (identity.credentials.find? fun entry => entry.1 = credentialType).map Prod.snd

def hasCredential (credentialType : String) : Bool := (identity.credential credentialType).isSome

def email : Option String := (identity.traits.get "email").bind Json.asStr

/-- Whether the address in `traits.email` is one Kratos has verified. -/
def emailVerified : Bool :=
  match identity.email with
  | none => false
  | some email => identity.verifiableAddresses.any fun address =>
      address.verified && eqIgnoreAsciiCase address.value.toList email.toList

/-- The access token Kratos stored when `provider` signed this identity up. -/
def oidcAccessToken (provider : String) : Option String := do
  let credential ← identity.credential "oidc"
  let entries ← match ← credential.config.get "providers" with
    | .arr entries => some entries
    | _ => none
  let entry ← entries.find? fun entry => (entry.get "provider").bind Json.asStr = some provider
  let token ← (← entry.get "initial_access_token").asStr
  if token.isEmpty then none else some token

/-- The `provider:subject` identifier of each linked social login. -/
def oidcIdentifiers : List String :=
  ((identity.credential "oidc").map Credential.identifiers).getD []

/-- The `PUT` body that sets `password` and keeps everything else. -/
def withPassword (password : String) : Json :=
  let metadata := [("metadata_public", identity.metadataPublic),
    ("metadata_admin", identity.metadataAdmin)].filter fun entry => !isNull entry.2
  .obj ([("schema_id", .str identity.schemaId),
    ("state", .str "active"),
    ("traits", identity.traits),
    ("credentials", .obj [("password", .obj [("config", .obj [("password", .str password)])])])] ++
      metadata)

/-- The address is among those Kratos has verified, up to ASCII case. -/
def HasVerified (email : String) : Prop :=
  ∃ address ∈ identity.verifiableAddresses,
    address.verified = true ∧ eqIgnoreAsciiCase address.value.toList email.toList = true

theorem email_eq_some {email : String} :
    identity.email = some email ↔ identity.traits.get "email" = some (.str email) := by
  rw [Identity.email, Option.bind_eq_some_iff]
  constructor
  · rintro ⟨value, hget, hstr⟩
    cases value with
    | str text => rwa [← Option.some.inj hstr]
    | null => cases hstr
    | bool => cases hstr
    | int => cases hstr
    | float => cases hstr
    | arr => cases hstr
    | obj => cases hstr
  · intro hget
    exact ⟨_, hget, rfl⟩

/-- Only the address in the traits counts. -/
theorem emailVerified_iff {email : String} (h : identity.email = some email) :
    identity.emailVerified = true ↔ identity.HasVerified email := by
  simp only [emailVerified, h, List.any_eq_true, Bool.and_eq_true, HasVerified]

end Identity

/-! ### Calls -/

/-- Credential types the recovery purge removes besides the password and the OIDC links. -/
def purgedCredentialTypes : List String := ["webauthn", "passkey", "totp", "lookup_secret"]

namespace KratosAdmin

variable (crates : Crates)

def getIdentity (id : Uuid) (includeOidc : Bool) : Calls (Except UpstreamError Identity) := do
  let what := "kratos get identity"
  let reply ← Program.send (Call.getIdentity id includeOidc)
  return (checked what reply).bind (readJson crates (Identity.fromJson crates) what)

/-- Replaces the identity's password with one that `rand` gives, if the identity is active when it
is read again. -/
def scramblePassword (password : String) (id : Uuid) : Calls (Except UpstreamError Unit) :=
  let what := "kratos replace password"
  (getIdentity crates id false).andThen fun identity =>
    if identity.isActive then do
      let reply ← Program.send (Call.replaceIdentity identity.id (identity.withPassword password))
      return (checked what reply).map fun _ => ()
    else return .error (.inactive what)

/-- Unlinks one social login; one that is already gone is not an error. -/
def deleteOidcLink (id : Uuid) (identifier : String) : Calls (Except UpstreamError Unit) := do
  let reply ← Program.send (Call.deleteOidcLink id identifier)
  return ignoreNotFound (checked "kratos delete oidc link" reply)

/-- Deletes one credential type; an identity without it is not an error. -/
def deleteCredential (id : Uuid) (credentialType : String) :
    Calls (Except UpstreamError Unit) :=
  let what := "kratos delete credential"
  if credentialType = "passkey" then
    -- Kratos refuses to remove a passkey the identity does not have.
    (getIdentity crates id false).andThen fun identity =>
      if identity.hasCredential "passkey" then do
        let reply ← Program.send (Call.removePasskey id)
        return ignoreNotFound (checked what reply)
      else return .ok ()
  else do
    let reply ← Program.send (Call.deleteCredential id credentialType)
    return ignoreNotFound (checked what reply)

def sessionFromJson (json : Json) : Option Uuid := do
  match ← structFields ["id"] json with
  | [some id] => Identity.uuidFromJson crates id
  | _ => none

def sessionsFromJson : Json → Option (List Uuid)
  | .arr values => values.mapM (sessionFromJson crates)
  | _ => none

/-- Ids of the identity's active sessions (the first page). -/
def activeSessions (id : Uuid) : Calls (Except UpstreamError (List Uuid)) := do
  let what := "kratos list sessions"
  let reply ← Program.send (Call.listSessions id)
  return (checked what reply).bind (readJson crates (sessionsFromJson crates) what)

def revokeSession (sessionId : Uuid) : Calls (Except UpstreamError Unit) := do
  let reply ← Program.send (Call.revokeSession sessionId)
  return ignoreNotFound (checked "kratos revoke session" reply)

def revokeAllSessions (id : Uuid) : Calls (Except UpstreamError Unit) := do
  let reply ← Program.send (Call.revokeAllSessions id)
  return ignoreNotFound (checked "kratos revoke sessions" reply)

/-- Deleting an identity that is already gone is success. -/
def deleteIdentity (id : Uuid) : Calls (Except UpstreamError Unit) := do
  let reply ← Program.send (Call.deleteIdentity id)
  return ignoreNotFound (checked "kratos delete identity" reply)

end KratosAdmin

/-! ### What the calls do -/

/-- A reply that says which identity there is. -/
def Reply.Shows {α : Type} (decode : Json → Option α) (value : α) : Reply → Prop
  | .response status (.ok json) => isSuccess status = true ∧ decode json = some value
  | _ => False

theorem readJson_ok {α : Type} {crates : Crates} {decode : Json → Option α} {what what' : String}
    {reply : Reply} {value : α} :
    (checked what reply).bind (readJson crates decode what') = .ok value ↔
      reply.Shows decode value := by
  cases reply with
  | failed cause => simp [checked, Except.bind, Reply.Shows]
  | response status body =>
    simp only [checked]
    split_ifs with hsuccess
    · cases body with
      | error cause => simp [Except.bind, readJson, Reply.Shows]
      | ok json =>
        simp only [Except.bind, readJson, Reply.Shows, hsuccess, true_and]
        cases decode json <;> simp
    · cases body <;> simp [Except.bind, Reply.Shows, hsuccess]

namespace KratosAdmin

open Program

variable {crates : Crates} {id : Uuid} {t : List (Exchange Call Call.Answer)}

theorem runs_getIdentity {includeOidc : Bool} {identity : Identity} :
    Runs (getIdentity crates id includeOidc) t (.ok identity) ↔ ∃ reply : Reply,
      t = [⟨.getIdentity id includeOidc, reply⟩] ∧
        reply.Shows (Identity.fromJson crates) identity := by
  rw [getIdentity, runs_send]
  simp only [readJson_ok]

theorem eval_getIdentity {includeOidc : Bool} {identity : Identity}
    (answer : (c : Call) → c.Answer) :
    (getIdentity crates id includeOidc).eval answer = .ok identity ↔
      (answer (.getIdentity id includeOidc)).Shows (Identity.fromJson crates) identity :=
  readJson_ok

/-- The password was replaced, of an identity that was active right before. -/
def PasswordReplaced (crates : Crates) (password : String) (id : Uuid)
    (t : List (Exchange Call Call.Answer)) : Prop :=
  ∃ (read : Reply) (identity : Identity) (written : Reply),
    t = [⟨.getIdentity id false, read⟩,
      ⟨.replaceIdentity identity.id (identity.withPassword password), written⟩] ∧
    read.Shows (Identity.fromJson crates) identity ∧ identity.isActive = true ∧ written.Succeeded

theorem map_checked_ok {what : String} {reply : Reply} :
    ((checked what reply).map fun _ => ()) = .ok () ↔ reply.Succeeded := by
  rw [← checked_isOk]
  cases checked what reply <;> simp [Except.map]

theorem runs_scramblePassword {password : String} :
    Runs (scramblePassword crates password id) t (.ok ()) ↔
      PasswordReplaced crates password id t := by
  rw [scramblePassword, runs_andThen_ok]
  constructor
  · rintro ⟨identity, before, after, rfl, hget, hput⟩
    obtain ⟨read, rfl, hread⟩ := runs_getIdentity.mp hget
    split_ifs at hput with hactive
    · obtain ⟨written, rfl, hwritten⟩ := runs_send.mp hput
      exact ⟨read, identity, written, rfl, hread, hactive, map_checked_ok.mp hwritten⟩
    · cases (runs_done.mp hput).2
  · rintro ⟨read, identity, written, rfl, hread, hactive, hwritten⟩
    refine ⟨identity, [_], [_], rfl, runs_getIdentity.mpr ⟨read, rfl, hread⟩, ?_⟩
    rw [if_pos hactive, runs_send]
    exact ⟨written, rfl, map_checked_ok.mpr hwritten⟩

/-- What a deletion that answers success has sent. -/
theorem runs_ignoreNotFound {c : Call} (hc : Call.Answer c = Reply) {what : String} :
    Runs (send c >>= fun reply => pure (ignoreNotFound (checked what (cast hc reply)))) t (.ok ()) ↔
      ∃ reply : Call.Answer c, t = [⟨c, reply⟩] ∧ (cast hc reply).Gone := by
  rw [runs_send]
  simp only [ignoreNotFound_checked]

theorem runs_deleteOidcLink {identifier : String} :
    Runs (deleteOidcLink id identifier) t (.ok ()) ↔ ∃ reply : Reply,
      t = [⟨.deleteOidcLink id identifier, reply⟩] ∧ reply.Gone :=
  runs_ignoreNotFound (c := .deleteOidcLink id identifier) rfl

/-- The credential is deleted, or was not there. -/
def CredentialDeleted (crates : Crates) (id : Uuid) (credentialType : String)
    (t : List (Exchange Call Call.Answer)) : Prop :=
  if credentialType = "passkey" then
    ∃ (read : Reply) (identity : Identity), read.Shows (Identity.fromJson crates) identity ∧
      if identity.hasCredential "passkey" then
        ∃ reply : Reply, t = [⟨.getIdentity id false, read⟩, ⟨.removePasskey id, reply⟩] ∧
          reply.Gone
      else t = [⟨.getIdentity id false, read⟩]
  else ∃ reply : Reply, t = [⟨.deleteCredential id credentialType, reply⟩] ∧ reply.Gone

theorem runs_deleteCredential {credentialType : String} :
    Runs (deleteCredential crates id credentialType) t (.ok ()) ↔
      CredentialDeleted crates id credentialType t := by
  rw [deleteCredential, CredentialDeleted]
  split_ifs with hpasskey
  · rw [runs_andThen_ok]
    constructor
    · rintro ⟨identity, before, after, rfl, hget, hpatch⟩
      obtain ⟨read, rfl, hread⟩ := runs_getIdentity.mp hget
      refine ⟨read, identity, hread, ?_⟩
      split_ifs at hpatch ⊢ with hhas
      · obtain ⟨reply, rfl, hreply⟩ := (runs_ignoreNotFound (c := .removePasskey id) rfl).mp hpatch
        exact ⟨reply, rfl, hreply⟩
      · rw [(runs_done.mp hpatch).1, List.append_nil]
    · rintro ⟨read, identity, hread, h⟩
      split_ifs at h with hhas
      · obtain ⟨reply, rfl, hreply⟩ := h
        refine ⟨identity, [_], [_], rfl, runs_getIdentity.mpr ⟨read, rfl, hread⟩, ?_⟩
        rw [if_pos hhas]
        exact (runs_ignoreNotFound (c := .removePasskey id) rfl).mpr ⟨reply, rfl, hreply⟩
      · subst h
        refine ⟨identity, [_], [], rfl, runs_getIdentity.mpr ⟨read, rfl, hread⟩, ?_⟩
        rw [if_neg hhas]
        exact .done _
  · exact runs_ignoreNotFound (c := .deleteCredential id credentialType) rfl

theorem runs_activeSessions {sessions : List Uuid} :
    Runs (activeSessions crates id) t (.ok sessions) ↔ ∃ reply : Reply,
      t = [⟨.listSessions id, reply⟩] ∧ reply.Shows (sessionsFromJson crates) sessions := by
  rw [activeSessions, runs_send]
  simp only [readJson_ok]

theorem runs_revokeSession {sessionId : Uuid} :
    Runs (revokeSession sessionId) t (.ok ()) ↔ ∃ reply : Reply,
      t = [⟨.revokeSession sessionId, reply⟩] ∧ reply.Gone :=
  runs_ignoreNotFound (c := .revokeSession sessionId) rfl

theorem runs_revokeAllSessions :
    Runs (revokeAllSessions id) t (.ok ()) ↔ ∃ reply : Reply,
      t = [⟨.revokeAllSessions id, reply⟩] ∧ reply.Gone :=
  runs_ignoreNotFound (c := .revokeAllSessions id) rfl

end KratosAdmin

end Hooks

end WeaveAuth
