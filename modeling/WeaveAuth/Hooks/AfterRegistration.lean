import WeaveAuth.ForMathlib.Interleaving
import WeaveAuth.ForMathlib.Transition
import WeaveAuth.Hooks.ProfileApi
import WeaveAuth.Hooks.Revocation

/-!
# The after-registration hook

`hooks/src/server/api/after_registration.rs`, and several attempts for one identity: Kratos calls
the hook again when an attempt has failed or has taken too long for it.

## Main results

* `onlyCalls_collectAndForward`: what is called while the registration is under way
* `concludeRegistration_of_fails`, `concludeRegistration_of_not`: which registrations are undone

## Scope

One attempt as a program, which makes calls and ends with an answer, and which may be given up at
the end of its budget. How several attempts run beside each other is `RegistrationAttempts`' matter.
The identity, the profile APIs and the record that is sent are in `Kratos`, `ProfileApi` and
`Webhook`.
-/

namespace WeaveAuth

namespace Hooks

open Bff (Json Uuid)

/-- The body of Kratos's web hook. -/
structure AfterRegistrationRequest where
  identityId : Uuid
  email : String
  /-- Everything the registration form stored. -/
  traits : List (String × Json)
  /-- The OIDC provider for a social sign-up, absent (or empty) for a password one. -/
  provider : Option String
  grantedScopes : Option (List String)

inductive AfterRegistrationServiceError where
  | consentRequired (error : ProfileError)
  | profileApiFailed (error : ProfileError)
  | registrationRejected (error : WebhookError)
  | registrationHandlerFailed (error : WebhookError)
  | identityLookupFailed (error : UpstreamError)
  | identityGone
  | timedOut (budget : ℕ)
  deriving DecidableEq

/-- The status of the answer to Kratos, which retries a 5xx and not a 4xx. -/
def AfterRegistrationServiceError.status : AfterRegistrationServiceError → ℕ
  | .consentRequired _ | .profileApiFailed _ | .registrationRejected _ => 422
  | .registrationHandlerFailed _ | .identityLookupFailed _ => 502
  | .identityGone => 410
  | .timedOut _ => 504

/-- What `register` returns. -/
abbrev Registered : Type := Except AfterRegistrationServiceError Unit

section Service

variable (state : AppState)

/-- The identity, which an attempt that failed may have deleted. -/
def registeredIdentity (id : Uuid) (includeOidc : Bool) :
    Calls (Except AfterRegistrationServiceError Identity) := do
  let result ← KratosAdmin.getIdentity state.crates id includeOidc
  return result.mapError fun error =>
    if error.isNotFound then .identityGone else .identityLookupFailed error

/-- The traits but `email`, those with a field form. -/
def traitFields : List (String × Json) → HashMap String String → HashMap String String
  | [], fields => fields
  | (name, value) :: traits, fields =>
    if name = "email" then traitFields traits fields
    else
      match scalarToString state.crates value with
      | some text => traitFields traits (fields.insert name text)
      | none => traitFields traits fields

/-- What the provider's profile APIs return for a social sign-up. -/
def providerFields (provider : String) (apis : List ProfileApiConfig) (identity : Identity)
    (req : AfterRegistrationRequest) :
    Calls (Except AfterRegistrationServiceError (HashMap String String)) := do
  let result ← ProfileApi.collect state.crates provider apis (identity.oidcAccessToken provider)
    req.grantedScopes
  return result.mapError fun error =>
    match error with
    | .consentRequired _ => .consentRequired error
    | .failed _ => .profileApiFailed error

/-- Hands the fields to the deployer, if there is a handler. -/
def forward (req : AfterRegistrationRequest) (identity : Identity)
    (fields : HashMap String String) : Calls Registered :=
  if state.registration then do
    let result ← WebhookHandler.registration state.crates req.identityId req.email
      identity.emailVerified fields.pairs
    return result.mapError fun error =>
      if error.isRefusal then .registrationRejected error else .registrationHandlerFailed error
  else return .ok ()

/-- `HashMap::get` on the configuration. -/
def profileApisOf (provider : String) : Option (List ProfileApiConfig) :=
  (state.profileApis.find? fun entry => entry.1 = provider).map Prod.snd

/-- The fields of the form and of the provider. -/
def collectFields (provider : Option String) (apis : List ProfileApiConfig) (identity : Identity)
    (req : AfterRegistrationRequest) :
    Calls (Except AfterRegistrationServiceError (HashMap String String)) :=
  let fields := traitFields state req.traits ∅
  match provider.filter fun _ => !apis.isEmpty with
  | none => return .ok fields
  | some provider =>
    (providerFields state provider apis identity req).andThen fun found =>
      return .ok (extend fields found)

def collectAndForward (req : AfterRegistrationRequest) : Calls Registered :=
  let provider := req.provider.filter (· ≠ "")
  let apis := (provider.bind (profileApisOf state)).getD []
  if !state.registration && apis.isEmpty then return .ok ()
  else
    (registeredIdentity state req.identityId !apis.isEmpty).andThen fun identity =>
      (collectFields state provider apis identity req).andThen fun fields =>
        forward state req identity fields

/-- What `register` does once the work has ended or its budget is spent. A failed delete does not
replace the error. -/
def concludeRegistration (identityId : Uuid) (result : Registered) : Calls Registered :=
  match result with
  | .ok () | .error .identityGone => return result
  | .error _ => do
    let _ ← KratosAdmin.deleteIdentity identityId
    return result

end Service

/-! ### What is called -/

/-- The registration failed, of an identity that Kratos may still have. -/
def Fails (result : Registered) : Prop := ∃ error, result = .error error ∧ error ≠ .identityGone

theorem concludeRegistration_of_fails (id : Uuid) {result : Registered} (h : Fails result) :
    concludeRegistration id result = .call (.deleteIdentity id) fun _ => .done result := by
  obtain ⟨error, rfl, hne⟩ := h
  cases error with
  | identityGone => exact absurd rfl hne
  | _ => rfl

theorem concludeRegistration_of_not (id : Uuid) {result : Registered} (h : ¬Fails result) :
    concludeRegistration id result = .done result := by
  cases result with
  | ok => rfl
  | error error =>
    cases error with
    | identityGone => rfl
    | _ => exact absurd ⟨_, rfl, nofun⟩ h

/-- A call that collects or forwards. -/
def Call.Collects (id : Uuid) : Call → Prop
  | .getIdentity id' _ => id' = id
  | .profileApis _ _ | .webhook .registration _ => True
  | _ => False

open Program

variable {state : AppState} {id : Uuid}

theorem onlyCalls_collectFields {provider : Option String} {apis : List ProfileApiConfig}
    {identity : Identity} {req : AfterRegistrationRequest} :
    (collectFields state provider apis identity req).OnlyCalls (Call.Collects id) := by
  rw [collectFields]
  cases provider.filter fun _ => !apis.isEmpty with
  | none => trivial
  | some provider =>
    refine OnlyCalls.andThen (OnlyCalls.bind ?_ fun _ => trivial) fun _ => trivial
    exact ProfileApi.onlyCalls_collect fun _ _ => trivial

theorem onlyCalls_forward {req : AfterRegistrationRequest} {identity : Identity}
    {fields : HashMap String String} :
    (forward state req identity fields).OnlyCalls (Call.Collects id) := by
  rw [forward]
  split
  · exact ⟨trivial, fun _ => trivial⟩
  · trivial

/-- **The work reads its identity, and calls the provider's APIs and the handler.** -/
theorem onlyCalls_collectAndForward (req : AfterRegistrationRequest) :
    (collectAndForward state req).OnlyCalls (Call.Collects req.identityId) := by
  rw [collectAndForward]
  split
  · trivial
  · refine OnlyCalls.andThen ⟨rfl, fun _ => trivial⟩ fun identity => ?_
    exact onlyCalls_collectFields.andThen fun fields => onlyCalls_forward

end Hooks

end WeaveAuth
