import WeaveAuth.ForMathlib.HashMap
import WeaveAuth.Hooks.Webhook

/-!
# Profile APIs

`hooks/src/profile_api.rs`: claims the provider's id_token doesn't carry, fetched from its APIs
with the access token Kratos stored at sign-up. The calls go out together and are one call here,
answered by what each of them gives, in the order of the entries.

## Main results

* `ProfileApi.select_eq_ok`: which entries are called

## Implementation notes

The calls to the entries go out together, so what one of them gives cannot depend on another's
answer, and a single call with a list for its answer says the same. `Value::pointer` is a function
of `serde_json`, and a parameter.
-/

namespace WeaveAuth

namespace Hooks

open Bff (Json)

inductive ProfileError where
  | consentRequired (scope : String)
  | failed (cause : String)
  deriving DecidableEq

/-- Scalars are stringified; objects, arrays and null have no field form. -/
def scalarToString (crates : Crates) : Json → Option String
  | .str value => some value
  | .bool value => some (crates.valueText (.bool value))
  | .int value => some (crates.valueText (.int value))
  | .float text => some (crates.valueText (.float text))
  | .null | .arr _ | .obj _ => none

/-- `ReadError`'s `Display`. -/
def ReadError.display : ReadError → String
  | .tooLarge => "the answer is over " ++ toString maxResponseBytes ++ " bytes"
  | .failed cause => "reading the answer failed: " ++ cause

/-- `HashMap::extend`. -/
def extend (fields found : HashMap String String) : HashMap String String :=
  found.pairs.foldl (fun fields field => fields.insert field.1 field.2) fields

/-- What a profile API call that succeeded found. -/
inductive ProfileApiFields where
  | complete (found : HashMap String String)
  /-- Some mapped pointer found nothing. -/
  | incomplete (found : HashMap String String) (missing : String)

namespace ProfileApi

def scopeGranted (granted : Option (List String)) (scope : String) : Bool :=
  granted.all (·.contains scope)

/-- The entries to call, decided before any call goes out. -/
def select (granted : Option (List String)) :
    List ProfileApiConfig → Except ProfileError (List ProfileApiConfig)
  | [] => .ok []
  | api :: apis =>
    match api.scope.filter fun scope => !scopeGranted granted scope with
    | some scope => if api.required then .error (.consentRequired scope) else select granted apis
    | none => (select granted apis).map (api :: ·)

variable (crates : Crates)

/-- Host and path of a configured URL, for messages. -/
def location (url : String) : String :=
  match crates.parseUrl url with
  | some (host, path) => host.getD "" ++ path
  | none => "an unparseable url"

/-- The fields that the pointers find, and the pointers that find none. -/
def readClaims (json : Json) (found : HashMap String String) (missing : List String) :
    List (String × String) → HashMap String String × List String
  | [] => (found, missing)
  | (field, pointer) :: claims =>
    match (crates.pointer json pointer).bind (scalarToString crates) with
    | some value => readClaims json (found.insert field value) missing claims
    | none => readClaims json found (missing ++ [pointer]) claims

/-- Key names only. -/
def keys : Json → String
  | .obj members => String.intercalate ", " (members.map Prod.fst)
  | _ => "not an object"

/-- What one configured profile API gives. An error is a failed call. -/
def fetchProfileApi (api : ProfileApiConfig) (reply : StreamedReply) :
    Except String ProfileApiFields :=
  let place := location crates api.url
  match reply with
  | .failed cause => .error ("request to " ++ place ++ " failed: " ++ cause)
  | .response status contentLength chunks broken =>
    if !isSuccess status then .error (place ++ " returned " ++ crates.statusText status)
    else
      match readLimited contentLength chunks broken with
      | .error error => .error ("reading " ++ place ++ " failed: " ++ error.display)
      | .ok body =>
        match crates.fromSlice body with
        | none => .error (place ++ " did not return valid JSON: " ++ crates.syntaxText body)
        | some json =>
          let (found, missing) := readClaims crates json ∅ [] api.claims
          if missing.isEmpty then .ok (.complete found)
          else .ok (.incomplete found (place ++ " has no value at " ++
            String.intercalate ", " missing ++ " (response keys: " ++ keys json ++ ")"))

/-- The fields of the results, of which a later one wins a clash. -/
def merge : List (ProfileApiConfig × Except String ProfileApiFields) → HashMap String String →
    Except ProfileError (HashMap String String)
  | [], fields => .ok fields
  | (api, .ok (.incomplete found missing)) :: results, fields =>
    if api.required then .error (.failed missing) else merge results (extend fields found)
  | (_, .ok (.complete found)) :: results, fields => merge results (extend fields found)
  | (api, .error cause) :: results, fields =>
    if api.required then .error (.failed cause) else merge results fields

/-- The calls, all at once. -/
def fetchAll (selected : List ProfileApiConfig) (accessToken : String) :
    Calls (List StreamedReply) :=
  if selected.isEmpty then return []
  else Program.send (Call.profileApis (selected.map (·.url)) accessToken)

/-- What the provider APIs of one sign-up yielded. -/
def collect (provider : String) (apis : List ProfileApiConfig) (accessToken : Option String)
    (granted : Option (List String)) : Calls (Except ProfileError (HashMap String String)) :=
  match select granted apis with
  | .error error => return .error error
  | .ok selected =>
    match accessToken with
    | none =>
      if selected.any (·.required) then
        return .error (.failed ("kratos holds no access token for provider '" ++ provider ++ "'"))
      else return .ok ∅
    | some accessToken => do
      let replies ← fetchAll selected accessToken
      return merge ((selected.zip replies).map fun entry =>
        (entry.1, fetchProfileApi crates entry.1 entry.2)) ∅

variable {crates : Crates} {provider : String} {apis selected : List ProfileApiConfig}
  {granted : Option (List String)}

/-- The scope of the entry, if it needs one, is among those that were granted, if they are known. -/
def Granted (granted : Option (List String)) (api : ProfileApiConfig) : Prop :=
  ∀ scope ∈ api.scope, ∀ scopes ∈ granted, scope ∈ scopes

instance (granted : Option (List String)) : DecidablePred (Granted granted) := fun api =>
  inferInstanceAs (Decidable (∀ scope ∈ api.scope, ∀ scopes ∈ granted, scope ∈ scopes))

theorem scopeGranted_iff {scope : String} :
    scopeGranted granted scope = true ↔ ∀ scopes ∈ granted, scope ∈ scopes := by
  cases granted <;> simp [scopeGranted]

theorem declined_eq_none {api : ProfileApiConfig} :
    (api.scope.filter fun scope => !scopeGranted granted scope) = none ↔ Granted granted api := by
  rw [Granted]
  cases api.scope with
  | none => simp
  | some scope =>
    simp only [Option.mem_some_iff, forall_eq', ← scopeGranted_iff]
    cases h : scopeGranted granted scope <;> simp [Option.filter, h]

/-- **The entries whose scope was granted are called, unless another one is required.** -/
theorem select_eq_ok : select granted apis = .ok selected ↔
    selected = apis.filter (Granted granted ·) ∧
      ∀ api ∈ apis, api.required = true → Granted granted api := by
  induction apis generalizing selected with
  | nil =>
    rw [select, Except.ok.injEq]
    exact ⟨fun h => ⟨h.symm, fun _ hmem => absurd hmem List.not_mem_nil⟩, fun h => h.1.symm⟩
  | cons api apis ih =>
    rw [select, List.forall_mem_cons]
    cases hdeclined : api.scope.filter fun scope => !scopeGranted granted scope with
    | none =>
      have hgranted := declined_eq_none.mp hdeclined
      rw [List.filter_cons_of_pos (by simpa using hgranted)]
      cases hrest : select granted apis with
      | error error =>
        simp only [Except.map, reduceCtorEq, false_iff]
        rintro ⟨-, -, hall⟩
        have hok := ih.mpr ⟨rfl, hall⟩
        rw [hrest] at hok
        cases hok
      | ok rest =>
        obtain ⟨rfl, hall⟩ := ih.mp hrest
        simp only [Except.map, Except.ok.injEq, hgranted, implies_true, true_and]
        exact ⟨fun h => ⟨h.symm, hall⟩, fun h => h.1.symm⟩
    | some scope =>
      have hnot : ¬Granted granted api := by
        rw [← declined_eq_none, hdeclined]
        exact Option.some_ne_none _
      rw [List.filter_cons_of_neg (by simpa using hnot)]
      cases hrequired : api.required <;> simp [ih, hnot]

open Program in
theorem onlyCalls_collect {accessToken : Option String} {P : Call → Prop}
    (h : ∀ urls token, P (.profileApis urls token)) :
    (collect crates provider apis accessToken granted).OnlyCalls P := by
  rw [collect]
  split
  · trivial
  · split
    · split <;> trivial
    · refine OnlyCalls.bind ?_ fun _ => trivial
      rw [fetchAll]
      split
      · trivial
      · exact onlyCalls_send (h _ _)

end ProfileApi

end Hooks

end WeaveAuth
