import WeaveAuth.Hooks.Kratos
import WeaveAuth.Hooks.Webhook

/-!
# The token hook

`hooks/src/server/api/token_hook.rs`: what Hydra asks before it signs a token.

Each upstream may answer anything: a run is told by one function from the calls to their answers,
of which the program makes at most two.

## Main results

* `issueClaims_eq_ok`: exactly when claims are issued, and which
* `status_of_error`: a refusal is a 403 or a 502

## Scope

Every answer of every upstream, each once: the program never asks the same thing twice, so a
function from calls to answers is as general as any server. The limit on a response's size is
`readLimited`'s. The log lines are left out.
-/

namespace WeaveAuth

namespace Hooks

open Bff (Json Uuid)
open Program

/-! ### Claims -/

/-- `Map<String, Value>`, whose keys are distinct. -/
abbrev Claims := List (String × Json)

namespace Claims

/-- `Map::get`. -/
def get (claims : Claims) (name : String) : Option Json :=
  (claims.find? fun claim => claim.1 = name).map Prod.snd

/-- `Map::insert`. -/
def insert (claims : Claims) (name : String) (value : Json) : Claims :=
  claims.filter (fun claim => claim.1 ≠ name) ++ [(name, value)]

end Claims

inductive TokenHookServiceError where
  | invalidSubject
  | identityNotFound
  | identityLookupFailed (error : UpstreamError)
  | identityInactive
  | identityWithoutEmail
  | emailNotVerified
  | downstreamServiceFailed (error : WebhookError)
  | reservedClaimOverridden (name : String)

/-- The status of the answer to Hydra. -/
def TokenHookServiceError.status : TokenHookServiceError → ℕ
  | .identityLookupFailed _ | .downstreamServiceFailed _ => 502
  | .invalidSubject | .identityNotFound | .identityInactive | .identityWithoutEmail
  | .emailNotVerified | .reservedClaimOverridden _ => 403

/-- Claim names a login-claims handler must not set. -/
def reservedClaimNames : List String :=
  ["iss", "sub", "aud", "exp", "nbf", "iat", "jti", "email", "email_verified", "scp", "client_id",
    "ext", "sid", "nonce", "auth_time", "acr", "amr", "at_hash", "c_hash", "rat", "scope", "azp",
    "cnf", "act", "may_act", "typ", "token_use"]

structure IssuedClaims where
  accessToken : Claims
  idToken : Claims

def rejectReserved (claims : Claims) : Except TokenHookServiceError Unit :=
  match (claims.map Prod.fst).find? fun key => reservedClaimNames.contains key with
  | some reserved => .error (.reservedClaimOverridden reserved)
  | none => .ok ()

/-- The claims that hooks sets itself. -/
def setEmail (email : String) (emailVerified : Bool) (claims : Claims) : Claims :=
  (claims.insert "email" (.str email)).insert "email_verified" (.bool emailVerified)

variable (state : AppState)

/-- The identity of the subject. -/
def lookUp (userId : Uuid) : Calls (Except TokenHookServiceError Identity) := do
  let result ← KratosAdmin.getIdentity state.crates userId false
  return result.mapError fun error =>
    if error.isNotFound then .identityNotFound else .identityLookupFailed error

/-- The claims of the handler, if there is one. -/
def handlerClaims (userId : Uuid) (email : String) (emailVerified : Bool) (clientId : String)
    (scopes : List String) : Calls (Except TokenHookServiceError Claims) :=
  if state.loginClaims then do
    let answer ← WebhookHandler.loginClaims state.crates userId email emailVerified clientId scopes
    return (answer.mapError .downstreamServiceFailed).bind fun claims =>
      (rejectReserved claims).map fun _ => claims
  else return .ok []

/-- `issue_claims`. -/
def issueClaims (subject clientId : String) (scopes : List String) :
    Calls (Except TokenHookServiceError IssuedClaims) :=
  match state.crates.parseStr subject with
  | none => return .error .invalidSubject
  | some userId =>
    (lookUp state userId).andThen fun identity =>
      if !identity.isActive then return .error .identityInactive
      else
        match identity.email with
        | none => return .error .identityWithoutEmail
        | some email =>
          let emailVerified := identity.emailVerified
          if state.requireVerifiedEmail && !emailVerified then return .error .emailNotVerified
          else
            (handlerClaims state userId email emailVerified clientId scopes).andThen fun claims =>
            return .ok ⟨setEmail email emailVerified claims, setEmail email emailVerified []⟩

/-! ### When claims are issued -/

theorem status_of_error (error : TokenHookServiceError) :
    error.status = 403 ∨ error.status = 502 := by
  cases error <;> simp [TokenHookServiceError.status]

theorem rejectReserved_eq_ok {claims : Claims} :
    rejectReserved claims = .ok () ↔ ∀ name ∈ reservedClaimNames, name ∉ claims.map Prod.fst := by
  unfold rejectReserved
  split
  · next reserved hfind =>
    have hmem := List.mem_of_find?_eq_some hfind
    have hreserved := List.contains_iff_mem.mp (List.find?_some hfind)
    simp only [reduceCtorEq, false_iff, not_forall, not_not]
    exact ⟨reserved, hreserved, hmem⟩
  · next hfind =>
    simp only [true_iff]
    intro name hname hmem
    exact List.find?_eq_none.mp hfind name hmem (List.contains_iff_mem.mpr hname)

/-- A claim that is not there yet comes last. -/
theorem Claims.insert_eq {claims : Claims} {name : String} (h : name ∉ claims.map Prod.fst)
    (value : Json) : claims.insert name value = claims ++ [(name, value)] := by
  have hall : claims.filter (fun claim => claim.1 ≠ name) = claims := by
    refine List.filter_eq_self.mpr fun claim hclaim => ?_
    simp only [ne_eq, decide_eq_true_eq]
    rintro rfl
    exact h (List.mem_map_of_mem hclaim)
  rw [Claims.insert, hall]

theorem setEmail_eq {email : String} {emailVerified : Bool} {claims : Claims}
    (h : ∀ name ∈ reservedClaimNames, name ∉ claims.map Prod.fst) :
    setEmail email emailVerified claims =
      claims ++ [("email", .str email), ("email_verified", .bool emailVerified)] := by
  have hemail : "email" ∉ claims.map Prod.fst := h _ (by decide)
  have hverified : "email_verified" ∉ (claims ++ [("email", Json.str email)]).map Prod.fst := by
    rw [List.map_append, List.mem_append, not_or]
    exact ⟨h _ (by decide), by simp⟩
  rw [setEmail, Claims.insert_eq hemail, Claims.insert_eq hverified, List.append_assoc]
  rfl

variable {state}

theorem lookUp_eq_ok {userId : Uuid} {identity : Identity} (answer : (c : Call) → c.Answer) :
    (lookUp state userId).eval answer = .ok identity ↔
      (answer (.getIdentity userId false)).Shows (Identity.fromJson state.crates) identity := by
  rw [← KratosAdmin.eval_getIdentity, lookUp, eval_bind]
  cases (KratosAdmin.getIdentity state.crates userId false).eval answer <;>
    simp [Except.mapError]

theorem checked_claims_eq_ok {answer : Except WebhookError Claims} {claims : Claims} :
    ((answer.mapError TokenHookServiceError.downstreamServiceFailed).bind fun claims =>
        (rejectReserved claims).map fun _ => claims) = .ok claims ↔
      answer = .ok claims ∧ rejectReserved claims = .ok () := by
  cases answer with
  | error error => simp [Except.mapError, Except.bind]
  | ok found =>
    simp only [Except.mapError, Except.bind, Except.ok.injEq]
    constructor
    · intro h
      cases hreject : rejectReserved found with
      | error error =>
        rw [hreject] at h
        cases h
      | ok =>
        rw [hreject] at h
        obtain rfl := Except.ok.inj h
        exact ⟨rfl, hreject⟩
    · rintro ⟨rfl, hreject⟩
      rw [hreject]
      rfl

/-- The handler's answer gives these claims, or there is no handler and none. -/
def HandlerGives (state : AppState) (payload : Json) (answer : (c : Call) → c.Answer)
    (claims : Claims) : Prop :=
  if state.loginClaims then
    (answer (.webhook .loginClaims payload)).ShowsObject state.crates claims ∧
      (answer (.webhook .loginClaims payload)).WithinLimit ∧
      ∀ name ∈ reservedClaimNames, name ∉ claims.map Prod.fst
  else claims = []

theorem HandlerGives.not_reserved {payload : Json} {answer : (c : Call) → c.Answer}
    {claims : Claims} (h : HandlerGives state payload answer claims) :
    ∀ name ∈ reservedClaimNames, name ∉ claims.map Prod.fst := by
  unfold HandlerGives at h
  split_ifs at h
  · exact h.2.2
  · subst h
    exact fun _ _ => List.not_mem_nil

theorem handlerClaims_eq_ok {userId : Uuid} {email clientId : String} {emailVerified : Bool}
    {scopes : List String} {claims : Claims} (answer : (c : Call) → c.Answer) :
    (handlerClaims state userId email emailVerified clientId scopes).eval answer = .ok claims ↔
      HandlerGives state
        (WebhookHandler.loginClaimsPayload state.crates userId email emailVerified clientId scopes)
        answer claims := by
  unfold handlerClaims HandlerGives
  split_ifs
  · rw [← and_assoc, ← @WebhookHandler.claims_eq_ok state.crates "login-claims",
      ← rejectReserved_eq_ok, eval_bind]
    exact checked_claims_eq_ok
  · simp [eq_comm]

/-- **When claims are issued.** The subject is an identity's id, Kratos shows that identity, active
and with an address that is verified or need not be, and the handler, if there is one, answers
within the size limit with an object that has no reserved member. -/
theorem issueClaims_eq_ok (state : AppState) (subject clientId : String) (scopes : List String)
    (answer : (c : Call) → c.Answer) (claims : IssuedClaims) :
    (issueClaims state subject clientId scopes).eval answer = .ok claims ↔
      ∃ userId identity email verified members,
        state.crates.parseStr subject = some userId ∧
        (answer (.getIdentity userId false)).Shows (Identity.fromJson state.crates) identity ∧
        identity.state = some "active" ∧
        identity.traits.get "email" = some (.str email) ∧
        (verified = true ↔ identity.HasVerified email) ∧
        (verified = true ∨ state.requireVerifiedEmail = false) ∧
        HandlerGives state
          (WebhookHandler.loginClaimsPayload state.crates userId email verified clientId scopes)
          answer members ∧
        claims.accessToken =
          members ++ [("email", .str email), ("email_verified", .bool verified)] ∧
        claims.idToken = [("email", .str email), ("email_verified", .bool verified)] := by
  unfold issueClaims
  constructor
  · intro h
    split at h
    · cases h
    · next userId hparse =>
      obtain ⟨identity, hlook, h⟩ := (eval_andThen_ok answer).mp h
      have hshows := (lookUp_eq_ok answer).mp hlook
      split at h
      · cases h
      · next hactive =>
        split at h
        · cases h
        · next email hemail =>
          dsimp only at h
          split at h
          · cases h
          · next hverified =>
            obtain ⟨members, hmembers, h⟩ := (eval_andThen_ok answer).mp h
            obtain rfl := Except.ok.inj h
            have hgives := (handlerClaims_eq_ok answer).mp hmembers
            refine ⟨userId, identity, email, identity.emailVerified, members, hparse, hshows, ?_,
              identity.email_eq_some.mp hemail, identity.emailVerified_iff hemail, ?_, hgives,
              setEmail_eq hgives.not_reserved, setEmail_eq (fun _ _ => List.not_mem_nil)⟩
            · simpa [Identity.isActive] using hactive
            · cases hrequire : state.requireVerifiedEmail with
              | false => exact Or.inr rfl
              | true => exact Or.inl (by simpa [hrequire] using hverified)
  · rintro ⟨userId, identity, email, verified, members, hparse, hshows, hactive, hemail, hverified,
      hrequired, hgives, haccess, hid⟩
    have hemail := identity.email_eq_some.mpr hemail
    obtain rfl : identity.emailVerified = verified :=
      Bool.eq_iff_iff.mpr ((identity.emailVerified_iff hemail).trans hverified.symm)
    have hclaims : claims = ⟨setEmail email identity.emailVerified members,
        setEmail email identity.emailVerified []⟩ := by
      rw [setEmail_eq hgives.not_reserved, setEmail_eq fun _ _ => List.not_mem_nil, ← haccess,
        List.nil_append, ← hid]
    rw [hparse]
    refine (eval_andThen_ok answer).mpr ⟨identity, (lookUp_eq_ok answer).mpr hshows, ?_⟩
    have hnot : (!identity.isActive) = false := by simpa [Identity.isActive] using hactive
    rw [hnot, if_neg Bool.false_ne_true, hemail]
    dsimp only
    have hpass : (state.requireVerifiedEmail && !identity.emailVerified) = false := by
      rcases hrequired with hrequired | hrequired <;> simp [hrequired]
    rw [hpass, if_neg Bool.false_ne_true, hclaims]
    exact (eval_andThen_ok answer).mpr ⟨members, (handlerClaims_eq_ok answer).mpr hgives, rfl⟩

/-! ### An answer over the limit -/

/-- What is white space around an empty object, and nothing else, is read. -/
def blankFromSlice (bytes : List ℕ) : Option Json :=
  if bytes.filter (· ≠ 0x20) = [0x7B, 0x7D] then some (.obj []) else none

def mintingState : AppState where
  crates :=
    { parseStr := fun text => if text = "11111111-1111-1111-1111-111111111111" then
        some 0x11111111111111111111111111111111 else none
      uuidText := fun _ => "11111111-1111-1111-1111-111111111111"
      fromSlice := blankFromSlice
      syntaxText := fun _ => "expected value"
      valueText := fun _ => ""
      pointer := fun _ _ => none
      parseUrl := fun _ => none
      mismatch := fun _ => "invalid type"
      statusText := toString
      durationText := toString }
  registration := false
  loginClaims := true
  profileApis := []
  requestTimeout := fromSecs 30
  requireVerifiedEmail := true

def mintingIdentity : Json :=
  .obj [("id", .str "11111111-1111-1111-1111-111111111111"), ("schema_id", .str "default"),
    ("state", .str "active"), ("traits", .obj [("email", .str "a@b.c")]),
    ("verifiable_addresses", .arr [.obj [("value", .str "a@b.c"), ("verified", .bool true)]])]

/-- An empty object and so many spaces. -/
def padded (blanks : ℕ) : StreamedReply :=
  .response 200 (some (2 + blanks)) [[0x7B, 0x7D], List.replicate blanks 0x20] none

def mintingAnswer : (c : Call) → c.Answer
  | .webhook _ _ => padded maxResponseBytes
  | .profileApis _ _ => []
  | .getIdentity _ _ => .response 200 (.ok mintingIdentity)
  | .replaceIdentity _ _ | .deleteIdentity _ | .deleteOidcLink _ _ | .deleteCredential _ _
  | .removePasskey _ | .listSessions _ | .revokeSession _ | .revokeAllSessions _
  | .revokeConsentSessions _ | .revokeLoginSessions _ | .revokeInBff _ => .failed "not called"

theorem showsObject_padded (blanks : ℕ) : (padded blanks).ShowsObject mintingState.crates [] := by
  refine ⟨rfl, rfl, if_pos ?_⟩
  show [[0x7B, 0x7D], List.replicate blanks 0x20].flatten.filter (· ≠ 0x20) = [0x7B, 0x7D]
  simp

/-- A handler's 2xx with an object without a reserved member, over the limit, gives no claims. -/
theorem issueClaims_oversized : ∃ identity : Identity,
    Reply.Shows (Identity.fromJson mintingState.crates) identity
        (mintingAnswer (.getIdentity 0x11111111111111111111111111111111 false)) ∧
      identity.state = some "active" ∧ identity.traits.get "email" = some (.str "a@b.c") ∧
      identity.HasVerified "a@b.c" ∧
      (∀ payload,
        (mintingAnswer (.webhook .loginClaims payload)).ShowsObject mintingState.crates []) ∧
      ∀ claims, (issueClaims mintingState "11111111-1111-1111-1111-111111111111" "app" []).eval
        mintingAnswer ≠ .ok claims := by
  refine ⟨⟨0x11111111111111111111111111111111, "default", some "active",
    .obj [("email", .str "a@b.c")], [⟨"a@b.c", true⟩], .null, .null, []⟩, ⟨rfl, rfl⟩, rfl, rfl,
    ⟨_, List.mem_singleton_self _, rfl, by decide +kernel⟩, fun _ => showsObject_padded _,
    fun claims h => ?_⟩
  have herror : (issueClaims mintingState "11111111-1111-1111-1111-111111111111" "app" []).eval
      mintingAnswer = .error (.downstreamServiceFailed
        (.body "login-claims" "an answer within the size limit")) := rfl
  rw [herror] at h
  cases h

end Hooks

end WeaveAuth
