import WeaveAuth.Hooks.Upstream

/-!
# The deployer's webhooks

`hooks/src/webhook.rs`: claims on every token, and the registration record.

## Main results

* `readLimited_eq_ok`: the bodies that are read
* `claims_eq_ok`: the answers that give claims

## What is left out

The timeout of a call, which is one of the reasons for which there is no answer, and the bodies that
are sent, as far as no check reads them. An answer's body arrives in chunks, and the limit is
checked before each is added, so how it is cut decides nothing but which error comes first.

## Implementation notes

A claims handler and the registration handler are posted to by one function (`post`), and differ in
what they are sent and in what is read of the answer. An answer that gives claims is an object;
which of its members may become claims is checked by the token hook, not here.
-/

namespace WeaveAuth

namespace Hooks

open Bff (Json Uuid)

/-- Most bytes read from a webhook or provider API answer. -/
def maxResponseBytes : ℕ := 1024 * 1024

/-- Why a webhook produced no answer. -/
inductive WebhookError where
  | request (what cause : String)
  | status (what : String) (status : ℕ)
  | body (what expected : String)
  deriving DecidableEq

/-- The endpoint answered and said no (400, 403 or 422). -/
def WebhookError.isRefusal : WebhookError → Bool
  | .status _ code => code = 400 || code = 403 || code = 422
  | _ => false

/-- Why an answer body could not be read. -/
inductive ReadError where
  | tooLarge
  | failed (cause : String)

/-- The chunks after those read. -/
def readChunks (broken : Option String) (body : List ℕ) :
    List (List ℕ) → Except ReadError (List ℕ)
  | [] =>
    match broken with
    | none => .ok body
    | some cause => .error (.failed cause)
  | chunk :: rest =>
    if maxResponseBytes < body.length + chunk.length then .error .tooLarge
    else readChunks broken (body ++ chunk) rest

/-- The whole body, refusing one over `maxResponseBytes` before it is held in memory. -/
def readLimited (contentLength : Option ℕ) (chunks : List (List ℕ)) (broken : Option String) :
    Except ReadError (List ℕ) :=
  if contentLength.any (maxResponseBytes < ·) then .error .tooLarge
  else readChunks broken [] chunks

theorem readChunks_eq_ok {broken : Option String} {body bytes : List ℕ} {chunks : List (List ℕ)}
    (hbody : body.length ≤ maxResponseBytes) :
    readChunks broken body chunks = .ok bytes ↔ broken = none ∧ bytes = body ++ chunks.flatten ∧
      (body ++ chunks.flatten).length ≤ maxResponseBytes := by
  induction chunks generalizing body with
  | nil => cases broken <;> simp [readChunks, hbody, eq_comm]
  | cons chunk rest ih =>
    simp only [readChunks]
    split_ifs with hlarge
    · simp only [List.flatten_cons, List.length_append, false_iff, not_and, not_le]
      omega
    · rw [ih (by rw [List.length_append]; omega), List.flatten_cons, List.append_assoc]

/-- **A body is read if it is whole and within the limit.** -/
theorem readLimited_eq_ok {contentLength : Option ℕ} {chunks : List (List ℕ)}
    {broken : Option String} {bytes : List ℕ} :
    readLimited contentLength chunks broken = .ok bytes ↔
      (∀ length ∈ contentLength, length ≤ maxResponseBytes) ∧ broken = none ∧
        bytes = chunks.flatten ∧ chunks.flatten.length ≤ maxResponseBytes := by
  unfold readLimited
  split_ifs with hlarge
  · obtain ⟨length, hlength, hlt⟩ := (Option.any_eq_true _ _).mp hlarge
    simp only [false_iff]
    rintro ⟨hle, -⟩
    exact absurd (hle length hlength) (not_le.mpr (of_decide_eq_true hlt))
  · rw [readChunks_eq_ok (Nat.zero_le _), List.nil_append]
    refine (and_iff_right fun length hlength => ?_).symm
    by_contra hlt
    exact hlarge ((Option.any_eq_true _ _).mpr ⟨length, hlength, decide_eq_true (not_le.mp hlt)⟩)

/-! ### Calls -/

/-- What is left of a response once its status is checked. -/
structure StreamedBody where
  contentLength : Option ℕ
  chunks : List (List ℕ)
  broken : Option String

namespace WebhookHandler

variable (crates : Crates)

/-- A response with any status but a 2xx is an error. -/
def checkedResponse (what : String) : StreamedReply → Except WebhookError StreamedBody
  | .failed cause => .error (.request what cause)
  | .response status contentLength chunks broken =>
    if isSuccess status then .ok ⟨contentLength, chunks, broken⟩ else .error (.status what status)

def post (handler : Handler) (what : String) (payload : Json) :
    Calls (Except WebhookError StreamedBody) := do
  let reply ← Program.send (Call.webhook handler payload)
  return checkedResponse what reply

/-- The answer's body as JSON. -/
def json (what : String) (body : StreamedBody) : Except WebhookError Json :=
  match readLimited body.contentLength body.chunks body.broken with
  | .error .tooLarge => .error (.body what "an answer within the size limit")
  | .error (.failed cause) => .error (.request what ("reading the answer failed: " ++ cause))
  | .ok bytes =>
    match crates.fromSlice bytes with
    | some value => .ok value
    | none => .error (.body what "valid JSON")

def loginClaimsPayload (userId : Uuid) (email : String) (emailVerified : Bool) (clientId : String)
    (scopes : List String) : Json :=
  .obj [("user_id", .str (crates.uuidText userId)), ("email", .str email),
    ("email_verified", .bool emailVerified), ("client_id", .str clientId),
    ("scopes", .arr (scopes.map .str))]

/-- The answer must be a JSON object. -/
def claimsOf (what : String) (body : StreamedBody) : Except WebhookError (List (String × Json)) :=
  match json crates what body with
  | .error error => .error error
  | .ok (.obj claims) => .ok claims
  | .ok _ => .error (.body what "a JSON object")

/-- The extra access token claims for `user_id`. -/
def loginClaims (userId : Uuid) (email : String) (emailVerified : Bool) (clientId : String)
    (scopes : List String) : Calls (Except WebhookError (List (String × Json))) := do
  let what := "login-claims"
  let body ← post .loginClaims what
    (loginClaimsPayload crates userId email emailVerified clientId scopes)
  return body.bind (claimsOf crates what)

def registrationPayload (userId : Uuid) (email : String) (emailVerified : Bool)
    (fields : List (String × String)) : Json :=
  .obj [("user_id", .str (crates.uuidText userId)), ("email", .str email),
    ("email_verified", .bool emailVerified),
    ("fields", .obj (fields.map fun field => (field.1, .str field.2)))]

/-- Hands a new identity and its registration fields to the deployer. -/
def registration (userId : Uuid) (email : String) (emailVerified : Bool)
    (fields : List (String × String)) : Calls (Except WebhookError Unit) := do
  let body ← post .registration "registration"
    (registrationPayload crates userId email emailVerified fields)
  return body.map fun _ => ()

end WebhookHandler

/-! ### What the answers mean -/

/-- A 2xx whose body is a JSON object with these members. -/
def StreamedReply.ShowsObject (crates : Crates) (members : List (String × Json)) :
    StreamedReply → Prop
  | .failed _ => False
  | .response status _ chunks broken =>
    isSuccess status = true ∧ broken = none ∧ crates.fromSlice chunks.flatten = some (.obj members)

/-- The size of the answer, announced or not, is within the limit. -/
def StreamedReply.WithinLimit : StreamedReply → Prop
  | .failed _ => True
  | .response _ contentLength chunks _ =>
    (∀ length ∈ contentLength, length ≤ maxResponseBytes) ∧
      chunks.flatten.length ≤ maxResponseBytes

namespace WebhookHandler

variable {crates : Crates}

theorem claimsOf_eq_ok {what : String} {body : StreamedBody} {members : List (String × Json)} :
    claimsOf crates what body = .ok members ↔ ∃ bytes,
      readLimited body.contentLength body.chunks body.broken = .ok bytes ∧
        crates.fromSlice bytes = some (.obj members) := by
  rw [claimsOf, json]
  rcases readLimited body.contentLength body.chunks body.broken with (_ | cause) | bytes
  · simp
  · simp
  · cases hparse : crates.fromSlice bytes with
    | none => simp [hparse]
    | some value => cases value <;> simp [hparse]

/-- **The answers that give claims.** -/
theorem claims_eq_ok {what : String} {reply : StreamedReply} {members : List (String × Json)} :
    (checkedResponse what reply).bind (claimsOf crates what) = .ok members ↔
      reply.ShowsObject crates members ∧ reply.WithinLimit := by
  cases reply with
  | failed cause => simp [checkedResponse, Except.bind, StreamedReply.ShowsObject]
  | response status contentLength chunks broken =>
    simp only [checkedResponse, StreamedReply.ShowsObject, StreamedReply.WithinLimit]
    split_ifs with hsuccess
    · simp only [Except.bind, claimsOf_eq_ok, readLimited_eq_ok]
      constructor
      · rintro ⟨bytes, ⟨hannounced, hwhole, rfl, hsize⟩, hparse⟩
        exact ⟨⟨hsuccess, hwhole, hparse⟩, hannounced, hsize⟩
      · rintro ⟨⟨-, hwhole, hparse⟩, hannounced, hsize⟩
        exact ⟨_, ⟨hannounced, hwhole, rfl, hsize⟩, hparse⟩
    · simp [Except.bind, hsuccess]

end WebhookHandler

end Hooks

end WeaveAuth
