import Mathlib.Data.List.DropRight
import WeaveAuth.Bff.Callback

/-!
# Verifying an id_token

`Hydra::verify_id_token` of `bff/src/hydra/id_token.rs`, and what it takes from
`bff/src/hydra/mod.rs`. Parsing, signatures, claims and hashes are other crates' code and are given
as an `OpenIdConnect`; so are the keys that the JWKS cache finds.

## Main results

* `accepted_of_verifyIdToken`: what is known of an id_token that verified

## What is assumed

Nothing: `OpenIdConnect.claims` may accept whatever it likes. Where a theorem needs that a token
which verifies names who signed in, it says so of this function (`LoginProtocol`). The issuer is
read from the token before anything of it is verified; it is compared with bff's own first, and then
given to the verifier, which compares it with the token's again.
-/

namespace WeaveAuth

namespace Bff

/-- What a verified id_token claims, as far as bff asks. -/
structure IdTokenClaims where
  subject : String
  /-- The `at_hash`, when there is one. -/
  accessTokenHash : Option String

/-- What bff calls of `openidconnect`, `base64`, `serde_json` and `uuid`. -/
structure OpenIdConnect (Token Keys : Type) where
  /-- `CoreIdToken::from_str`. -/
  fromStr : String → Except String Token
  /-- A part of a compact JWS, decoded from base64url and read as JSON. -/
  decodePart : String → Option Json
  /-- `IssuerUrl::new` takes it. -/
  isIssuerUrl : String → Bool
  /-- `claims`, with a verifier for the client, the issuer and the keys: the claims of a token that
  is signed with one of the keys, comes from the issuer, is for the client, has not expired and
  carries the nonce. -/
  claims : Token → (clientId issuer : String) → Keys → (nonce : String) →
    Except String IdTokenClaims
  /-- `AccessTokenHash::from_token`, with the algorithm and the key the token was signed with. -/
  accessTokenHash : Token → (clientId issuer : String) → Keys → (accessToken : String) →
    Except String String
  /-- `Uuid::parse_str`. -/
  parseStr : String → Option Uuid

/-- Two issuers that differ at most by trailing slashes. -/
def sameIssuer (a b : String) : Bool :=
  a.toList.rdropWhile (· = '/') == b.toList.rdropWhile (· = '/')

section Verify

variable {Token Keys : Type} (openId : OpenIdConnect Token Keys)

/-- Part `index` of a compact JWS, decoded without verifying anything. -/
def unverifiedPart (token : String) (index : ℕ) : Option Json :=
  ((token.toList.splitOn '.')[index]?).bind fun part => openId.decodePart (String.ofList part)

/-- A text among the claims of a token that nobody has verified. -/
def unverifiedText (payload : Option Json) (name : String) : Option String :=
  (payload.bind fun claims => claims.get name).bind Json.asStr

def jwsKid (token : String) : Option String := unverifiedText (unverifiedPart openId token 0) "kid"

/-- The check of the `at_hash` against the access token; there is none without an `at_hash`. -/
def checkAccessTokenHash (idToken : Token) (clientId issuer : String) (keys : Keys)
    (accessToken : String) : Option String → Except IdTokenError Unit
  | none => .ok ()
  | some expected =>
    match openId.accessTokenHash idToken clientId issuer keys accessToken with
    | .error cause => .error (.accessTokenHashUnchecked cause)
    | .ok actual => if actual ≠ expected then .error .accessTokenHashMismatch else .ok ()

variable (publicUrl clientId : String) (keysFor : Option String → Except JwksError Keys)

def verifyIdToken (raw accessToken nonce : String) : Except IdTokenError VerifiedIdToken :=
  match openId.fromStr raw with
  | .error cause => .error (.malformed cause)
  | .ok idToken =>
    match keysFor (jwsKid openId raw) with
    | .error error => .error (.keys error)
    | .ok keys =>
      -- Hydra's `iss` may differ from the configured URL by a trailing `/`, and the verifier
      -- compares it exactly, so it is given the token's own.
      let payload := unverifiedPart openId raw 1
      let issuer := (unverifiedText payload "iss").getD ""
      if !sameIssuer issuer publicUrl then .error (.wrongIssuer issuer)
      else if !openId.isIssuerUrl issuer then .error (.wrongIssuer issuer)
      else
        match openId.claims idToken clientId issuer keys nonce with
        | .error cause => .error (.verification cause)
        | .ok claims =>
          match checkAccessTokenHash openId idToken clientId issuer keys accessToken
              claims.accessTokenHash with
          | .error error => .error error
          | .ok () =>
            match openId.parseStr claims.subject with
            | none => .error .subjectNotAUuid
            | some userId => .ok ⟨userId, unverifiedText payload "sid"⟩

/-- The id_token is one of Hydra's, for bff, with this nonce and for this access token, and says
this of who logged in. -/
def AcceptedIdToken (raw accessToken nonce : String) (verified : VerifiedIdToken) : Prop :=
  ∃ idToken keys issuer claims, openId.fromStr raw = .ok idToken ∧
    keysFor (jwsKid openId raw) = .ok keys ∧ sameIssuer issuer publicUrl = true ∧
    openId.claims idToken clientId issuer keys nonce = .ok claims ∧
    (∀ expected, claims.accessTokenHash = some expected →
      openId.accessTokenHash idToken clientId issuer keys accessToken = .ok expected) ∧
    openId.parseStr claims.subject = some verified.userId ∧
    verified.sid = unverifiedText (unverifiedPart openId raw 1) "sid"

theorem accessTokenHash_of_check {idToken : Token} {clientId issuer : String} {keys : Keys}
    {accessToken : String} {hash : Option String}
    (h : checkAccessTokenHash openId idToken clientId issuer keys accessToken hash = .ok ()) :
    ∀ expected, hash = some expected →
      openId.accessTokenHash idToken clientId issuer keys accessToken = .ok expected := by
  rintro expected rfl
  rw [checkAccessTokenHash] at h
  split at h
  · cases h
  · next actual hactual =>
    split at h
    · cases h
    · next heq => rw [hactual, not_ne_iff.mp heq]

/-- **What verified is accepted.** -/
theorem accepted_of_verifyIdToken {raw accessToken nonce : String} {verified : VerifiedIdToken}
    (h : verifyIdToken openId publicUrl clientId keysFor raw accessToken nonce = .ok verified) :
    AcceptedIdToken openId publicUrl clientId keysFor raw accessToken nonce verified := by
  rw [verifyIdToken] at h
  split at h
  · cases h
  · next idToken hidToken =>
    split at h
    · cases h
    · next keys hkeys =>
      dsimp only at h
      split_ifs at h with hissuer hurl
      split at h
      · cases h
      · next claims hclaims =>
        split at h
        · cases h
        · next hcheck =>
          split at h
          · cases h
          · next userId huser =>
            cases h
            exact ⟨idToken, keys, _, claims, hidToken, hkeys, by simpa using hissuer, hclaims,
              accessTokenHash_of_check openId hcheck, huser, rfl⟩

end Verify

end Bff

end WeaveAuth
