import WeaveAuth.Http

/-!
# Trusted origins

`require_trusted_origin` of `bff/src/server/origin_check.rs`. Parsing a URL is another crate's
code; what it says of a `Referer` is a function.

## Main results

* `requireTrustedOrigin_ok`: whose requests are let through

## What is assumed

Nothing of the browser. `Origin` and `Referer` are what a request says they are; that a page of
another origin cannot make a browser say otherwise is why the check is worth making, and is no part
of it.
-/

namespace WeaveAuth

namespace Bff

inductive OriginError where
  | missing
  | unreadable
  | untrusted (origin : List Char)
  deriving DecidableEq

/-- `asciiOrigin` is what `Url::parse` and `origin().ascii_serialization()` make of a text. -/
def requestOrigin (asciiOrigin : List Char → Option (List Char)) (headers : HeaderMap) :
    Except OriginError (List Char) :=
  match headers.get .origin with
  | some origin =>
    match origin.toStr with
    | none => .error .unreadable
    | some origin => .ok origin
  | none =>
    match (headers.get .referer).bind fun value => value.toStr.bind asciiOrigin with
    | none => .error .missing
    | some origin => .ok origin

def requireTrustedOrigin (asciiOrigin : List Char → Option (List Char))
    (trustedOrigins : List (List Char)) (headers : HeaderMap) : Except OriginError Unit :=
  match requestOrigin asciiOrigin headers with
  | .error error => .error error
  | .ok origin =>
    if trustedOrigins.any (· = origin) then .ok () else .error (.untrusted origin)

/-- A request is let through that names a trusted origin. -/
theorem requireTrustedOrigin_ok {asciiOrigin : List Char → Option (List Char)}
    {trustedOrigins : List (List Char)} {headers : HeaderMap} :
    requireTrustedOrigin asciiOrigin trustedOrigins headers = .ok () ↔
      ∃ origin ∈ trustedOrigins, requestOrigin asciiOrigin headers = .ok origin := by
  rw [requireTrustedOrigin]
  split
  · next error herror => simp [herror]
  · next origin horigin =>
    rw [horigin]
    by_cases hmem : origin ∈ trustedOrigins <;> simp [hmem]

end Bff

end WeaveAuth
