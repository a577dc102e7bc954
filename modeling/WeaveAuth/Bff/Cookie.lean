import WeaveAuth.ForMathlib.PercentEncoding
import WeaveAuth.Http
import WeaveAuth.Text

/-!
# Cookies

`bff/src/server/cookie.rs`.
-/

namespace WeaveAuth

namespace Bff

open Utf8 Percent

/-- The bytes that `COOKIE_VALUE` encodes: all but the unreserved characters. -/
def cookieValue (b : ℕ) : Bool :=
  !((0x30 ≤ b && b ≤ 0x39) || (0x41 ≤ b && b ≤ 0x5A) || (0x61 ≤ b && b ≤ 0x7A) ||
    b = 0x2D || b = 0x2E || b = 0x5F || b = 0x7E)

/-- The value of the cookie; none when it is missing or sent more than once. -/
def extractCookie (headers : HeaderMap) (cookieName : List Char) : Option (List Char) := do
  let value ← headers.get .cookie
  let cookieHeader ← value.toStr
  let values := (cookieHeader.splitOn ';').filterMap fun pair => do
    let (name, value) ← splitOnce '=' (trim pair)
    if name = cookieName then some (decodeLossy value) else none
  match values with
  | [value] => some value
  | _ => none

def buildCookie (name value path : List Char) (maxAgeSecs : ℤ) (secure : Bool) : List Char :=
  let value := (percentEncode cookieValue (encode value)).map Char.ofNat
  let secure := if secure then "; Secure".toList else []
  name ++ '=' :: value ++ "; HttpOnly; Path=".toList ++ path ++ "; SameSite=Lax".toList ++ secure ++
    "; Max-Age=".toList ++ (toString maxAgeSecs).toList

/-- A `Set-Cookie` value that immediately expires the cookie. -/
def clearCookie (name path : List Char) (secure : Bool) : List Char :=
  buildCookie name [] path 0 secure

end Bff

end WeaveAuth
