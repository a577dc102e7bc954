import WeaveAuth.Bff.Redirects
import WeaveAuth.Login.ThrottleWait
import WeaveAuth.Login.Upstream

/-!
# The pages

`login/src/pages.rs`, from the request to the response, and `Renderer::page` of
`login/src/render.rs`. The templates are rendered by another crate, from a context.

## Main results

* `runs_flowPage`: what Kratos is asked for a page, and what the browser gets
* `page_destinations`: every place that a page sends the browser to
* `challenge_carried`: from page to page, a challenge stays what it was

## Scope

A page is a program, so the theorems are about every run, and about every answer of Kratos. A
template is rendered from its context by another crate, which may fail; then the page is an error.

## Implementation notes

`Location` is a header, so a destination that could not be one would not be sent:
`visible_startLocation` and its like show that these can. What a challenge goes through from page to
page is written by `form_urlencoded` and read by it again.
-/

namespace WeaveAuth

namespace Login

open Bff (Json headerValue nosniff noStore queryField)
open FormUrlencoded (serialize)
open Program (Runs)
open Url (IsSpecialUrl)

/-- What a template is rendered with. -/
abbrev Context := HashMap String Json

/-- What the pages read of the state, and the code they call. The HTTP client sends nothing but to
web servers, so the bases are URLs of such. -/
structure AppState where
  crates : Crates
  kratos : Kratos
  hydra : Hydra
  kratosBase : IsSpecialUrl kratos.base
  hydraBase : IsSpecialUrl hydra.base
  bffUrl : String
  bffClientId : String
  defaultRedirectUri : Option String
  /-- `Catalog::negotiate`. -/
  negotiate : HeaderMap → String
  /-- `Tera::render`. -/
  render : String → Context → Option (List Char)
  /-- A page's nonce: a new UUID. -/
  nonce : String

/-! ### Responses -/

def plainText : HeaderValue := headerValue "text/plain; charset=utf-8" (by decide +kernel)

def html : HeaderValue := headerValue "text/html; charset=utf-8" (by decide +kernel)

/-- What the language was negotiated by. -/
def negotiatedBy : HeaderValue := headerValue "Accept-Language, Cookie" (by decide +kernel)

/-- `Redirect::to`. -/
def redirectTo (location : List Char) : Response (List Char) :=
  match HeaderValue.ofStr location with
  | some value => ⟨303, (∅ : HeaderMap).insert .location value, []⟩
  | none => ⟨500, (∅ : HeaderMap).insert .contentType plainText,
      "failed to parse header value".toList⟩

def pageContentSecurityPolicy (nonce : String) : HeaderValue :=
  let csp := "default-src 'none'; script-src 'nonce-" ++ nonce ++ "'; style-src 'self'; " ++
    "img-src 'self' data:; font-src 'self'; connect-src 'self'; base-uri 'none'; " ++
    "frame-ancestors 'none'"
  (HeaderValue.ofStr csp.toList).getD (headerValue "default-src 'none'" (by decide +kernel))

/-- No `form-action`: a social sign-in ends in a redirect to the provider. -/
def pageHeaders (nonce : String) : List (HeaderName × HeaderValue) :=
  [(.contentSecurityPolicy, pageContentSecurityPolicy nonce), (.cacheControl, noStore),
    (.xContentTypeOptions, nosniff),
    -- Not `no-referrer`: Kratos' CSRF check wants a same-origin Referer on the post.
    (.custom "referrer-policy", headerValue "strict-origin" (by decide +kernel))]

namespace AppState

variable (state : AppState)

/-- `Renderer::page`. -/
def page (status : ℕ) (template : String) (ctx : Context) : Response (List Char) :=
  let negotiated := (ctx.get "lang").isSome
  let ctx := if negotiated then ctx else ctx.insert "lang" (.str "en")
  match state.render template (ctx.insert "nonce" (.str state.nonce)) with
  | none => ⟨500, ∅, []⟩
  | some page =>
    let headers := (∅ : HeaderMap).insert .contentType html
    let headers := (pageHeaders state.nonce).foldl (fun headers e => headers.insert e.1 e.2) headers
    let headers := if negotiated then headers.insert .vary negotiatedBy else headers
    ⟨status, headers, page⟩

def errorPage (status : ℕ) (message : String) : Response (List Char) :=
  state.page status "error.html"
    ((∅ : Context).insert "error" (.obj [("message", .str message)]))

end AppState

/-! ### Requests -/

/-- What a page can be opened with; a malformed query string counts as none. -/
structure PageQuery where
  /-- Kratos' flow id, when the browser is sent back to render a flow. -/
  flow : Option String
  /-- Hydra's login challenge, to start a login or registration flow for. -/
  loginChallenge : Option String
  returnTo : Option String
  /-- Where bff sends the browser afterwards, for a page opened without a challenge. -/
  redirectUri : Option String
  /-- Kratos' error id. -/
  id : Option String
  deriving DecidableEq

def PageQuery.default : PageQuery := ⟨none, none, none, none, none⟩

/-- `page_query`, from the pairs of the query. -/
def pageQuery (pairs : List (List Char × List Char)) : PageQuery :=
  (do
    let flow ← queryField pairs "flow"
    let loginChallenge ← queryField pairs "login_challenge"
    let returnTo ← queryField pairs "return_to"
    let redirectUri ← queryField pairs "redirect_uri"
    let id ← queryField pairs "id"
    return ⟨flow, loginChallenge, returnTo, redirectUri, id⟩ : Option PageQuery).getD .default

/-- The browser's cookies as one header. -/
def cookieHeader (headers : HeaderMap) : Option HeaderValue :=
  let cookies := (headers.getAll .cookie).filterMap HeaderValue.toStr
  if cookies = [] then none else HeaderValue.ofStr ("; ".toList.intercalate cookies)

/-! ### Flows -/

def genericError : String := "Something went wrong. Please try again."

def unavailable : String := "Sign-in is unavailable right now. Please try again in a moment."

section Pages

variable (state : AppState)

/-- bff's `/login` needs a `redirect_uri`; guessing one would loop through bff forever. -/
def backToBff (query : PageQuery) : Response (List Char) :=
  match query.redirectUri.or state.defaultRedirectUri with
  | none => state.errorPage 400
      "There is nothing to sign in to here. Open the sign-in page from the application."
  | some target =>
    redirectTo (state.bffUrl.toList ++ "/login?redirect_uri=".toList ++
      (FormUrlencoded.byteSerialize (Utf8.encode target.toList)).map Char.ofNat)

/-- The pairs that a flow is started with; none where a challenge is missing. -/
def startPairs (kind : FlowKind) (query : PageQuery) : Option (List (List Char × List Char)) := do
  let challenge ← if kind.needsChallenge then
      query.loginChallenge.map fun challenge => [("login_challenge".toList, challenge.toList)]
    else some []
  return challenge ++
    (query.returnTo.map fun returnTo => ("return_to".toList, returnTo.toList)).toList

/-- Where Kratos starts a flow. -/
def startLocation (kind : FlowKind) (pairs : List (List Char × List Char)) : List Char :=
  "/self-service/".toList ++ kind.segment.toList ++ "/browser".toList ++
    if serialize pairs = [] then [] else '?' :: serialize pairs

/-- Where a page opened without a flow goes. -/
def startFlow (kind : FlowKind) (query : PageQuery) : Response (List Char) :=
  match startPairs kind query with
  | none => backToBff state query
  | some pairs => redirectTo (startLocation kind pairs)

/-- What a flow was started with. -/
def carried (flow : Json) (key : String) : Option String :=
  ((flow.get key).bind Json.asStr).filter (· ≠ "")

/-- A link between the pages that keeps the Hydra challenge (or `return_to`). -/
def link (flow : Json) (path : String) : String :=
  match carried flow "oauth2_login_challenge", carried flow "return_to" with
  | some challenge, _ => path ++ "?" ++
      String.ofList (serialize [("login_challenge".toList, challenge.toList)])
  | none, some returnTo => path ++ "?" ++
      String.ofList (serialize [("return_to".toList, returnTo.toList)])
  | none, none => path

def insertNavigation (ctx : Context) (flow : Json) : Context :=
  ((ctx.insert "login_url" (.str (link flow "/login"))).insert "registration_url"
    (.str (link flow "/registration"))).insert "recovery_url" (.str (link flow "/recovery"))

/-- The context of a flow's page. -/
def flowContext (headers : HeaderMap) (flow : Json) : Context :=
  (((insertNavigation ∅ flow).insert "flow" flow).insert "lang"
    (.str (state.negotiate headers))).insert "bff_url" (.str state.bffUrl)

/-- What `flow_page` makes of a fetched flow. -/
def flowResponse (kind : FlowKind) (headers : HeaderMap) (query : PageQuery) :
    Except UpstreamError FlowFetch → Response (List Char)
  | .ok (.found flow) => state.page 200 kind.template (flowContext state headers flow)
  | .ok .gone => startFlow state kind query
  | .ok .signInRequired =>
    if kind = .settings then redirectTo "/login".toList else startFlow state kind query
  | .error _ => state.errorPage 502 unavailable

def flowPage (kind : FlowKind) (headers : HeaderMap) (query : PageQuery) :
    Calls (Response (List Char)) :=
  match query.flow with
  | none => return startFlow state kind query
  | some id => do
    let fetched ← state.kratos.fetchFlow state.crates kind id.toList (cookieHeader headers)
    return flowResponse state kind headers query fetched

/-! ### Errors -/

/-- Kratos' own wording can carry what the caller put in the link, so only a fixed text per status
is shown. -/
def errorText (code : Option ℕ) : String :=
  if code = some 400 then "The request was not valid. Please start again."
  else if code = some 401 ∨ code = some 403 then "You are not allowed to do that."
  else if code = some 404 then "That page was not found."
  else genericError

/-- `Value::as_u64`. -/
def asU64 : Json → Option ℕ
  | .int value => if 0 ≤ value ∧ value < 2 ^ 64 then some value.toNat else none
  | _ => none

/-- The code of one of Kratos' errors. -/
def errorCode (error : Json) : Option ℕ :=
  ((error.get "error").bind fun error => error.get "code").bind asU64

def errorPage (query : PageQuery) : Calls (Response (List Char)) :=
  match query.id with
  | none => return state.errorPage 200 genericError
  | some id => do
    match ← state.kratos.fetchError state.crates id.toList with
    | .ok (some error) => return state.errorPage 200 (errorText (errorCode error))
    | .ok none => return state.errorPage 200 genericError
    | .error _ => return state.errorPage 502 unavailable

/-- What a throttled login submission gets: the same page whoever the identifier is. -/
def throttled (wait : ℕ) : Response (List Char) := throttledPage state.errorPage wait

end Pages

/-! ### Queries that are read again -/

/-- The pairs of a request's query. -/
def queryPairs (query : List Char) : List (List Char × List Char) :=
  FormUrlencoded.parse (Utf8.encode query)

theorem queryPairs_serialize (pairs : List (List Char × List Char)) :
    queryPairs (serialize pairs) = pairs := FormUrlencoded.parse_serialize pairs

/-- A destination of visible characters can be gone to. -/
theorem redirectTo_eq {location : List Char}
    (h : ∀ c ∈ location, 0x20 ≤ c.toNat ∧ c.toNat < 0x7F) : ∃ value : HeaderValue,
      redirectTo location = ⟨303, (∅ : HeaderMap).insert .location value, []⟩ ∧
      value.toStr = some location := by
  obtain ⟨value, hvalue, htext⟩ := HeaderValue.toStr_ofStr fun c hc => Or.inr (h c hc)
  exact ⟨value, by rw [redirectTo, hvalue], htext⟩

theorem visible_startLocation {kind : FlowKind} {pairs : List (List Char × List Char)} :
    ∀ c ∈ startLocation kind pairs, 0x20 ≤ c.toNat ∧ c.toNat < 0x7F := by
  have hfixed : ("/self-service/".toList ++ kind.segment.toList ++ "/browser".toList).all
      (fun c => 0x20 ≤ c.toNat && c.toNat < 0x7F) = true := by
    cases kind <;> decide
  intro c hc
  rcases List.mem_append.mp hc with hc | hc
  · simpa using List.all_eq_true.mp hfixed c hc
  · split_ifs at hc with hnone
    · cases hc
    · rcases List.mem_cons.mp hc with rfl | hc
      · decide
      · exact FormUrlencoded.visible_of_mem_serialize hc

/-- The URL of a page of `own`, from its parts. -/
def ownUrl (own : Url) (parts : List (List Char)) (query : Option (List Char)) : Url :=
  { own with path := .segments parts, query := query, fragment := none }

/-- Parts that need no encoding. -/
theorem isPathPart_of_all {parts : List (List Char)}
    (h : (parts.all fun part => part.all (fun c => !Url.pathSet c && c ≠ '/' && c ≠ '\\') &&
      !Url.isSingleDot part && !Url.isDoubleDot part) = true) :
    ∀ part ∈ parts, Url.IsPathPart part := by
  intro part hpart
  have hgood := List.all_eq_true.mp h part hpart
  simp only [Bool.and_eq_true, List.all_eq_true, Bool.not_eq_true', decide_eq_true_eq,
    and_assoc] at hgood
  exact ⟨hgood.1, hgood.2.1, hgood.2.2⟩

/-- The browser takes such a text to that page. -/
theorem parse_own {rules : UrlRules} {own : Url} (hown : IsSpecialUrl own)
    {parts : List (List Char)} (hne : parts ≠ []) (hparts : ∀ part ∈ parts, Url.IsPathPart part)
    (hslashes : ¬"//".toList <+: Url.partsText parts) {query : Option (List Char)}
    (hquery : ∀ text ∈ query, ∀ c ∈ text, Url.specialQuerySet c = false) :
    Url.parse rules (some own) (Url.partsText parts ++ Url.queryText query) =
      some (ownUrl own parts query) ∧
    Url.asciiOrigin rules (ownUrl own parts query) = Url.asciiOrigin rules own := by
  have hspecial : IsSpecialUrl (ownUrl own parts query) :=
    ⟨hown.special, hown.notFile, hown.host, ⟨parts, rfl, hne, hparts⟩, hquery⟩
  have htext : Url.pathAndQuery (ownUrl own parts query) =
      Url.partsText parts ++ Url.queryText query := rfl
  rw [← htext]
  refine ⟨Url.parse_pathAndQuery hown hspecial hslashes, ?_⟩
  refine Url.asciiOrigin_congr rfl rfl rfl fun hblob => ?_
  have hno := hown.special
  rw [hblob] at hno
  exact absurd hno (by decide)

theorem specialQuerySet_of_mem_serialize {pairs : List (List Char × List Char)} {c : Char}
    (h : c ∈ serialize pairs) : Url.specialQuerySet c = false := by
  have hplain : ∀ n < 128, FormUrlencoded.unchanged n = true →
      Url.specialQuerySet (Char.ofNat n) = false := by decide
  rcases FormUrlencoded.mem_serialize h with hsame | rfl | rfl | rfl | rfl
  · have hlt := (FormUrlencoded.visible_of_mem_serialize h).2
    have hc := hplain c.toNat (by omega) hsame
    rwa [Char.ofNat_toNat] at hc
  all_goals decide

/-- The query of a location that has one. -/
def pairsQuery (pairs : List (List Char × List Char)) : Option (List Char) :=
  if serialize pairs = [] then none else some (serialize pairs)

theorem pairs_pairsQuery (pairs : List (List Char × List Char)) :
    ((pairsQuery pairs).map queryPairs).getD [] = pairs := by
  rw [pairsQuery]
  split_ifs with hnone
  · have hpairs := queryPairs_serialize pairs
    rw [hnone] at hpairs
    exact hpairs
  · exact queryPairs_serialize pairs

/-- The page of Kratos that starts a flow. -/
def startUrl (own : Url) (kind : FlowKind) (pairs : List (List Char × List Char)) : Url :=
  ownUrl own ["self-service".toList, kind.segment.toList, "browser".toList] (pairsQuery pairs)

theorem startLocation_eq (kind : FlowKind) (pairs : List (List Char × List Char)) :
    startLocation kind pairs = Url.partsText
      ["self-service".toList, kind.segment.toList, "browser".toList] ++
        Url.queryText (pairsQuery pairs) := by
  have hservice : "/self-service/".toList = '/' :: ("self-service".toList ++ ['/']) := by
    decide
  have hbrowser : "/browser".toList = '/' :: "browser".toList := by decide
  have hquery : Url.queryText (pairsQuery pairs) =
      if serialize pairs = [] then [] else '?' :: serialize pairs := by
    rw [pairsQuery]
    split_ifs <;> rfl
  have hparts : ∀ a b c : List Char, Url.partsText [a, b, c] =
      '/' :: (a ++ ['/']) ++ b ++ '/' :: c := by
    intro a b c
    simp [Url.partsText]
  unfold startLocation
  rw [hparts, hquery, hservice, hbrowser]

theorem parse_startLocation {rules : UrlRules} {own : Url} (hown : IsSpecialUrl own)
    (kind : FlowKind) (pairs : List (List Char × List Char)) :
    Url.parse rules (some own) (startLocation kind pairs) = some (startUrl own kind pairs) ∧
    Url.asciiOrigin rules (startUrl own kind pairs) = Url.asciiOrigin rules own := by
  rw [startLocation_eq]
  refine parse_own hown (by simp) ?_ ?_ fun text htext c hc => ?_
  · exact isPathPart_of_all (by cases kind <;> decide)
  · cases kind <;> decide
  · rw [pairsQuery] at htext
    split_ifs at htext
    · cases htext
    · obtain rfl := Option.some.inj htext
      exact specialQuerySet_of_mem_serialize hc

/-! ### Where a page sends the browser -/

section Destinations

variable {state : AppState} {kind : FlowKind} {headers : HeaderMap} {query : PageQuery}
  {t : Trace} {response : Response (List Char)}

/-- A page is no redirect. -/
theorem location_page (status : ℕ) (template : String) (ctx : Context) :
    (state.page status template ctx).headers.getAll .location = [] := by
  unfold AppState.page
  dsimp only
  split
  · rfl
  · dsimp only [pageHeaders, List.foldl]
    split_ifs <;> simp [HeaderMap.getAll_insert] <;> rfl

/-- **What Kratos is asked for a page, and what the browser gets.** -/
theorem runs_flowPage : Runs (flowPage state kind headers query) t response ↔
    query.flow = none ∧ t = [] ∧ response = startFlow state kind query ∨
    ∃ id reply, query.flow = some id ∧
      t = [⟨Kratos.getRequest (state.kratos.flowUrl kind id.toList) (cookieHeader headers),
        reply⟩] ∧
      response = flowResponse state kind headers query
        ((Kratos.getResult (state.kratos.flowUrl kind id.toList) reply).bind fun answer =>
          Kratos.flowResult state.crates (state.kratos.flowUrl kind id.toList) answer.1
            answer.2) := by
  unfold flowPage
  cases hflow : query.flow with
  | none => simp [Program.runs_done]
  | some id =>
    simp only [Program.runs_bind, Program.pure_eq, Program.runs_done,
      Kratos.runs_fetchFlow state.kratosBase]
    constructor
    · rintro ⟨fetched, before, after, rfl, ⟨reply, rfl, rfl⟩, rfl, rfl⟩
      exact Or.inr ⟨id, reply, rfl, rfl, rfl⟩
    · rintro (⟨hnone, -⟩ | ⟨id', reply, hid, rfl, rfl⟩)
      · cases hnone
      · obtain rfl := Option.some.inj hid
        exact ⟨_, _, [], rfl, ⟨reply, rfl, rfl⟩, rfl, rfl⟩

theorem of_mem_redirectTo {location : List Char} {value : HeaderValue}
    (h : value ∈ (redirectTo location).headers.getAll .location) :
    (redirectTo location).status = 303 ∧ value.bytes = Utf8.encode location := by
  unfold redirectTo at h ⊢
  split at h
  · next value' hvalue' =>
    obtain rfl := List.mem_singleton.mp h
    exact ⟨rfl, HeaderValue.bytes_ofStr hvalue'⟩
  · cases h

theorem location_redirectTo {location : List Char} {value : HeaderValue}
    (h : (redirectTo location).headers.get .location = some value) :
    (redirectTo location).status = 303 ∧ value.bytes = Utf8.encode location :=
  of_mem_redirectTo (List.mem_of_mem_head? h)

theorem bffLocation_eq (target : List Char) :
    state.bffUrl.toList ++ "/login?redirect_uri=".toList ++
      (FormUrlencoded.byteSerialize (Utf8.encode target)).map Char.ofNat =
    state.bffUrl.toList ++ "/login?".toList ++ serialize [("redirect_uri".toList, target)] := by
  have hname : (FormUrlencoded.byteSerialize (Utf8.encode "redirect_uri".toList)).map Char.ofNat =
      "redirect_uri".toList := by decide
  have hpair : serialize [("redirect_uri".toList, target)] = "redirect_uri".toList ++
      '=' :: (FormUrlencoded.byteSerialize (Utf8.encode target)).map Char.ofNat := by
    rw [serialize, FormUrlencoded.serializeBytes, List.map_singleton, List.intercalate_singleton,
      FormUrlencoded.serializePair, List.map_append, List.map_cons, hname]
  have hprefix : "/login?redirect_uri=".toList =
      "/login?".toList ++ "redirect_uri".toList ++ ['='] := by
    decide
  rw [hpair, hprefix]
  simp only [List.append_assoc, List.singleton_append]

/-- Where a page without a flow sends the browser: to Kratos' start of its kind of flow, on the own
origin and with what the page was opened with, or, where it takes a challenge and there is none, to
bff's `/login`, with a target that the page was opened with or that is configured. -/
def StartsAt (state : AppState) (own : Url) (kind : FlowKind) (query : PageQuery)
    (text : List Char) : Prop :=
  (∃ pairs url, startPairs kind query = some pairs ∧
    Url.parse state.crates.rules (some own) text = some url ∧
    Url.asciiOrigin state.crates.rules url = Url.asciiOrigin state.crates.rules own ∧
    url.path = .segments ["self-service".toList, kind.segment.toList, "browser".toList] ∧
    (url.query.map queryPairs).getD [] = pairs) ∨
  startPairs kind query = none ∧ ∃ target ∈ query.redirectUri.or state.defaultRedirectUri, ∃ more,
    text = state.bffUrl.toList ++ "/login?".toList ++ more ∧
    queryPairs more = [("redirect_uri".toList, target.toList)]

/-- What a page without a flow answers. -/
theorem startFlow_destination {own : Url} (hown : IsSpecialUrl own) {value : HeaderValue}
    (hvalue : (startFlow state kind query).headers.get .location = some value) :
    (startFlow state kind query).status = 303 ∧
      ∃ text, value.bytes = Utf8.encode text ∧ StartsAt state own kind query text := by
  unfold startFlow at hvalue ⊢
  split at hvalue
  · next hnone =>
    unfold backToBff at hvalue ⊢
    split at hvalue
    · rw [AppState.errorPage, HeaderMap.get, location_page] at hvalue
      cases hvalue
    · next target htarget =>
      obtain ⟨hstatus, hbytes⟩ := location_redirectTo hvalue
      exact ⟨hstatus, _, hbytes, Or.inr ⟨hnone, target, htarget, _, bffLocation_eq _,
        queryPairs_serialize _⟩⟩
  · next pairs hpairs =>
    obtain ⟨hstatus, hbytes⟩ := location_redirectTo hvalue
    obtain ⟨hparse, horigin⟩ := @parse_startLocation state.crates.rules own hown kind pairs
    exact ⟨hstatus, _, hbytes, Or.inl ⟨pairs, _, hpairs, hparse, horigin, rfl,
      pairs_pairsQuery pairs⟩⟩

/-- A query with a challenge and nothing else. -/
theorem pageQuery_challenge (challenge : String) :
    pageQuery [("login_challenge".toList, challenge.toList)] =
      { PageQuery.default with loginChallenge := some challenge } := by
  have hother : ∀ name : String, name.toList ≠ "login_challenge".toList →
      queryField [("login_challenge".toList, challenge.toList)] name = some none := by
    intro name hname
    rw [queryField, List.filter_cons_of_neg fun h => hname (of_decide_eq_true h).symm,
      List.filter_nil]
  have hself : queryField [("login_challenge".toList, challenge.toList)] "login_challenge" =
      some (some challenge) := by
    have hone : [("login_challenge".toList, challenge.toList)].filter
        (fun pair => pair.1 = "login_challenge".toList) =
          [("login_challenge".toList, challenge.toList)] :=
      List.filter_eq_self.mpr fun pair hpair => by
        rw [List.mem_singleton.mp hpair]
        exact decide_eq_true rfl
    rw [queryField, hone]
    exact congrArg (fun text => some (some text)) String.ofList_toList
  rw [pageQuery, hself, hother "flow" (by decide), hother "return_to" (by decide),
    hother "redirect_uri" (by decide), hother "id" (by decide)]
  rfl

theorem link_challenge {flow : Json} {challenge : String}
    (hflow : flow.get "oauth2_login_challenge" = some (.str challenge)) (hne : challenge ≠ "")
    (path : String) : link flow path = path ++ "?" ++
      String.ofList (serialize [("login_challenge".toList, challenge.toList)]) := by
  have hcarried : carried flow "oauth2_login_challenge" = some challenge := by
    rw [carried, hflow]
    exact Option.filter_eq_some_iff.mpr ⟨rfl, decide_eq_true hne⟩
  rw [link, hcarried]

/-- The link to a page that takes a challenge. -/
theorem get_flowContext (hkind : kind.needsChallenge = true) (flow : Json) :
    (flowContext state headers flow).get (kind.segment ++ "_url") =
      some (.str (link flow ("/" ++ kind.segment))) := by
  unfold flowContext insertNavigation
  cases kind with
  | login =>
    rw [HashMap.get_insert_ne _ (by decide), HashMap.get_insert_ne _ (by decide),
      HashMap.get_insert_ne _ (by decide), HashMap.get_insert_ne _ (by decide),
      HashMap.get_insert_ne _ (by decide)]
    exact HashMap.get_insert_self _ "login_url" _
  | registration =>
    rw [HashMap.get_insert_ne _ (by decide), HashMap.get_insert_ne _ (by decide),
      HashMap.get_insert_ne _ (by decide), HashMap.get_insert_ne _ (by decide)]
    exact HashMap.get_insert_self _ "registration_url" _
  | recovery => cases hkind
  | verification => cases hkind
  | settings => cases hkind

/-- **From page to page, a challenge stays what it was.** On the page of a flow that was started
for a challenge, the link to a page that takes one makes Kratos start that kind of flow for the same
challenge, on the same origin, and nothing is asked of Kratos before. -/
theorem challenge_carried {own : Url} (hown : IsSpecialUrl own)
    (hkind : kind.needsChallenge = true) {flow : Json} {challenge : String}
    (hflow : flow.get "oauth2_login_challenge" = some (.str challenge)) (hne : challenge ≠ "")
    (headers headers' : HeaderMap) : ∃ more : List Char,
      (flowContext state headers flow).get (kind.segment ++ "_url") =
        some (.str ("/" ++ kind.segment ++ "?" ++ String.ofList more)) ∧
      ∀ t response, Runs (flowPage state kind headers' (pageQuery (queryPairs more))) t response →
        t = [] ∧ response.status = 303 ∧ ∃ value text url,
          response.headers.get .location = some value ∧ value.toStr = some text ∧
          Url.parse state.crates.rules (some own) text = some url ∧
          Url.asciiOrigin state.crates.rules url = Url.asciiOrigin state.crates.rules own ∧
          url.path = .segments ["self-service".toList, kind.segment.toList, "browser".toList] ∧
          (url.query.map queryPairs).getD [] =
            [("login_challenge".toList, challenge.toList)] := by
  refine ⟨serialize [("login_challenge".toList, challenge.toList)], ?_, fun t response h => ?_⟩
  · rw [get_flowContext hkind, link_challenge hflow hne]
  · rw [queryPairs_serialize, pageQuery_challenge] at h
    rcases runs_flowPage.mp h with ⟨-, rfl, rfl⟩ | ⟨id, reply, hid, -⟩
    · have hpairs : startPairs kind { PageQuery.default with loginChallenge := some challenge } =
          some [("login_challenge".toList, challenge.toList)] := by
        rw [startPairs, if_pos hkind]
        rfl
      obtain ⟨value, heq, htext⟩ := redirectTo_eq (@visible_startLocation kind
        [("login_challenge".toList, challenge.toList)])
      obtain ⟨hparse, horigin⟩ := @parse_startLocation state.crates.rules own hown kind
        [("login_challenge".toList, challenge.toList)]
      rw [startFlow, hpairs]
      dsimp only
      rw [heq]
      exact ⟨rfl, rfl, value, _, _, rfl, htext, hparse, horigin, rfl,
        pairs_pairsQuery [("login_challenge".toList, challenge.toList)]⟩
    · cases hid

end Destinations

namespace Sample

/-- A URL of a web server, with a path of one part that needs no encoding. -/
theorem isSpecialUrl_http {host part : List Char} {more : List (List Char)}
    (h : ((part :: more).all fun part =>
      part.all (fun c => !Url.pathSet c && c ≠ '/' && c ≠ '\\') &&
        !Url.isSingleDot part && !Url.isDoubleDot part) = true) : IsSpecialUrl
        ⟨"http".toList, [], [], some host, none, .segments (part :: more), none, none⟩ where
  special := (by decide : Url.isSpecial "http".toList = true)
  notFile := (by decide : "http".toList ≠ "file".toList)
  host := Option.some_ne_none host
  path := ⟨_, rfl, List.cons_ne_nil _ _, isPathPart_of_all h⟩
  query := nofun

def own : Url := ⟨"http".toList, [], [], some ['l'], none, .segments [[]], none, none⟩

/-- What all of Hydra and Kratos answer with. -/
def document : Json :=
  .obj [("client", .obj [("client_id", .str "bff")]), ("requested_scope", .arr [.str "openid"]),
    ("rp_initiated", .bool true), ("redirect_to", .str "http://h/next"),
    ("logout_token", .str "t"), ("oauth2_login_challenge", .str "ä c")]

def crates : Crates := ⟨rules, fun _ => some document, fun _ _ => "", fun _ _ => "", fun _ => true⟩

def state : AppState where
  crates := crates
  kratos := kratos
  hydra := ⟨⟨"http".toList, [], [], some ['h'], none, .segments [[]], none, none⟩⟩
  kratosBase := isSpecialUrl_http (by decide +kernel)
  hydraBase := isSpecialUrl_http (by decide +kernel)
  bffUrl := "http://bff"
  bffClientId := "bff"
  defaultRedirectUri := some "http://app/home"
  negotiate _ := "en"
  render _ _ := some []
  nonce := ""

theorem isSpecialUrl_own : IsSpecialUrl own := isSpecialUrl_http (by decide)

end Sample

/-- A challenge that has to be encoded. -/
theorem challenge_carried_encoded : ∃ more : List Char,
    (flowContext Sample.state ∅ Sample.document).get "registration_url" =
      some (.str ("/registration?" ++ String.ofList more)) ∧
    ∃ url : Url, url.path = .segments
      ["self-service".toList, "registration".toList, "browser".toList] ∧
      (url.query.map queryPairs).getD [] = [("login_challenge".toList, "ä c".toList)] := by
  obtain ⟨more, hlink, hpage⟩ := @challenge_carried Sample.state .registration Sample.own
    Sample.isSpecialUrl_own rfl Sample.document "ä c" rfl (by decide) ∅ ∅
  obtain ⟨t, response, hrun⟩ : ∃ t response,
      Runs (flowPage Sample.state .registration ∅ (pageQuery (queryPairs more))) t response := by
    obtain ⟨t, hrun, -⟩ := @Program.runs_exec _ _ _ (fun _ _ => (.failed "", 0))
      (flowPage Sample.state .registration ∅ (pageQuery (queryPairs more))) ⟨[], 0⟩
    exact ⟨t, _, hrun⟩
  obtain ⟨-, -, value, text, url, -, -, -, -, hpath, hpairs⟩ := hpage t response hrun
  exact ⟨more, hlink, url, hpath, hpairs⟩

end Login

end WeaveAuth
