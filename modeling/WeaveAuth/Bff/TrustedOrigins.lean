import WeaveAuth.Bff.OriginCheck
import WeaveAuth.Bff.RoutePaths
import WeaveAuth.ForMathlib.UrlOrigin

/-!
# Which origins are trusted

`trusted_origins` of `bff/src/server/origin_check.rs`: the configured ones, which `load` has
checked, and bff's own. A sandboxed page says that its origin is `null`, and so does `asciiOrigin`
of any opaque one.

## Main results

* `opaque_origins_untrusted`: no opaque origin is trusted unless bff's own is one
* `hasOrigin_of_prod`: under `prod` it is none

## The condition

bff's own origin is that of `bff_url`, and `load` asks of it a scheme and a host only under `prod`.
A URL of another scheme is opaque to the `url` crate, whose origin is written `null`. So it comes
down to one question about `bff_url` as it is parsed.
-/

namespace WeaveAuth

namespace Bff

open Common (Profile UserSettings)
open Url (HasOrigin IsOriginText)

/-- `Url::parse` and `origin().ascii_serialization()`. -/
def ConfigEnv.asciiOrigin (env : ConfigEnv) (text : List Char) : Option (List Char) :=
  (Url.parse env.rules none text).map (Url.asciiOrigin env.rules)

/-- `trusted_origins`: none if bff's URL is no URL, and then bff does not start. -/
def trustedOrigins (env : ConfigEnv) (config : Config) : Option (List (List Char)) := do
  let bffOrigin ← env.asciiOrigin config.bffUrl.toList
  return config.trustedOrigins.map String.toList ++ [bffOrigin]

/-- No opaque origin is among those trusted. -/
structure TrustsNoOpaque (env : ConfigEnv) (origins : List (List Char)) : Prop where
  /-- A request whose origin is `null` is refused. -/
  null : ∀ (headers : HeaderMap) (origin : HeaderValue), headers.get .origin = some origin →
    origin.toStr = some "null".toList →
      requireTrustedOrigin env.asciiOrigin origins headers ≠ .ok ()
  /-- And one from a page whose origin is opaque, if it does not say its own. -/
  referer : ∀ (headers : HeaderMap) (referer : HeaderValue) (text : List Char) (url : Url),
    headers.get .origin = none → headers.get .referer = some referer →
      referer.toStr = some text → Url.parse env.rules none text = some url →
        (∀ origin, ¬ HasOrigin env.rules url origin) →
          requireTrustedOrigin env.asciiOrigin origins headers ≠ .ok ()
  /-- All of them are of a scheme, a host and a port. -/
  isOriginText : ∀ origin ∈ origins, IsOriginText origin

section Trusted

variable {env : ConfigEnv} {user : UserSettings Config} {config : Config}
  {origins : List (List Char)}

theorem requestOrigin_of_origin {asciiOrigin : List Char → Option (List Char)}
    {headers : HeaderMap} {origin : HeaderValue} {text : List Char}
    (horigin : headers.get .origin = some origin) (htext : origin.toStr = some text) :
    requestOrigin asciiOrigin headers = .ok text := by
  simp only [requestOrigin, horigin, htext]

theorem requestOrigin_of_referer {asciiOrigin : List Char → Option (List Char)}
    {headers : HeaderMap} {referer : HeaderValue} {text origin : List Char}
    (hnone : headers.get .origin = none) (hreferer : headers.get .referer = some referer)
    (htext : referer.toStr = some text) (horigin : asciiOrigin text = some origin) :
    requestOrigin asciiOrigin headers = .ok origin := by
  simp only [requestOrigin, hnone, hreferer, Option.bind_some, htext, horigin]

/-- Where all the texts are those of origins, an opaque one is not trusted. -/
theorem trustsNoOpaque_of_forall (h : ∀ origin ∈ origins, IsOriginText origin) :
    TrustsNoOpaque env origins where
  null headers origin horigin htext := by
    rw [ne_eq, requireTrustedOrigin_ok]
    rintro ⟨trusted, hmem, heq⟩
    rw [requestOrigin_of_origin horigin htext] at heq
    exact (h trusted hmem).ne_null (Except.ok.inj heq).symm
  referer headers referer text url hnone hreferer htext hurl hopaque := by
    have hnull : Url.asciiOrigin env.rules url = "null".toList := by
      by_contra hne
      exact hopaque _ ((Url.asciiOrigin_eq_iff hurl _).mpr ⟨rfl, hne⟩)
    have horigin : env.asciiOrigin text = some "null".toList := by
      rw [ConfigEnv.asciiOrigin, hurl, Option.map_some, hnull]
    rw [ne_eq, requireTrustedOrigin_ok]
    rintro ⟨trusted, hmem, heq⟩
    rw [requestOrigin_of_referer hnone hreferer htext horigin] at heq
    exact (h trusted hmem).ne_null (Except.ok.inj heq).symm
  isOriginText := h

/-- The configured origins were checked. -/
theorem isOriginText_of_load (h : load env user = .ok config) :
    ∀ origin ∈ config.trustedOrigins, IsOriginText origin.toList := by
  obtain ⟨profile, given, -, -, -, hvalid, rfl⟩ := load_eq_ok.mp h
  refine List.forall_mem_map.mpr fun entry hentry => ?_
  obtain ⟨url, hurl, horigin⟩ := (hvalid.trustedOrigins entry hentry).1
  exact Url.isOriginText_of_asciiOrigin hurl horigin

/-- **Opaque origins are not trusted unless bff's own is opaque**: then `null` is, whoever says
so. -/
theorem opaque_origins_untrusted (h : load env user = .ok config)
    (horigins : trustedOrigins env config = some origins) : TrustsNoOpaque env origins ↔
      ∃ url origin, env.parse config.bffUrl = some url ∧ HasOrigin env.rules url origin := by
  obtain ⟨bffOrigin, hbff, heq⟩ := Option.bind_eq_some_iff.mp horigins
  obtain ⟨url, hurl, rfl⟩ := Option.map_eq_some_iff.mp hbff
  obtain rfl := Option.some.inj heq
  constructor
  · intro htrusts
    have htext := htrusts.isOriginText _ (List.mem_append_right _ (List.mem_singleton_self _))
    exact ⟨url, _, hurl, (Url.asciiOrigin_eq_iff hurl _).mpr ⟨rfl, htext.ne_null⟩⟩
  · rintro ⟨url', origin, hurl', horigin⟩
    obtain rfl := Option.some.inj (hurl.symm.trans hurl')
    refine trustsNoOpaque_of_forall (List.forall_mem_append.mpr ⟨?_, ?_⟩)
    · exact List.forall_mem_map.mpr (isOriginText_of_load h)
    · rw [List.forall_mem_singleton, ((Url.asciiOrigin_eq_iff hurl origin).mp horigin).1]
      exact horigin.isOriginText

/-- **Under `prod`** bff's URL is checked. -/
theorem hasOrigin_of_prod (h : load env user = .ok config) (hprod : user.profile = .ok .prod) :
    ∃ url origin, env.parse config.bffUrl = some url ∧ HasOrigin env.rules url origin := by
  obtain ⟨profile, given, hprofile, -, -, hvalid, rfl⟩ := load_eq_ok.mp h
  obtain rfl := Except.ok.inj (hprod.symm.trans hprofile)
  obtain ⟨url, hurl, hscheme, hhost, -⟩ := hvalid.publicUrls rfl _ List.mem_cons_self
  obtain ⟨host, hhost⟩ := Option.ne_none_iff_exists'.mp hhost
  exact ⟨url, _, hurl, .tuple (by rw [hscheme]; decide +kernel) hhost⟩

end Trusted

/-! ### Under `dev` -/

/-- A URL and the two secrets are set, and `dev`. -/
def sampleUser (bffUrl : String) : UserSettings Config where
  contains key := ["profile", "bff_url", "bff_client_secret", "internal_api_key"].contains key
  innerProfile := .ok .dev
  extract given := .ok { given with
    bffUrl
    bffClientSecret := "secret"
    internalApiKey := "key" }

/-- What is made of it. -/
def sampleLoaded (bffUrl : String) : Config :=
  { Config.default with
    bffUrl
    bffClientSecret := "secret"
    internalApiKey := "key"
    rateLimitMaxAttempts := 100
    rateLimitProxyMaxAttempts := 6000 }

theorem opaque_origins_untrusted_localhost :
    TrustsNoOpaque sampleEnv ["http://localhost:8080".toList] := by
  have hload : load sampleEnv (sampleUser "http://localhost:8080") =
      .ok (sampleLoaded "http://localhost:8080") := by
    decide +kernel
  have horigins : trustedOrigins sampleEnv (sampleLoaded "http://localhost:8080") =
      some ["http://localhost:8080".toList] := by
    decide +kernel
  refine (opaque_origins_untrusted hload horigins).mpr ⟨⟨"http".toList, [], [],
    some "localhost".toList, some 8080, .segments [[]], none, none⟩, _, by decide +kernel,
    .tuple (by decide +kernel) rfl⟩

/-- The scheme is forgotten, and bff starts with `null` among its trusted origins. -/
theorem null_trusted_without_scheme :
    let origin : HeaderValue := ⟨Utf8.encode "null".toList, by decide +kernel⟩
    load sampleEnv (sampleUser "localhost:8080") = .ok (sampleLoaded "localhost:8080") ∧
      trustedOrigins sampleEnv (sampleLoaded "localhost:8080") = some ["null".toList] ∧
      origin.toStr = some "null".toList ∧
      requireTrustedOrigin sampleEnv.asciiOrigin ["null".toList]
        ((∅ : HeaderMap).append .origin origin) = .ok () := by
  decide +kernel

end Bff

end WeaveAuth
