import WeaveAuth.ForMathlib.UrlReparse
import WeaveAuth.Login.Render

/-!
# URLs on this host

`RenderRules::local` cuts a URL on this host down to its path and its query, for a form or a script
of a page. The browser reads that as a relative URL.

## Main results

* `toLocal_stays_iff`: when the browser comes to this host, with the same path and query

## What is assumed

A browser reads a reference as the WHATWG's standard says, with the page's URL as its base. What it
is about is the one exception: a path that begins with two slashes is read as a host.

## How the proof goes

The parser is run twice: on what Kratos sent, with this host for its base, and on what is left of
it, with the page for its base. `ForMathlib.UrlReparse` says when the second reading is the first.
What Kratos sent may also be a `blob` URL of this host's origin, whose path no relative URL can
have.
-/

namespace WeaveAuth

namespace Login

open Url

variable {rules : UrlRules} {urls : RenderRules} {ownOrigin : List Char} {url : Url}
  {raw local' : String}

theorem toLocal_eq_some : urls.toLocal rules raw = some local' ↔ ∃ url,
    parse rules (some urls.own) raw.toList = some url ∧
      (asciiOrigin rules url = asciiOrigin rules urls.own ∨
        asciiOrigin rules url = urls.kratosOrigin.toList) ∧
      String.ofList (pathAndQuery url) = local' := by
  simp only [RenderRules.toLocal, Option.bind_eq_bind, Option.bind_eq_some_iff]
  refine exists_congr fun url => and_congr_right fun _ => ?_
  rw [ite_eq_iff]
  simp only [Bool.and_eq_true, decide_eq_true_eq, reduceCtorEq, and_false, false_or, not_and_or,
    not_not]
  refine and_congr_right fun _ => ?_
  rw [pathAndQuery]
  cases url.query <;> simp [queryText]

theorem isLocalPath_iff {text : List Char} : isLocalPath text = true ↔
    "/".toList <+: text ∧ ¬ "//".toList <+: text ∧ ¬ "/\\".toList <+: text := by
  simp only [isLocalPath, Bool.and_eq_true, Bool.not_eq_true', List.isPrefixOf_iff_prefix,
    and_assoc, ← Bool.not_eq_true]

/-- A page of this host takes the text to this host, to the path and the query of the URL. -/
def StaysOn (rules : UrlRules) (own url : Url) (text : List Char) : Prop :=
  ∃ url', parse rules (some own) text = some url' ∧
    asciiOrigin rules url' = asciiOrigin rules own ∧
    url'.pathText = url.pathText ∧ url'.query = url.query

/-- The path of a special URL is written with slashes only. -/
theorem isLocalPath_pathText (h : IsSpecialUrl url) :
    isLocalPath url.pathText = true ↔ ¬ "//".toList <+: url.pathText := by
  obtain ⟨parts, -, -, hparts, htext⟩ := h.pathText_eq
  rw [isLocalPath_iff, htext]
  refine ⟨fun h => h.2.1, fun h => ⟨⟨_, rfl⟩, h, ?_⟩⟩
  rintro ⟨rest, hrest⟩
  have hback : '\\' ∈ Path.join parts := (List.cons.inj hrest).2 ▸ List.mem_cons_self
  rcases Path.mem_join hback with heq | ⟨part, hpart, hc⟩
  · exact absurd heq (by decide)
  · exact ((hparts part hpart).chars _ hc).2.2 rfl

section

variable (hown : parse rules none ownOrigin = some urls.own)
  (hport : defaultPort urls.own.scheme ≠ none)
include hown hport

theorem isSpecialUrl_own : IsSpecialUrl urls.own := by
  obtain ⟨hspecial, hfile⟩ := isSpecial_of_defaultPort hport
  exact isSpecialUrl_of_parse hown hspecial hfile (by simp)

/-- The URL that is cut down: of a host, or a `blob` that names one. -/
theorem special_or_blob (hurl : parse rules (some urls.own) raw.toList = some url)
    (horigin : asciiOrigin rules url ≠ "null".toList) :
    IsSpecialUrl url ∨ ∃ rest, IsOpaqueUrl url rest ∧ url.pathText ≠ [] ∧
      url.pathText.head? ≠ some '/' := by
  have hbase := isSpecialUrl_own hown hport
  rcases of_asciiOrigin horigin with ⟨hblob, inner, hinner⟩ | hport'
  · right
    have hslash : ∀ rest, url.pathText ≠ '/' :: rest := by
      intro rest heq
      rw [heq, parse_none_slash] at hinner
      cases hinner
    have hnil : url.pathText ≠ [] := by
      intro heq
      rw [heq] at hinner
      cases hinner
    have hopaque := path_of_parse hurl (by rw [hblob]; decide) (by simpa using hbase)
    rcases hopaque with ⟨parts, hpath⟩ | ⟨scheme, rest, -, hopaque⟩
    · rw [pathText, hpath] at hslash hnil
      cases parts with
      | nil => exact absurd rfl hnil
      | cons part parts => exact absurd rfl (hslash (part ++ partsText parts))
    · refine ⟨rest, hopaque, hnil, fun hhead => ?_⟩
      obtain ⟨tail, htail⟩ := List.head?_eq_some_iff.mp hhead
      exact hslash tail htail
  · left
    obtain ⟨hspecial, hfile⟩ := isSpecial_of_defaultPort hport'
    refine isSpecialUrl_of_parse hurl hspecial hfile ?_
    rintro base' hbase' - -
    exact Option.some.inj hbase' ▸ hbase

end

/-- **The browser comes to this host, with the same path and query, exactly if** the path alone is
one that links may have, which begins with one slash. -/
theorem toLocal_stays_iff (hown : parse rules none ownOrigin = some urls.own)
    (hport : defaultPort urls.own.scheme ≠ none) (hkratos : urls.kratosOrigin ≠ "null")
    (hurl : parse rules (some urls.own) raw.toList = some url)
    (hlocal : urls.toLocal rules raw = some local') :
    StaysOn rules urls.own url local'.toList ↔ isLocalPath url.pathText = true := by
  have hbase := isSpecialUrl_own hown hport
  have hnull := asciiOrigin_ne_null rules hport hbase.host
  obtain ⟨url', hurl', horigin, rfl⟩ := toLocal_eq_some.mp hlocal
  obtain rfl := Option.some.inj (hurl.symm.trans hurl')
  rw [String.toList_ofList]
  have horigin' : asciiOrigin rules url ≠ "null".toList := by
    rcases horigin with heq | heq
    · exact heq ▸ hnull
    · exact fun hnull => hkratos (String.toList_injective (heq.symm.trans hnull))
  rcases special_or_blob hown hport hurl horigin' with hspecial | ⟨rest, hopaque, hnil, hhead⟩
  · rw [isLocalPath_pathText hspecial]
    constructor
    · rintro ⟨url', hparse, -, hpath, -⟩ hslashes
      have hlen := length_of_parse_slashes hbase hspecial hslashes hparse
      rw [hpath] at hlen
      exact absurd hlen (Nat.lt_irrefl _)
    · intro hslashes
      refine ⟨_, parse_pathAndQuery hbase hspecial hslashes, ?_, rfl, rfl⟩
      exact asciiOrigin_congr rfl rfl rfl fun heq => hport (heq ▸ rfl)
  · refine iff_of_false ?_ ?_
    · rintro ⟨url', hparse, hsame, hpath, -⟩
      refine pathText_ne_of_parse hbase hnil hhead (fun c hc => hopaque.of_mem_pathText hc)
        hopaque.2 hparse (fun hfile => hnull ?_) hpath
      rw [← hsame, asciiOrigin, asciiOriginWithin, if_neg (by rw [hfile]; decide), hfile]
      rfl
    · rw [isLocalPath_iff]
      rintro ⟨⟨tail, htail⟩, -⟩
      exact hhead (htail ▸ rfl)

/-! ### On one host -/

def hostRules : UrlRules := ⟨fun _ host => some host, fun _ _ => none⟩

def hostUrls : RenderRules where
  own := ⟨"https".toList, [], [], some "login.example".toList, none, .segments [[]], none, none⟩
  kratosOrigin := "http://kratos:4433"
  providerLogos := ∅

/-- The action of a login form, a URL of Kratos. -/
theorem toLocal_stays_of_kratos : ∃ url,
    parse hostRules (some hostUrls.own) "http://kratos:4433/self-service/login?flow=1".toList =
      some url ∧
    StaysOn hostRules hostUrls.own url "/self-service/login?flow=1".toList := by
  have hown : parse hostRules none "https://login.example".toList = some hostUrls.own := by
    decide +kernel
  have hurl : parse hostRules (some hostUrls.own)
      "http://kratos:4433/self-service/login?flow=1".toList =
        some ⟨"http".toList, [], [], some "kratos".toList, some 4433,
          .segments ["self-service".toList, "login".toList], some "flow=1".toList, none⟩ := by
    decide +kernel
  have hlocal : hostUrls.toLocal hostRules "http://kratos:4433/self-service/login?flow=1" =
      some "/self-service/login?flow=1" := by
    decide +kernel
  exact ⟨_, hurl, (toLocal_stays_iff hown (by decide) (by decide) hurl hlocal).mpr
    (by decide +kernel)⟩

/-- A script on this host, after two slashes, is asked for on another host. -/
theorem script_of_another_host :
    parse hostRules none "https://login.example".toList = some hostUrls.own ∧
      hostUrls.toLocal hostRules "https://login.example//cdn.example/webauthn.js" =
        some "//cdn.example/webauthn.js" ∧
      asciiOrigin hostRules hostUrls.own = "https://login.example".toList ∧
      (parse hostRules (some hostUrls.own) "//cdn.example/webauthn.js".toList).map
        (asciiOrigin hostRules) = some "https://cdn.example".toList := by
  decide +kernel

end Login

end WeaveAuth
