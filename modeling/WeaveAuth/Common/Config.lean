import WeaveAuth.ForMathlib.Except
import WeaveAuth.ForMathlib.Url

/-!
# What the services' configurations share

`common/src/config.rs`. What `figment` makes of the YAML file and the environment is left open.

## Main results

* `requireHttpsInProd_eq_ok`: what browser-facing URLs have to be

## What is left open

`figment` merges the layers, and a value that is set twice has one of its values; `UserSettings` is
the outcome, with what it says of each field. The profile is read before everything else.
-/

namespace WeaveAuth

namespace Common

open Fallible

/-- A deployment's posture. -/
inductive Profile where
  | dev
  | prod
  deriving DecidableEq

/-- What the deployer set, as `figment` has it: a `user` of `α`s. -/
structure UserSettings (α : Type) where
  contains : String → Bool
  /-- `extract_inner("profile")`. -/
  innerProfile : Except String Profile
  /-- `extract`: the defaults, with everything that was set laid over them. -/
  extract : α → Except String α

/-- `profile`: `prod` if none is set. -/
def UserSettings.profile {α : Type} (user : UserSettings α) : Except String Profile :=
  if !user.contains "profile" then .ok .prod
  else user.innerProfile.mapError ("invalid profile (expected dev or prod): " ++ ·)

/-- What a browser-facing URL has to be under `prod`. -/
inductive PublicUrl where
  /-- An https URL with a host. -/
  | base
  /-- An https origin: no path, query or fragment. -/
  | origin
  deriving DecidableEq

def devHint : String := ". Set WA_PROFILE=dev for local development"

section PublicUrls

variable (rules : UrlRules)

/-- One of the URLs that `require_https_in_prod` is given. -/
def requireHttps : String × String × PublicUrl → Except String Unit
  | (var, value, kind) =>
    match Url.parse rules none value.toList with
    | none => .error (var ++ " must be an https URL for the prod profile" ++ devHint)
    | some url =>
      if url.scheme ≠ "https".toList || url.host.isNone then
        .error (var ++ " must be an https URL for the prod profile" ++ devHint)
      else if kind = .origin &&
          (url.pathText ≠ ['/'] || url.query.isSome || url.fragment.isSome) then
        .error (var ++ " must be an origin (no path, query or fragment) for the prod profile" ++
          devHint)
      else .ok ()

def requireHttpsInProd (profile : Profile) (urls : List (String × String × PublicUrl)) :
    Except String Unit :=
  if profile ≠ .prod then .ok () else urls.forM (requireHttps rules)

/-- The URL's text is what its kind asks for. -/
def IsPublic (value : String) (kind : PublicUrl) : Prop :=
  ∃ url, Url.parse rules none value.toList = some url ∧ url.scheme = "https".toList ∧
    url.host ≠ none ∧
    (kind = .origin → url.pathText = ['/'] ∧ url.query = none ∧ url.fragment = none)

variable {rules}

theorem requireHttps_eq_ok {var value : String} {kind : PublicUrl} :
    requireHttps rules (var, value, kind) = .ok ⟨⟩ ↔ IsPublic rules value kind := by
  cases hurl : Url.parse rules none value.toList with
  | none => simp [requireHttps, IsPublic, hurl]
  | some url =>
    simp only [requireHttps, IsPublic, hurl, Option.some.injEq, exists_eq_left']
    split_ifs with hscheme hkind
    · refine iff_of_false (fun heq => by cases heq) ?_
      rintro ⟨hhttps, hhost, -⟩
      simp [hhttps, hhost] at hscheme
    · refine iff_of_false (fun heq => by cases heq) ?_
      rintro ⟨-, -, horigin⟩
      simp only [Bool.and_eq_true, decide_eq_true_eq] at hkind
      obtain ⟨hpath, hquery, hfragment⟩ := horigin hkind.1
      simp [hpath, hquery, hfragment] at hkind
    · refine iff_of_true rfl ?_
      simp only [Bool.or_eq_true, decide_eq_true_eq, Option.isNone_iff_eq_none, not_or,
        not_not] at hscheme
      refine ⟨hscheme.1, hscheme.2, fun horigin => ?_⟩
      simpa [horigin, and_assoc] using hkind

theorem requireHttpsInProd_eq_ok {profile : Profile} {urls : List (String × String × PublicUrl)} :
    requireHttpsInProd rules profile urls = .ok ⟨⟩ ↔
      (profile = .prod → ∀ entry ∈ urls, IsPublic rules entry.2.1 entry.2.2) := by
  rw [requireHttpsInProd]
  split_ifs with hprofile
  · exact iff_of_true rfl fun hprod => absurd hprod hprofile
  · rw [forM_eq_ok]
    simp only [not_not] at hprofile
    refine ⟨fun hall _ entry hentry => requireHttps_eq_ok.mp (hall entry hentry),
      fun hall entry hentry => requireHttps_eq_ok.mpr (hall hprofile entry hentry)⟩

end PublicUrls

end Common

end WeaveAuth
