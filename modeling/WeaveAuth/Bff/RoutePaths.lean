import WeaveAuth.Bff.CleanPath
import WeaveAuth.Bff.Config

/-!
# The routes a request can reach

A route's prefix is judged twice, by `is_route_prefix` when bff starts and by `is_clean_path` for
each request. The first compares a segment with `.` and `..`, the second takes dots of any number
for these, before path parameters.

## Main results

* `isCleanPath_append`: a path is judged segment by segment
* `routes_reachable`: the requests of a route get past the second check unless the first missed dots

## What is compared

`Under` is what axum sends to a route: its prefix, and any path below it. Both checks are the
code's, each of its own text, and the theorem is about the one question that concerns them both:
whether the requests of a route that was accepted when bff started get past the check that each of
them is put to.
-/

namespace WeaveAuth

namespace Bff

open Common (Profile)
open Percent WeaveAuth.Path

/-! ### Paths under another -/

/-- The requests of a route: to its prefix, and below it to any path that is clean. -/
def Under (route : RouteConfig) (path : List Char) : Prop :=
  path = route.pathPrefix.toList ∨ ∃ rest, isCleanPath rest = true ∧
    path = route.pathPrefix.toList ++ '/' :: rest

theorem isCleanPath_append {path rest : List Char} : isCleanPath (path ++ '/' :: rest) = true ↔
    isCleanPath path = true ∧ isCleanPath rest = true := by
  have hsegments : segments (path ++ '/' :: rest) = segments path ++ segments rest :=
    List.splitOn_append_cons_self _ _
  simp only [isCleanPath_iff, hsegments, List.forall_mem_append]

theorem forall_under_iff {route : RouteConfig} :
    (∀ path, Under route path → isCleanPath path = true) ↔
      isCleanPath route.pathPrefix.toList = true := by
  constructor
  · exact fun h => h _ (.inl rfl)
  · rintro hclean path (rfl | ⟨rest, hrest, rfl⟩)
    · exact hclean
    · exact isCleanPath_append.mpr ⟨hclean, hrest⟩

/-! ### What the two checks make of a segment -/

/-- Up to its first `;` the segment has dots and nothing else. -/
def OnlyDots (segment : List Char) : Prop :=
  segment.takeWhile (· ≠ ';') ≠ [] ∧ ∀ c ∈ segment.takeWhile (· ≠ ';'), c = '.'

/-- A segment of a prefix that is accepted. -/
theorem of_isRoutePrefix {text : List Char} (h : isRoutePrefix text = true) :
    ∀ s ∈ segments text, ∀ c ∈ s, isRouteChar c = true := by
  rw [isRoutePrefix.eq_def, Bool.or_eq_true, decide_eq_true_eq] at h
  rcases h with rfl | h
  · have hsegments : segments ['/'] = [[], []] := rfl
    simp [hsegments]
  · split at h
    · next path =>
      rw [segments_cons_slash]
      refine List.forall_mem_cons.mpr ⟨by simp, fun s hs => ?_⟩
      have hsegment := List.all_eq_true.mp h s hs
      exact List.all_eq_true.mp (Bool.and_eq_true_iff.mp hsegment).2
    · cases h

theorem isRouteChar_spec {c : Char} (h : isRouteChar c = true) :
    c ≠ '%' ∧ c ≠ '\\' ∧ c ≠ ' ' ∧ isControl c = false := by
  rw [isRouteChar, Bool.and_eq_true, Bool.and_eq_true, decide_eq_true_eq, decide_eq_true_eq,
    Bool.not_eq_true', List.contains_eq_mem, decide_eq_false_iff_not] at h
  obtain ⟨⟨hlow, hhigh⟩, hnot⟩ := h
  refine ⟨?_, ?_, ?_, ?_⟩
  · rintro rfl
    exact hnot (by decide +kernel)
  · rintro rfl
    exact hnot (by decide +kernel)
  · rintro rfl
    exact absurd hlow (by decide)
  · simp only [isControl, Bool.or_eq_false_iff, Bool.and_eq_false_iff, decide_eq_false_iff_not]
    omega

/-- Such a segment is not changed by decoding, and refused for dots alone. -/
theorem isRefused_iff {s : List Char} (hslash : '/' ∉ s) (h : ∀ c ∈ s, isRouteChar c = true) :
    isRefused s = true ↔ OnlyDots s := by
  have hchars : ∀ c ∈ s, ((c = '/' || c = '\\') = false) ∧ isControl c = false := by
    intro c hc
    obtain ⟨-, hback, -, hcontrol⟩ := isRouteChar_spec (h c hc)
    have hslash' : c ≠ '/' := fun heq => hslash (heq ▸ hc)
    exact ⟨by simp [hback, hslash'], hcontrol⟩
  have hseparators : s.any (fun c => c = '/' || c = '\\') = false :=
    List.any_eq_false.mpr fun c hc => ne_true_of_eq_false (hchars c hc).1
  have hcontrols : s.any isControl = false :=
    List.any_eq_false.mpr fun c hc => ne_true_of_eq_false (hchars c hc).2
  rw [isRefused, hseparators, hcontrols, Bool.or_false, Bool.or_false, dotsOnly_iff, Climbs,
    OnlyDots]
  constructor
  · rintro ⟨hhead, hdots⟩
    refine ⟨fun hnil => ?_, fun c hc => (hdots c hc).resolve_right ?_⟩
    · rw [hnil] at hhead
      cases hhead
    · exact (isRouteChar_spec (h c ((List.takeWhile_prefix _).mem hc))).2.2.1
  · rintro ⟨hne, hdots⟩
    refine ⟨?_, fun c hc => .inl (hdots c hc)⟩
    obtain ⟨c, rest, hcons⟩ := List.exists_cons_of_ne_nil hne
    rw [hcons] at hdots ⊢
    rw [hdots c List.mem_cons_self, List.head?_cons]

/-- **The second check of a prefix that passed the first.** -/
theorem isCleanPath_of_isRoutePrefix {text : List Char} (h : isRoutePrefix text = true) :
    isCleanPath text = true ↔ ∀ s ∈ segments text, ¬ OnlyDots s := by
  rw [isCleanPath_iff]
  refine forall₂_congr fun s hs => ?_
  have hchars := of_isRoutePrefix h s hs
  have hdecode : decodeLossy s = s :=
    Url.decodeLossy_eq_self fun hmem => (isRouteChar_spec (hchars _ hmem)).1 rfl
  rw [hdecode, hdecode, and_self, ← Bool.not_eq_true,
    isRefused_iff (slash_notMem_of_mem_segments hs) hchars]

/-! ### The routes -/

/-- **The requests of a route that was accepted get past the path's check exactly if** no segment of
its prefix has, up to its first `;`, dots and nothing else. -/
theorem routes_reachable {env : ConfigEnv} {profile : Profile} {routes : List RouteConfig}
    (h : checkRoutes env profile routes = .ok ⟨⟩) : ∀ route ∈ routes,
      (∀ path, Under route path → isCleanPath path = true) ↔
        ∀ s ∈ segments route.pathPrefix.toList, ¬ OnlyDots s := by
  intro route hroute
  rw [forall_under_iff]
  exact isCleanPath_of_isRoutePrefix ((checkRoutes_eq_ok.mp h).1 route hroute).isRoutePrefix

/-- Hosts are as they are written, and none is an address. -/
def sampleEnv : ConfigEnv where
  rules := ⟨fun _ host => some host, fun _ _ => none⟩
  hostOf host := .domain (String.ofList host)
  debug text := "\"" ++ text ++ "\""
  displayNet _ := ""

theorem routes_reachable_api :
    let route : RouteConfig := ⟨"/api/v2", "http://localhost:10001"⟩
    checkRoutes sampleEnv .prod [route] = .ok ⟨⟩ ∧
      ((∀ path, Under route path → isCleanPath path = true) ↔
        ∀ s ∈ segments route.pathPrefix.toList, ¬ OnlyDots s) := by
  have haccepted : checkRoutes sampleEnv .prod [⟨"/api/v2", "http://localhost:10001"⟩] =
      .ok ⟨⟩ := by
    decide +kernel
  exact ⟨haccepted, routes_reachable haccepted _ List.mem_cons_self⟩

/-- A prefix that climbs for a server with path parameters starts, and none of its requests is
proxied. -/
theorem route_of_dots_unreachable :
    let route : RouteConfig := ⟨"/..;v=1", "http://localhost:10001"⟩
    checkRoutes sampleEnv .prod [route] = .ok ⟨⟩ ∧ Under route "/..;v=1".toList ∧
      isCleanPath "/..;v=1".toList = false :=
  ⟨by decide +kernel, .inl rfl, by decide +kernel⟩

end Bff

end WeaveAuth
