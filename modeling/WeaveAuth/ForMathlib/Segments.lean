import Mathlib.Data.List.Basic

/-!
# The segments of a path

A path is a text, and its segments are what its slashes separate. `resolve` is what a server does
about the segments it takes for "this directory" and for "the one above": which ones it takes for
these is up to it.

## Main results

* `mem_join`, `mem_of_mem_segments`: the characters of a path and of a segment
* `segments_join`: a path made of segments has these
* `resolve_eq`: where there is nothing to resolve, nothing changes

## Implementation notes

`resolve` takes the two predicates, "here" and "up", as arguments and assumes nothing of them, not
even that no segment is both. An "up" at the root stays at the root.
-/

namespace WeaveAuth

namespace Path

/-- What the slashes separate. -/
def segments (path : List Char) : List (List Char) := path.splitOn '/'

/-- The path with these segments. -/
def join (segments : List (List Char)) : List Char := ['/'].intercalate segments

@[simp] theorem join_segments (path : List Char) : join (segments path) = path :=
  List.intercalate_splitOn _

theorem segments_ne_nil (path : List Char) : segments path ≠ [] := List.splitOn_ne_nil _ _

theorem segments_join {parts : List (List Char)} (hslash : ∀ s ∈ parts, '/' ∉ s)
    (hne : parts ≠ []) : segments (join parts) = parts :=
  List.splitOn_intercalate _ hslash hne

/-- What an intercalation contains. -/
theorem mem_intercalate {α : Type*} {sep : List α} {parts : List (List α)} {a : α}
    (h : a ∈ List.intercalate sep parts) : a ∈ sep ∨ ∃ s ∈ parts, a ∈ s := by
  induction parts with
  | nil => cases h
  | cons s parts ih =>
    cases parts with
    | nil =>
      rw [List.intercalate_singleton] at h
      exact Or.inr ⟨s, List.mem_singleton_self s, h⟩
    | cons s' parts =>
      rw [List.intercalate_cons_cons, List.append_assoc] at h
      rcases List.mem_append.mp h with h | h
      · exact Or.inr ⟨s, List.mem_cons_self, h⟩
      · rcases List.mem_append.mp h with h | h
        · exact Or.inl h
        · exact (ih h).imp_right fun ⟨s'', hs'', hc⟩ => ⟨s'', List.mem_cons_of_mem _ hs'', hc⟩

theorem mem_intercalate_of_mem {α : Type*} {sep s : List α} {parts : List (List α)} {a : α}
    (hs : s ∈ parts) (ha : a ∈ s) : a ∈ List.intercalate sep parts := by
  induction parts with
  | nil => cases hs
  | cons first parts ih =>
    cases parts with
    | nil =>
      obtain rfl := List.mem_singleton.mp hs
      rwa [List.intercalate_singleton]
    | cons second parts =>
      rw [List.intercalate_cons_cons]
      rcases List.mem_cons.mp hs with rfl | hs
      · exact List.mem_append_left _ (List.mem_append_left _ ha)
      · exact List.mem_append_right _ (ih hs)

/-- What is between two separators is part of the whole. -/
theorem mem_of_mem_splitOn {α : Type*} [BEq α] [LawfulBEq α] {sep a : α} {l s : List α}
    (hs : s ∈ l.splitOn sep) (ha : a ∈ s) : a ∈ l := by
  have hmem : a ∈ List.intercalate [sep] (l.splitOn sep) := mem_intercalate_of_mem hs ha
  rwa [List.intercalate_splitOn] at hmem

theorem notMem_of_mem_splitOn {α : Type*} [BEq α] [LawfulBEq α] {sep : α} {l s : List α}
    (hs : s ∈ l.splitOn sep) : sep ∉ s := by
  induction l generalizing s with
  | nil =>
    obtain rfl := List.mem_singleton.mp hs
    exact List.not_mem_nil
  | cons a l ih =>
    rw [List.splitOn_cons_eq_if_modifyHead] at hs
    split_ifs at hs with ha
    · rcases List.mem_cons.mp hs with rfl | hs
      · exact List.not_mem_nil
      · exact ih hs
    · cases hparts : l.splitOn sep with
      | nil => exact absurd hparts (List.splitOn_ne_nil _ _)
      | cons first others =>
        rw [hparts] at ih hs
        rcases List.mem_cons.mp hs with rfl | hs
        · refine List.mem_cons.not.mpr (not_or.mpr ⟨?_, ih List.mem_cons_self⟩)
          rintro rfl
          exact ha (beq_self_eq_true _)
        · exact ih (List.mem_cons_of_mem _ hs)

/-- A character of a path is a slash or in one of its segments. -/
theorem mem_join {parts : List (List Char)} {c : Char} (h : c ∈ join parts) :
    c = '/' ∨ ∃ s ∈ parts, c ∈ s :=
  (mem_intercalate h).imp_left List.mem_singleton.mp

theorem segments_cons_slash (path : List Char) : segments ('/' :: path) = [] :: segments path := by
  rw [segments, List.splitOn_cons_eq_if_modifyHead, if_pos (beq_self_eq_true _)]
  rfl

theorem segments_cons {c : Char} (hc : c ≠ '/') (path : List Char) :
    segments (c :: path) = (segments path).modifyHead (List.cons c) := by
  rw [segments, List.splitOn_cons_eq_if_modifyHead, if_neg (by simpa using hc)]
  rfl

/-- Splitting a text whose characters are changed, but no slashes. -/
theorem segments_map {f : Char → Char} (hf : ∀ c, f c = '/' ↔ c = '/') (path : List Char) :
    segments (path.map f) = (segments path).map (List.map f) := by
  induction path with
  | nil => rfl
  | cons c path ih =>
    rw [List.map_cons]
    by_cases hc : c = '/'
    · rw [(hf c).mpr hc, hc, segments_cons_slash, segments_cons_slash, ih]
      rfl
    · rw [segments_cons hc, segments_cons (mt (hf c).mp hc), ih]
      cases hsegments : segments path with
      | nil => exact absurd hsegments (segments_ne_nil path)
      | cons s rest => rfl

theorem segments_concat_slash (path : List Char) :
    segments (path ++ ['/']) = segments path ++ [[]] := by
  rw [segments, List.splitOn_append_cons_self]
  rfl

/-- A character of a segment is one of the path. -/
theorem mem_of_mem_segments {path s : List Char} (hs : s ∈ segments path) {c : Char} (hc : c ∈ s) :
    c ∈ path := mem_of_mem_splitOn hs hc

theorem slash_notMem_of_mem_segments {path s : List Char} (hs : s ∈ segments path) : '/' ∉ s :=
  notMem_of_mem_splitOn hs

/-! ### Dot segments -/

section Resolve

variable (isHere isUp : List Char → Bool)

/-- Resolve the segments, onto those that came before, the last first: one that says "here" goes,
and one that says "up" takes the one before it along. -/
def resolveOnto : List (List Char) → List (List Char) → List (List Char)
  | before, [] => before.reverse
  | before, s :: rest =>
    if isUp s then resolveOnto before.tail rest
    else if isHere s then resolveOnto before rest
    else resolveOnto (s :: before) rest

def resolve (parts : List (List Char)) : List (List Char) := resolveOnto isHere isUp [] parts

variable {isHere isUp}

theorem resolveOnto_eq {parts : List (List Char)}
    (h : ∀ s ∈ parts, isHere s = false ∧ isUp s = false) (before : List (List Char)) :
    resolveOnto isHere isUp before parts = before.reverse ++ parts := by
  induction parts generalizing before with
  | nil => simp [resolveOnto]
  | cons s parts ih =>
    obtain ⟨hhere, hup⟩ := h s List.mem_cons_self
    rw [resolveOnto, hup, hhere, if_neg Bool.false_ne_true, if_neg Bool.false_ne_true,
      ih fun s' hs' => h s' (List.mem_cons_of_mem _ hs')]
    simp

theorem resolveOnto_concat {s : List Char} (hhere : isHere s = false) (hup : isUp s = false)
    (parts before : List (List Char)) : resolveOnto isHere isUp before (parts ++ [s]) =
      resolveOnto isHere isUp before parts ++ [s] := by
  induction parts generalizing before with
  | nil => simp [resolveOnto, hhere, hup]
  | cons s' parts ih =>
    rw [List.cons_append, resolveOnto, resolveOnto]
    split_ifs <;> exact ih _

/-- What is left was there, and says neither "here" nor "up". -/
theorem of_mem_resolveOnto {parts before : List (List Char)} {s : List Char}
    (h : s ∈ resolveOnto isHere isUp before parts) :
    s ∈ before ∨ s ∈ parts ∧ isHere s = false ∧ isUp s = false := by
  induction parts generalizing before with
  | nil => exact .inl (List.mem_reverse.mp h)
  | cons s' parts ih =>
    rw [resolveOnto] at h
    split_ifs at h with hup hhere
    · exact (ih h).imp List.mem_of_mem_tail (.imp_left (List.mem_cons_of_mem _))
    · exact (ih h).imp_right (.imp_left (List.mem_cons_of_mem _))
    · rcases ih h with hmem | ⟨hmem, hs⟩
      · rcases List.mem_cons.mp hmem with rfl | hmem
        · exact .inr ⟨List.mem_cons_self, by simpa using hhere, by simpa using hup⟩
        · exact .inl hmem
      · exact .inr ⟨List.mem_cons_of_mem _ hmem, hs⟩

/-- **Where there is nothing to resolve, nothing changes.** -/
theorem resolve_eq {parts : List (List Char)}
    (h : ∀ s ∈ parts, isHere s = false ∧ isUp s = false) : resolve isHere isUp parts = parts := by
  rw [resolve, resolveOnto_eq h]
  rfl

end Resolve

end Path

end WeaveAuth
