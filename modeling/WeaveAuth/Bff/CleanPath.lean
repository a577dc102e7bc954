import Mathlib.Data.List.DropRight
import WeaveAuth.ForMathlib.PercentEncoding
import WeaveAuth.ForMathlib.Segments

/-!
# Paths that do not climb

`is_clean_path` of `bff/src/server/api/proxy.rs` judges a proxied path segment by segment, each
percent-decoded once and twice. An upstream may read the path as it is, or decode it as a whole,
once or twice, and then take some segments for "this directory" and for "the one above".

Decoding what is not UTF-8 gives U+FFFD, each time.

## Main results

* `clean_path_stays`: in each of the three readings a clean path has the segments it had, none of
  which any such upstream resolves, and no backslash and no control character

## What an upstream may do

`Reading` has the three ways to read a path. `Climbs` is every segment that some server takes for a
directory to leave or to stay in: dots, with spaces among them, before path parameters. The result
is for each reading and for every choice among these segments, so it does not depend on which server
the deployer runs. An upstream that decodes a third time is not covered, and neither does the code.

## Implementation notes

Decoding segment by segment and decoding the whole path are the same as long as no slash comes of it
(`segments_decodeLossy`), and a clean path has none. That is what makes the check, which works on
segments, say something about a server that decodes first and cuts afterwards.
-/

namespace WeaveAuth

namespace Bff

open Percent Utf8 WeaveAuth.Path

/-! ### The check -/

/-- `char::is_control`: the general category `Cc`. -/
def isControl (c : Char) : Bool := c.toNat < 0x20 || 0x7F ≤ c.toNat && c.toNat < 0xA0

/-- A name of only dots, before its path parameters and but for trailing dots and spaces. -/
def dotsOnly (text : List Char) : Bool :=
  let name := text.takeWhile (· ≠ ';')
  name.head? == some '.' && (name.rdropWhile fun c => c = '.' || c = ' ').isEmpty

/-- What `is_clean_path` refuses a segment for, once decoded and once more. -/
def isRefused (text : List Char) : Bool :=
  dotsOnly text || text.any (fun c => c = '/' || c = '\\') || text.any isControl

def isCleanPath (path : List Char) : Bool :=
  !(segments path).any fun segment =>
    let once := decodeLossy segment
    let twice := decodeLossy once
    [once, twice].any isRefused

/-- Some server may take the segment for `.` or `..`: cut at its first `;`, it starts with a dot
and consists of dots and spaces. -/
def Climbs (segment : List Char) : Prop :=
  (segment.takeWhile (· ≠ ';')).head? = some '.' ∧
    ∀ c ∈ segment.takeWhile (· ≠ ';'), c = '.' ∨ c = ' '

/-! ### What decoding does not change -/

theorem isPlainChar_of_isControl {c : Char} (h : isControl c = true) : IsPlainChar c := by
  simp only [isControl, Bool.or_eq_true, Bool.and_eq_true, decide_eq_true_eq] at h
  refine ⟨fun hc => ?_, ?_⟩
  · subst hc
    simp at h
  · rw [hexDigit]
    split_ifs <;> first | omega | rfl

/-- A plain character is not decoded away. -/
theorem mem_decodeLossy {c : Char} (hc : IsPlainChar c) {s : List Char} (h : c ∈ s) :
    c ∈ decodeLossy s := by
  obtain ⟨as, bs, rfl⟩ := List.append_of_mem h
  rw [decodeLossy_append_cons hc]
  exact List.mem_append_right _ List.mem_cons_self

theorem dotsOnly_iff {text : List Char} : dotsOnly text = true ↔ Climbs text := by
  simp [dotsOnly, Climbs, List.isEmpty_iff, List.rdropWhile_eq_nil_iff]

/-- Up to the first `;` that only plain characters come before, nothing is decoded. -/
theorem takeWhile_decodeLossy {s : List Char}
    (h : ∀ c ∈ s.takeWhile (· ≠ ';'), IsPlainChar c) :
    (decodeLossy s).takeWhile (· ≠ ';') = s.takeWhile (· ≠ ';') := by
  induction s with
  | nil => rfl
  | cons c s ih =>
    by_cases hc : c = ';'
    · subst hc
      rw [decodeLossy_cons (by decide)]
      simp
    · rw [List.takeWhile_cons_of_pos (by simpa using hc)] at h ⊢
      obtain ⟨hplain, hrest⟩ := List.forall_mem_cons.mp h
      rw [decodeLossy_cons hplain, List.takeWhile_cons_of_pos (by simpa using hc), ih hrest]

theorem dotsOnly_decodeLossy {s : List Char} (h : dotsOnly s = true) :
    dotsOnly (decodeLossy s) = true := by
  obtain ⟨hhead, hname⟩ := dotsOnly_iff.mp h
  have htake := takeWhile_decodeLossy (s := s) fun c hc => by
    rcases hname c hc with rfl | rfl <;> decide
  rw [dotsOnly_iff, Climbs, htake]
  exact ⟨hhead, hname⟩

/-- A segment that is refused is refused once decoded. -/
theorem isRefused_decodeLossy {s : List Char} (h : isRefused s = true) :
    isRefused (decodeLossy s) = true := by
  simp only [isRefused, Bool.or_eq_true, List.any_eq_true, decide_eq_true_eq] at h ⊢
  rcases h with (hdots | ⟨c, hmem, hc⟩) | ⟨c, hmem, hc⟩
  · exact Or.inl (Or.inl (dotsOnly_decodeLossy hdots))
  · refine Or.inl (Or.inr ⟨c, mem_decodeLossy ?_ hmem, hc⟩)
    rcases hc with rfl | rfl <;> decide
  · exact Or.inr ⟨c, mem_decodeLossy (isPlainChar_of_isControl hc) hmem, hc⟩

/-! ### The readings of a path -/

/-- How an upstream reads a path. -/
inductive Reading where
  | raw
  | once
  | twice

/-- The text it reads. -/
def Reading.read : Reading → List Char → List Char
  | .raw, s => s
  | .once, s => decodeLossy s
  | .twice, s => decodeLossy (decodeLossy s)

/-- Where no slash comes of it, a path may be decoded as a whole or segment by segment. -/
theorem segments_decodeLossy {path : List Char}
    (h : ∀ s ∈ segments path, '/' ∉ decodeLossy s) :
    segments (decodeLossy path) = (segments path).map decodeLossy := by
  have hjoin : decodeLossy path = join ((segments path).map decodeLossy) := by
    rw [join, ← decodeLossy_intercalate (by decide), ← join, join_segments]
  rw [hjoin, segments_join]
  · simpa using h
  · simpa using segments_ne_nil path

theorem isCleanPath_iff {path : List Char} : isCleanPath path = true ↔
    ∀ s ∈ segments path, isRefused (decodeLossy s) = false ∧
      isRefused (decodeLossy (decodeLossy s)) = false := by
  simp [isCleanPath]

/-- None of a clean path's segments is refused, however it is read. -/
theorem isRefused_read {path : List Char} (h : isCleanPath path = true) (r : Reading) :
    ∀ s ∈ segments path, isRefused (r.read s) = false := by
  intro s hs
  obtain ⟨honce, htwice⟩ := isCleanPath_iff.mp h s hs
  cases r with
  | raw =>
    rw [← Bool.not_eq_true] at honce ⊢
    exact fun hraw => honce (isRefused_decodeLossy hraw)
  | once => exact honce
  | twice => exact htwice

theorem slash_not_mem_of_isRefused {s : List Char} (h : isRefused s = false) : '/' ∉ s := by
  intro hmem
  have hrefused : isRefused s = true := by
    simp only [isRefused, Bool.or_eq_true, List.any_eq_true]
    exact Or.inl (Or.inr ⟨'/', hmem, by decide⟩)
  rw [h] at hrefused
  cases hrefused

/-- **Reading and splitting commute** on a clean path. -/
theorem segments_read {path : List Char} (h : isCleanPath path = true) (r : Reading) :
    segments (r.read path) = (segments path).map r.read := by
  have honce : segments (decodeLossy path) = (segments path).map decodeLossy :=
    segments_decodeLossy fun s hs => slash_not_mem_of_isRefused (isRefused_read h .once s hs)
  cases r with
  | raw => exact (List.map_id _).symm
  | once => exact honce
  | twice =>
    have htwice : ∀ s ∈ segments (decodeLossy path), '/' ∉ decodeLossy s := by
      rw [honce]
      intro text htext
      obtain ⟨s, hs, rfl⟩ := List.mem_map.mp htext
      exact slash_not_mem_of_isRefused (isRefused_read h .twice s hs)
    calc segments (decodeLossy (decodeLossy path))
        = (segments (decodeLossy path)).map decodeLossy := segments_decodeLossy htwice
      _ = (segments path).map (Reading.read .twice) := by
        rw [honce, List.map_map]
        rfl

/-- **A clean path does not climb**, whichever way an upstream reads it: it has as many segments as
it had, no backslash, no control character and no segment that could be taken for `.` or `..`. So an
upstream that takes only such segments for these resolves none, and what it reads starts with what
it reads of any beginning of the path. -/
theorem clean_path_stays {path : List Char} (h : isCleanPath path = true) (r : Reading) :
    (segments (r.read path)).length = (segments path).length ∧
    (∀ c ∈ r.read path, c ≠ '\\' ∧ isControl c = false) ∧
    (∀ s ∈ segments (r.read path), ¬Climbs s) ∧
    ∀ isHere isUp : List Char → Bool, (∀ s, isHere s = true ∨ isUp s = true → Climbs s) →
      resolve isHere isUp (segments (r.read path)) = segments (r.read path) ∧
      ∀ pre, pre <+: segments path →
        pre.map r.read <+: resolve isHere isUp (segments (r.read path)) := by
  have hsegments := segments_read h r
  have hclean : ∀ s ∈ segments (r.read path), isRefused s = false := by
    rw [hsegments]
    intro text htext
    obtain ⟨s, hs, rfl⟩ := List.mem_map.mp htext
    exact isRefused_read h r s hs
  have hstays : ∀ s ∈ segments (r.read path), ¬Climbs s := by
    intro s hs hclimbs
    have hrefused := hclean s hs
    rw [isRefused, dotsOnly_iff.mpr hclimbs] at hrefused
    cases hrefused
  refine ⟨by rw [hsegments, List.length_map], fun c hc => ?_, hstays, fun isHere isUp hdots => ?_⟩
  · rw [← join_segments (r.read path)] at hc
    rcases mem_join hc with rfl | ⟨s, hs, hc⟩
    · decide
    · have hrefused := hclean s hs
      simp only [isRefused, Bool.or_eq_false_iff, List.any_eq_false, Bool.or_eq_true,
        decide_eq_true_eq, Bool.not_eq_true] at hrefused
      obtain ⟨⟨-, hslash⟩, hcontrol⟩ := hrefused
      exact ⟨fun heq => hslash c hc (Or.inr heq), hcontrol c hc⟩
  · have hresolve : resolve isHere isUp (segments (r.read path)) = segments (r.read path) := by
      refine resolve_eq fun s hs => ?_
      have hnot : ¬(isHere s = true ∨ isUp s = true) := fun hdot => hstays s hs (hdots s hdot)
      simpa using hnot
    refine ⟨hresolve, fun pre hpre => ?_⟩
    rw [hresolve, hsegments]
    exact hpre.map r.read

/-- An escaped space, a path parameter and an escape of an escape, read twice. -/
theorem clean_path_stays_escapes :
    (segments (decodeLossy (decodeLossy "/api/a%20b;c/%2541.".toList))).length = 4 ∧
    ∀ s ∈ segments (decodeLossy (decodeLossy "/api/a%20b;c/%2541.".toList)), ¬Climbs s := by
  have hclean : isCleanPath "/api/a%20b;c/%2541.".toList = true := by
    decide +kernel
  obtain ⟨hlength, -, hstays, -⟩ := clean_path_stays hclean .twice
  exact ⟨hlength.trans (by decide +kernel), hstays⟩

end Bff

end WeaveAuth
