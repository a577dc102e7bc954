import Mathlib.Data.List.Sort
import Mathlib.Order.Defs.LinearOrder

/-!
# The best of a list

A list sorted by falling rank, stably, and the first of it that has a property.

## Main results

* `isBest_of_find?`: the first is the best of the list, and the earliest of these

## Implementation notes

`List.insertionSort` is stable, and so is what Rust's `sort_by` promises, so the two give one list
for any order that is total.
-/

namespace WeaveAuth

namespace Ranking

variable {α Q : Type} [LinearOrder Q] (rank : α → Q)

/-- Best first; what is equally good stays in its order. -/
def bestFirst (l : List α) : List α := l.insertionSort fun a b => rank b ≤ rank a

/-- The best of the list that has the property, the earliest on ties. -/
def IsBest (p : α → Prop) (l : List α) (a : α) : Prop :=
  ∃ before after, l = before ++ a :: after ∧ p a ∧
    (∀ b ∈ before, p b → rank b < rank a) ∧ ∀ b ∈ after, p b → rank b ≤ rank a

@[simp] theorem mem_bestFirst {l : List α} {a : α} : a ∈ bestFirst rank l ↔ a ∈ l :=
  List.mem_insertionSort _

theorem pairwise_bestFirst (l : List α) :
    (bestFirst rank l).Pairwise fun a b => rank b ≤ rank a := by
  have : Std.Total fun a b => rank b ≤ rank a := ⟨fun a b => le_total (rank b) (rank a)⟩
  have : IsTrans α fun a b => rank b ≤ rank a := ⟨fun a b c hab hbc => hbc.trans hab⟩
  exact List.pairwise_insertionSort _ l

/-- What is equally good stays in its order. -/
theorem filter_bestFirst {p : α → Bool} {v : Q} (h : ∀ a, p a = true → rank a = v) (l : List α) :
    (bestFirst rank l).filter p = l.filter p := by
  have : Std.Total fun a b => rank b ≤ rank a := ⟨fun a b => le_total (rank b) (rank a)⟩
  have : IsTrans α fun a b => rank b ≤ rank a := ⟨fun a b c hab hbc => hbc.trans hab⟩
  have hsorted : (l.filter p).Pairwise fun a b => rank b ≤ rank a :=
    List.pairwise_of_forall_mem_list fun a ha b hb => by
      rw [h a (List.mem_filter.mp ha).2, h b (List.mem_filter.mp hb).2]
  have hsub : (l.filter p).Sublist (bestFirst rank l) :=
    List.sublist_insertionSort hsorted List.filter_sublist
  have hsub' : (l.filter p).Sublist ((bestFirst rank l).filter p) := by
    simpa using hsub.filter p
  have hlength : (l.filter p).length = ((bestFirst rank l).filter p).length :=
    ((List.perm_insertionSort _ l).filter p).length_eq.symm
  exact (hsub'.eq_of_length hlength).symm

variable {rank}

theorem isBest_of_find? {p : α → Bool} {l : List α} {a : α}
    (h : (bestFirst rank l).find? p = some a) : IsBest rank (p · = true) l a := by
  obtain ⟨ha, better, worse, hsplit, hbetter⟩ := List.find?_eq_some_iff_append.mp h
  have hbetter : ∀ b ∈ better, p b = false := by simpa using hbetter
  have hmost : ∀ b ∈ l, p b = true → rank b ≤ rank a := by
    intro b hb hpb
    rw [← mem_bestFirst rank, hsplit, List.mem_append, List.mem_cons] at hb
    rcases hb with hb | rfl | hb
    · rw [hbetter b hb] at hpb
      cases hpb
    · exact le_refl _
    · have hsorted := pairwise_bestFirst rank l
      rw [hsplit] at hsorted
      exact (List.pairwise_cons.mp (List.pairwise_append.mp hsorted).2.1).1 b hb
  -- among the equally good, the sorted list and the list have the same first
  have hfirst : l.find? (fun b => p b && rank b = rank a) = some a := by
    have hfilter := filter_bestFirst rank (p := fun b => p b && rank b = rank a)
      (fun b hb => by simpa using (Bool.and_eq_true_iff.mp hb).2) l
    have hnone : better.filter (fun b => p b && rank b = rank a) = [] :=
      List.filter_eq_nil_iff.mpr fun b hb => by simp [hbetter b hb]
    rw [← List.head?_filter, ← hfilter, hsplit, List.filter_append, hnone]
    simp [ha]
  obtain ⟨-, before, after, hl, hbefore⟩ := List.find?_eq_some_iff_append.mp hfirst
  refine ⟨before, after, hl, ha, fun b hb hpb => ?_, fun b hb => hmost b ?_⟩
  · have hne : rank b ≠ rank a := by simpa [hpb] using hbefore b hb
    exact lt_of_le_of_ne (hmost b (hl ▸ List.mem_append_left _ hb) hpb) hne
  · exact hl ▸ List.mem_append_right _ (List.mem_cons_of_mem _ hb)

end Ranking

end WeaveAuth
