import LearningIndex.Indexing.Catalog
import Mathlib.Data.Int.Basic
import Mathlib.Data.List.Sort

/-!
# Integers in ascending order

The list of distinct ids of an index has the ids of its documents, in ascending order and each once.
-/

namespace LearningIndex
namespace Catalog

private theorem mem_loop {ids : List Int} {first item : Int} {kept : List Int} :
    item ∈ List.eraseRepsBy.loop (· == ·) first ids kept ↔
      item ∈ kept ∨ item = first ∨ item ∈ ids := by
  induction ids generalizing first kept with
  | nil => simp [List.eraseRepsBy.loop, or_comm]
  | cons next rest ih =>
      rw [List.eraseRepsBy.loop]
      cases equal : first == next with
      | true =>
          obtain rfl := eq_of_beq equal
          simp [ih]
      | false =>
          simp only [ih, List.mem_cons]
          tauto

/-- The accumulator of the loop holds smaller items than the rest, the largest first. -/
private theorem pairwise_loop {ids : List Int} {first : Int} {kept : List Int}
    (sorted : (first :: ids).Pairwise (· ≤ ·)) (smaller : ∀ item ∈ kept, item < first)
    (descending : kept.Pairwise (· > ·)) :
    (List.eraseRepsBy.loop (· == ·) first ids kept).Pairwise (· < ·) := by
  induction ids generalizing first kept with
  | nil =>
      rw [List.eraseRepsBy.loop, List.pairwise_reverse]
      exact List.pairwise_cons.mpr ⟨smaller, descending⟩
  | cons next rest ih =>
      rw [List.eraseRepsBy.loop]
      obtain ⟨least, later⟩ := List.pairwise_cons.mp sorted
      cases equal : first == next with
      | true =>
          obtain rfl := eq_of_beq equal
          exact ih later smaller descending
      | false =>
          have before : first < next :=
            lt_of_le_of_ne (least next List.mem_cons_self) (by simpa using equal)
          refine ih later ?_ (List.pairwise_cons.mpr ⟨smaller, descending⟩)
          intro item member
          rcases List.mem_cons.mp member with rfl | member
          · exact before
          · exact (smaller item member).trans before

@[simp]
theorem mem_ascending {ids : List Int} {id : Int} : id ∈ ascending ids ↔ id ∈ ids := by
  have order : id ∈ ids.mergeSort (fun left right => left ≤ right) ↔ id ∈ ids :=
    (List.mergeSort_perm ids _).mem_iff
  rw [ascending, List.eraseReps, ← order]
  cases ids.mergeSort (fun left right => left ≤ right) with
  | nil => simp [List.eraseRepsBy]
  | cons first rest => simp [List.eraseRepsBy, mem_loop]

theorem pairwise_ascending (ids : List Int) : (ascending ids).Pairwise (· < ·) := by
  have sorted : (ids.mergeSort fun left right => left ≤ right).Pairwise (· ≤ ·) := by
    have pairwise := @List.pairwise_mergeSort Int (fun left right => left ≤ right)
      (by simpa using fun a b c => Int.le_trans) (by simpa using Int.le_total) ids
    simpa using pairwise
  rw [ascending, List.eraseReps]
  revert sorted
  cases ids.mergeSort (fun left right => left ≤ right) with
  | nil => simp [List.eraseRepsBy]
  | cons first rest => exact fun sorted => pairwise_loop sorted (by simp) .nil

theorem nodup_ascending (ids : List Int) : (ascending ids).Nodup :=
  (pairwise_ascending ids).imp fun before => before.ne

end Catalog
end LearningIndex
