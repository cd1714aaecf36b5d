import LearningIndex.Batch
import Mathlib.Data.List.Basic
import Mathlib.Data.List.Nodup

/-!
# Batches lose nothing

The batches of a list put together are the list again, and none is empty or too long.
-/

namespace LearningIndex

variable {α : Type}

theorem batches_eq_cons {size : Nat} (positive : 0 < size) {items : List α} (filled : items ≠ []) :
    batches size items = items.take size :: batches size (items.drop size) := by
  obtain ⟨size, rfl⟩ := Nat.exists_eq_succ_of_ne_zero (Nat.ne_of_gt positive)
  cases items with
  | nil => exact absurd rfl filled
  | cons first rest => simp [batches]

@[simp]
theorem flatten_batches (size : Nat) (items : List α) : (batches size items).flatten = items := by
  induction items using batches.induct size with
  | case1 => simp [batches]
  | case2 first rest ih =>
      rw [batches, List.flatten_cons, ih]
      simp [List.take_append_drop]

theorem length_le_of_mem_batches {size : Nat} {items batch : List α}
    (member : batch ∈ batches size items) : batch.length ≤ max size 1 := by
  induction items using batches.induct size with
  | case1 => simp [batches] at member
  | case2 first rest ih =>
      rw [batches, List.mem_cons] at member
      rcases member with rfl | member
      · simp only [List.length_cons, List.length_take]
        omega
      · exact ih member

theorem ne_nil_of_mem_batches {size : Nat} {items batch : List α}
    (member : batch ∈ batches size items) : batch ≠ [] := by
  induction items using batches.induct size with
  | case1 => simp [batches] at member
  | case2 first rest ih =>
      rw [batches, List.mem_cons] at member
      rcases member with rfl | member
      · exact List.cons_ne_nil _ _
      · exact ih member

theorem mem_of_mem_batches {size : Nat} {items batch : List α} {item : α}
    (member : batch ∈ batches size items) (inside : item ∈ batch) : item ∈ items := by
  rw [← flatten_batches size items]
  exact List.mem_flatten.mpr ⟨batch, member, inside⟩

theorem exists_mem_batches {size : Nat} {items : List α} {item : α} (member : item ∈ items) :
    ∃ batch ∈ batches size items, item ∈ batch := by
  rw [← flatten_batches size items] at member
  exact List.mem_flatten.mp member

theorem pairwise_disjoint_batches {size : Nat} {items : List α} (distinct : items.Nodup) :
    (batches size items).Pairwise List.Disjoint := by
  rw [← flatten_batches size items] at distinct
  exact (List.nodup_flatten.mp distinct).2

theorem length_batches {size : Nat} (positive : 0 < size) (items : List α) :
    (batches size items).length = (items.length + size - 1) / size := by
  induction items using batches.induct size with
  | case1 =>
      simp only [batches, List.length_nil, Nat.zero_add]
      exact (Nat.div_eq_of_lt (by omega)).symm
  | case2 first rest ih =>
      rw [batches, List.length_cons, ih, List.length_drop, List.length_cons]
      by_cases fits : rest.length < size
      · rw [show rest.length - (size - 1) = 0 by omega, Nat.zero_add,
          Nat.div_eq_of_lt (show size - 1 < size by omega),
          show rest.length + 1 + size - 1 = rest.length + size by omega,
          Nat.add_div_right _ positive, Nat.div_eq_of_lt fits]
      · rw [← Nat.add_div_right _ positive]
        congr 1
        omega

@[simp]
theorem batches_eq_nil_iff {size : Nat} {items : List α} :
    batches size items = [] ↔ items = [] := by
  cases items <;> simp [batches]

end LearningIndex
