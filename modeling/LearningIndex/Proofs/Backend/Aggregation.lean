import LearningIndex.Proofs.Backend.Memory
import Mathlib.Data.List.Perm.Subperm

/-!
# Engines that count exactly

An engine that counts exactly has a bucket for each value of the field in the documents that pass
the filters of an aggregation, and answers with as many buckets as the body allows.  Which buckets
those are is not said.
-/

namespace LearningIndex

open Calendar (Instant)

namespace Backend

variable {σ : Type}

/-- The engine counts exactly, and drops buckets only beyond the number that is asked for. -/
structure Aggregates (backend : Backend σ) : Prop where
  kept : ∀ index field candidates since state, backend.SameDocuments state
    (backend.serve (.engine (.search ⟨index, .indexed field candidates since, none⟩)) state).2
  /-- Each value that is to be counted has one bucket, of which the answer has a number. -/
  counted : ∀ index field candidates since state aggregation,
    Aggregation.ofBody? (Query.indexed field candidates since).body field = some aggregation →
      ∃ answer, ∃ values : List Json,
        (backend.serve (.engine (.search ⟨index, .indexed field candidates since, none⟩)) state).1 =
            .ok answer ∧
          values.Nodup ∧
          (∀ value, value ∈ values ↔
            aggregation.Counts (backend.documents state index) value) ∧
          Reports answer field (values.take aggregation.limit)

/-- For no more candidates than an answer may have buckets none of those that occur is dropped. -/
theorem Aggregates.reports {backend : Backend σ} (aggregates : backend.Aggregates)
    (index field : String) {candidates : List Json} (short : candidates.length ≤ Query.answerLimit)
    (since : Option (String × Instant)) (state : σ) :
    ∃ answer keys,
      (backend.serve (.engine (.search ⟨index, .indexed field candidates since, none⟩)) state).1 =
          .ok answer ∧
        Reports answer field keys ∧
        ∀ key, key ∈ keys ↔ key ∈ candidates ∧
          ∃ document ∈ backend.documents state index, document.get? field = some key ∧
            document.source.IsRecent since := by
  obtain ⟨answer, values, answered, distinct, counts, reported⟩ :=
    aggregates.counted index field candidates since state _
      (Aggregation.ofBody?_indexed field candidates since)
  simp only [Aggregation.counts_ofCandidates_iff] at counts
  -- The values are different candidates, so there are no more of them than candidates.
  have few : values.length ≤ Query.answerLimit :=
    (List.subperm_of_subset distinct fun value member =>
      ((counts value).mp member).1).length_le.trans short
  refine ⟨answer, values, answered, ?_, counts⟩
  rwa [Aggregation.ofCandidates, List.take_of_length_le few] at reported

end Backend

theorem Memory.aggregates_backend (files : String → Except IndexingError (Option ByteString)) :
    (backend files).Aggregates where
  kept _ _ _ _ _ _ := rfl
  counted index field candidates since memory aggregation asked :=
    ⟨_, tally aggregation (memory.shelf index), rfl, nodup_tally _ _, fun _ => mem_tally_iff,
      reports_count memory index asked⟩

end LearningIndex
