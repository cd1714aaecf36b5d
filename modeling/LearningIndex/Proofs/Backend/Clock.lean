import LearningIndex.Proofs.Backend.Aggregation
import LearningIndex.Proofs.Calendar.Order
import Mathlib.Logic.Relation

/-!
# Backends with a clock

What comes later, what the clock shows and which times documents get when they are written.
-/

namespace LearningIndex

open Calendar (Instant)

namespace Backend

variable {σ : Type} {backend : Backend σ}

/-- The second state comes after the first one by some requests. -/
def Later (backend : Backend σ) : σ → σ → Prop :=
  Relation.ReflTransGen fun before after => ∃ request, after = (backend.serve request before).2

/-- The time that the clock shows. -/
def now (backend : Backend σ) (state : σ) : Instant :=
  (backend.serve .clock state).1

theorem later_run {α : Type} (backend : Backend σ) (task : Task α) (state : σ) :
    backend.Later state (task.run backend.serve state).2 := by
  induction task generalizing state with
  | done outcome => exact .refl
  | ask request next ih => exact .head ⟨request, rfl⟩ (ih _ _)

/-- The clock does not go back, and documents have the time at which they were written. -/
structure KeepsTime (backend : Backend σ) : Prop where
  onward : ∀ request state,
    (backend.now (backend.serve request state).2).isBefore (backend.now state) = false
  /-- Of documents that are written, those of the curriculum index get a time that is not before the
  second of writing, and the others keep the time that they bring. -/
  noted : ∀ operations state reply,
    (backend.serve (.engine (.bulk operations)) state).1 = .ok reply → reply.errors = false →
      ∀ earlier operation later, operations = earlier ++ operation :: later →
        (∀ other ∈ later, other.action ≠ operation.action) →
          ∃ fields, backend.stored (backend.serve (.engine (.bulk operations)) state).2
              operation.action.index operation.action.id = some fields ∧
            (operation.action.index = CurriculumIndexer.indexName →
              fields.IngestedSince Fields.timeField (backend.now state)) ∧
            (operation.action.index ≠ CurriculumIndexer.indexName →
              fields.get? Fields.timeField = operation.document.get? Fields.timeField)

theorem KeepsTime.now_later (keeps : backend.KeepsTime) {before after : σ}
    (later : backend.Later before after) :
    (backend.now after).isBefore (backend.now before) = false := by
  induction later with
  | refl => exact Calendar.Instant.isBefore_eq_false_iff.mpr le_rfl
  | tail _ step ih =>
      obtain ⟨request, rfl⟩ := step
      exact Calendar.Instant.isBefore_eq_false_trans ih (keeps.onward request _)

end Backend

namespace Memory

variable (files : String → Except IndexingError (Option ByteString))

theorem now_writes (operations : List BulkOperation) (memory : Memory) :
    (operations.foldl write memory).now = memory.now := by
  induction operations generalizing memory with
  | nil => rfl
  | cons operation rest ih => exact ih (memory.write operation)

theorem now_answer (call : EngineCall) (memory : Memory) :
    (memory.answer call).2.now = memory.now := by
  cases call with
  | search request =>
      dsimp only [answer]
      unfold search
      split <;> rfl
  | scroll scrollId keepAlive =>
      dsimp only [answer]
      unfold nextPage
      split <;> rfl
  | bulk operations => exact now_writes operations memory
  | deleteByQuery name query =>
      dsimp only [answer]
      unfold removeSelected
      split <;> rfl
  | _ => rfl

theorem keepsTime_backend : (backend files).KeepsTime where
  onward request memory := by
    have still : (backend files).now ((backend files).serve request memory).2 =
        (backend files).now memory := by
      cases request with
      | engine call => exact now_answer call memory
      | _ => rfl
    rw [still, Calendar.Instant.isBefore_eq_false_iff]
  noted := by
    rintro _ memory _ _ _ earlier operation later rfl last
    let before := earlier.foldl write memory
    have moment : before.now = memory.now := now_writes earlier memory
    have stored : (backend files).stored ((earlier ++ operation :: later).foldl write memory)
        operation.action.index operation.action.id = some (before.ingested operation) := by
      rw [List.foldl_append, List.foldl_cons, stored_writes_of_ne files last, stored_write,
        if_pos rfl]
    refine ⟨_, stored, fun curriculum => ?_, fun other => ?_⟩
    · rw [ingested, if_pos curriculum, Fields.ingestedSince_insert_bound_iff, moment]
      exact Calendar.Instant.isBefore_eq_false_iff.mpr le_rfl
    · rw [ingested, if_neg other]

end Memory

theorem Fields.IngestedSince.of_not_isBefore {fields : Fields} {field : String}
    {stamp later : Instant} (ingested : fields.IngestedSince field later)
    (order : later.isBefore stamp = false) : fields.IngestedSince field stamp := by
  obtain ⟨text, time, shown, timed, late⟩ := ingested
  exact ⟨text, time, shown, timed, Calendar.Instant.isBefore_eq_false_trans
    (Calendar.Instant.wholeSecond_isBefore order) late⟩

end LearningIndex
