import LearningIndex.Proofs.Catalog.Enumeration
import LearningIndex.Proofs.Reconciliation.Independence

/-!
# What a run finds

The inventory of a state is what the enumerations of a run find there.  An id that is missing from
it occurs in no document, so the requests for missing entities pass over none of them.
-/

namespace LearningIndex

open Calendar (Instant)

namespace Catalog

theorem mem_keysOf_iff {κ : Type} [Key κ] [LawfulKey κ] {field : String}
    {documents : List Document} {id : κ} :
    id ∈ keysOf field documents ↔
      Key.ofJson (Key.toJson id) = .ok id ∧
        ∃ document ∈ documents, document.get? field = some (Key.toJson id) := by
  rw [keysOf, List.mem_filterMap]
  constructor
  · rintro ⟨document, member, read⟩
    obtain ⟨value, valued, success⟩ := Option.bind_eq_some_iff.mp read
    have readable : Key.ofJson value = .ok id := by
      cases outcome : (Key.ofJson value : Except Json.Fault κ) with
      | error fault => simp [outcome, Except.toOption] at success
      | ok other =>
          rw [outcome] at success
          rw [Option.some.inj success]
    obtain rfl := LawfulKey.toJson_of_ofJson readable
    exact ⟨readable, document, member, valued⟩
  · rintro ⟨readable, document, member, valued⟩
    exact ⟨document, member, by rw [valued, Option.bind_some, readable]; rfl⟩

theorem mem_integers_iff {field : String} {documents : List Document} {id : Int} :
    id ∈ ascending (keysOf field documents) ↔
      Json.isSigned64 id = true ∧
        ∃ document ∈ documents, document.get? field = some (.integer id) := by
  rw [mem_ascending, mem_keysOf_iff]
  simp only [Key.ofJson, Key.toJson, Json.expectSigned]
  cases Json.isSigned64 id <;> simp

theorem mem_texts_iff {field : String} {documents : List Document} {id : String} :
    id ∈ keysOf field documents ↔
      ∃ document ∈ documents, document.get? field = some (.string id) := by
  rw [mem_keysOf_iff]
  simp [Key.ofJson, Key.toJson, Json.expectString]

end Catalog

namespace Reconciliation

variable {σ : Type}

/-- The ids that the indexes hold. -/
def inventory (backend : Backend σ) (state : σ) : Inventory where
  materials := Catalog.ascending (Catalog.keysOf LearningMaterialIndexer.idField
    (backend.documents state LearningMaterialIndexer.indexName))
  courses := Catalog.ascending (Catalog.keysOf CurriculumIndexer.courseIdField
    (backend.documents state CurriculumIndexer.indexName))
  sessions := Catalog.ascending (Catalog.keysOf CurriculumIndexer.sessionIdField
    (backend.documents state CurriculumIndexer.indexName))
  descriptors := Catalog.keysOf MeshIndexer.idField
    (backend.documents state MeshIndexer.indexName)

/-- No document of the curriculum index was ingested in the second of the stamp or later. -/
def IngestedBefore (backend : Backend σ) (state : σ) (stamp : Instant) : Prop :=
  ∀ document ∈ backend.documents state CurriculumIndexer.indexName,
    ¬ document.source.IngestedSince CurriculumIndexer.ingestTimeField stamp

theorem isSigned64_of_mem_fileLearningMaterialIds {snapshot : Snapshot} (fits : snapshot.Fits)
    {id : Int} (member : id ∈ snapshot.fileLearningMaterialIds) : Json.isSigned64 id = true := by
  obtain ⟨material, inside, rfl⟩ := List.mem_map.mp member
  exact fits.materials material (List.mem_of_mem_filter inside)

/-- No message of a run passes over an entity, in the state that the run found.  Courses may be
there already; then it matters when they were ingested. -/
theorem isFresh_of_mem_plan {backend : Backend σ} {initial : σ} {snapshot : Snapshot}
    (fits : snapshot.Fits) {stamp : Instant} {message : IndexMessage}
    (before : message.target = CurriculumIndexer.indexName → IngestedBefore backend initial stamp)
    (member : message ∈ plan snapshot stamp (inventory backend initial)) :
    message.IsFresh backend initial := by
  rintro query asked value inside ⟨document, present, valued, recent⟩
  have planned := mem_plan_iff.mp member
  cases message with
  | indexLearningMaterials ids force =>
      obtain ⟨portion, rfl⟩ := planned
      obtain rfl := Option.mem_some_iff.mp asked
      obtain ⟨id, among, rfl⟩ := List.mem_map.mp inside
      have missing := mem_of_mem_batches portion among
      simp only [missingMaterials, absentFrom_eq_filter, List.mem_filter,
        decide_eq_true_eq] at missing
      exact missing.2 (Catalog.mem_integers_iff.mpr
        ⟨isSigned64_of_mem_fileLearningMaterialIds fits missing.1, document, present, valued⟩)
  | indexCourses ids time =>
      obtain ⟨_, rfl⟩ := planned
      obtain rfl := Option.mem_some_iff.mp asked
      exact before rfl document present recent
  | indexMeshDescriptors ids time =>
      obtain ⟨portion, rfl⟩ := planned
      obtain rfl := Option.mem_some_iff.mp asked
      obtain ⟨id, among, rfl⟩ := List.mem_map.mp inside
      have missing := mem_of_mem_batches portion among
      simp only [missingDescriptors, absentFrom_eq_filter, List.mem_filter,
        decide_eq_true_eq] at missing
      exact missing.2 (Catalog.mem_texts_iff.mpr ⟨document, present, valued⟩)
  | _ => cases asked

end Reconciliation
end LearningIndex
