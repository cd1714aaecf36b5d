import LearningIndex.Proofs.Catalog.Skipping
import LearningIndex.Proofs.Contents
import Mathlib.Logic.Relation

/-!
# What a message writes

A message that asks for entities passes over those that the index holds, builds the documents of the
others and writes them by one request.  Handled by itself it does so exactly: which entities it
passes over is a matter of the documents in the index alone, and so are the documents that it
writes, up to the time.
-/

namespace LearningIndex

open Calendar (Instant)

/-- An entity that a message asks for, as far as the index is concerned. -/
structure Subject where
  key : Json
  /-- What keeps its documents from being built. -/
  fault : Option IndexingError
  /-- Its documents, given the text of the time. -/
  documents : String → List Document

namespace Subject

def ofMaterial (indexer : LearningMaterialIndexer)
    (files : String → Except IndexingError (Option ByteString)) (material : LearningMaterial) :
    Subject :=
  match LearningMaterialIndexer.textOf files material with
  | .ok text => ⟨.integer material.id, none, fun _ => indexer.documents material text⟩
  | .error error => ⟨.integer material.id, some error, fun _ => []⟩

def ofCourse (composite : CompositeCourse) : Subject :=
  ⟨.integer composite.course.id, none, fun _ => composite.documents⟩

def ofDescriptor (descriptor : MeshDescriptor) : Subject :=
  ⟨.string descriptor.id, none, fun time => [descriptor.document time]⟩

/-- The documents of some subjects; the first fault is an error. -/
def gather (time : String) (subjects : List Subject) : Except IndexingError (List Document) :=
  match subjects.findSome? (·.fault) with
  | some error => .error error
  | none => .ok (subjects.flatMap (·.documents time))

@[simp]
theorem key_ofMaterial (indexer : LearningMaterialIndexer)
    (files : String → Except IndexingError (Option ByteString)) (material : LearningMaterial) :
    (ofMaterial indexer files material).key = .integer material.id := by
  unfold ofMaterial
  split <;> rfl

theorem gather_eq_ok_iff {time : String} {subjects : List Subject} {documents : List Document} :
    gather time subjects = .ok documents ↔
      (∀ subject ∈ subjects, subject.fault = none) ∧
        documents = subjects.flatMap (·.documents time) := by
  unfold gather
  split
  · rename_i error found
    obtain ⟨subject, member, faulty⟩ := List.exists_of_findSome?_eq_some found
    simp only [reduceCtorEq, false_iff, not_and]
    intro clean
    simp [clean subject member] at faulty
  · rename_i found
    rw [List.findSome?_eq_none_iff] at found
    rw [Except.ok.injEq, eq_comm]
    exact (and_iff_right found).symm

theorem exists_fault_of_gather {time : String} {subjects : List Subject} {error : IndexingError}
    (failed : gather time subjects = .error error) :
    ∃ subject ∈ subjects, subject.fault ≠ none := by
  by_contra clean
  simp only [not_exists, not_and, not_not] at clean
  rw [gather_eq_ok_iff.mpr ⟨clean, rfl⟩] at failed
  cases failed

theorem documentsWith_eq_gather (indexer : LearningMaterialIndexer)
    (files : String → Except IndexingError (Option ByteString)) (time : String)
    (materials : List LearningMaterial) :
    LearningMaterialIndexer.documentsWith files indexer materials =
      gather time (materials.map (ofMaterial indexer files)) := by
  induction materials with
  | nil => rfl
  | cons material rest ih =>
      rw [LearningMaterialIndexer.documentsWith, ih, List.map_cons]
      unfold gather
      rw [List.findSome?_cons]
      cases read : LearningMaterialIndexer.textOf files material with
      | error error => simp [ofMaterial, read, bind, Except.bind]
      | ok text =>
          cases (rest.map (ofMaterial indexer files)).findSome? (·.fault) <;>
            simp [ofMaterial, read, bind, Except.bind, pure, Except.pure]

theorem gather_map_ofCourse (time : String) (courses : List CompositeCourse) :
    gather time (courses.map ofCourse) = .ok (courses.flatMap (·.documents)) :=
  gather_eq_ok_iff.mpr ⟨by simp [ofCourse], by simp [ofCourse, List.flatMap_map]⟩

theorem gather_map_ofDescriptor (time : String) (descriptors : List MeshDescriptor) :
    gather time (descriptors.map ofDescriptor) = .ok (descriptors.map (·.document time)) :=
  gather_eq_ok_iff.mpr
    ⟨by simp [ofDescriptor], by rw [List.flatMap_map, List.map_eq_flatMap]; rfl⟩

/-- The documents of a subject are of the kind that the indexer of an index makes, and a field tells
which subject they are of.  The time shows in the time of ingestion only. -/
structure IsSound (subject : Subject) (index field : String) : Prop where
  belongs : ∀ time, ∀ document ∈ subject.documents time, Belongs index document
  keyed : ∀ time, ∀ document ∈ subject.documents time,
    document.get? field = some subject.key
  /-- The documents at different times differ in the time of ingestion only. -/
  timeless : ∀ time other,
    (subject.documents time).map (fun document => (document.id, document.source.lasting)) =
      (subject.documents other).map fun document => (document.id, document.source.lasting)

end Subject

namespace EntityKind

/-- The index that the entities of a kind are in. -/
def home : EntityKind → String
  | learningMaterial => LearningMaterialIndexer.indexName
  | course => CurriculumIndexer.indexName
  | meshDescriptor => MeshIndexer.indexName

/-- The field that tells which entity a document is about. -/
def keyField : EntityKind → String
  | learningMaterial => LearningMaterialIndexer.idField
  | course => CurriculumIndexer.courseIdField
  | meshDescriptor => MeshIndexer.idField

theorem home_injective : Function.Injective home := by
  intro first second same
  cases first <;> cases second <;>
    simp [home, LearningMaterialIndexer.indexName, CurriculumIndexer.indexName,
      MeshIndexer.indexName] at same ⊢

theorem keyField_ne_timeField (kind : EntityKind) : kind.keyField ≠ Fields.timeField := by
  cases kind <;>
    simp [keyField, LearningMaterialIndexer.idField, CurriculumIndexer.courseIdField,
      MeshIndexer.idField, Fields.timeField]

/-- Two documents of one index with the same id are about the same entity. -/
theorem keyField_eq_of_id_eq (kind : EntityKind) {first second : Document}
    (belongs : Belongs kind.home first) (belongs' : Belongs kind.home second)
    (same : first.id = second.id) : first.get? kind.keyField = second.get? kind.keyField := by
  cases kind with
  | learningMaterial =>
      obtain ⟨one, _, piece⟩ := belongs.piece rfl
      obtain ⟨other, _, piece'⟩ := belongs'.piece rfl
      rw [keyField, piece.field, piece'.field, piece.eq_of_id_eq piece' same]
  | course =>
      obtain ⟨one, _, _, _, about⟩ := belongs.about rfl
      obtain ⟨other, _, _, _, about'⟩ := belongs'.about rfl
      rw [keyField, about.course, about'.course, (about.eq_of_id_eq about' same).1]
  | meshDescriptor =>
      obtain ⟨one, entry⟩ := belongs.entry rfl
      obtain ⟨other, entry'⟩ := belongs'.entry rfl
      rw [keyField, entry.field, entry'.field, ← entry.named, ← entry'.named, same]

end EntityKind

namespace Entity

def key : Entity → Json
  | learningMaterial material => .integer material.id
  | course composite => .integer composite.course.id
  | meshDescriptor descriptor => .string descriptor.id

/-- The entity as far as the index is concerned. -/
def subject (indexer : LearningMaterialIndexer)
    (files : String → Except IndexingError (Option ByteString)) : Entity → Subject
  | learningMaterial material => .ofMaterial indexer files material
  | course composite => .ofCourse composite
  | meshDescriptor descriptor => .ofDescriptor descriptor

/-- The ids fit 64 bits with a sign. -/
def Fits : Entity → Prop
  | learningMaterial material => Json.isSigned64 material.id = true
  | course composite => Json.isSigned64 composite.course.id = true ∧
    ∀ session ∈ composite.sessions, Json.isSigned64 session.id = true
  | meshDescriptor _ => True

variable (indexer : LearningMaterialIndexer)
variable (files : String → Except IndexingError (Option ByteString))

@[simp]
theorem key_subject (entity : Entity) : (entity.subject indexer files).key = entity.key := by
  cases entity with
  | learningMaterial material => exact Subject.key_ofMaterial indexer files material
  | course composite => rfl
  | meshDescriptor descriptor => rfl

/-- Entities are indexed by documents that tell what they are about. -/
theorem isSound_subject (entity : Entity) (fits : entity.Fits) :
    (entity.subject indexer files).IsSound entity.kind.home entity.kind.keyField := by
  cases entity with
  | learningMaterial material =>
      have piece (time : String) :
          ∀ document ∈ (Subject.ofMaterial indexer files material).documents time,
            LearningMaterialIndexer.IsPieceOf document material.id := by
        intro document inside
        unfold Subject.ofMaterial at inside
        split at inside
        · obtain ⟨ordinal, chunk, rfl⟩ := LearningMaterialIndexer.mem_documents inside
          exact LearningMaterialIndexer.isPieceOf_chunkDocument material ordinal chunk
        · exact absurd inside List.not_mem_nil
      refine ⟨fun time document inside => belongs_of_isPieceOf fits (piece time document inside),
        fun time document inside => ?_, fun time other => ?_⟩
      · rw [key_subject]
        exact (piece time document inside).field
      · rw [subject]
        unfold Subject.ofMaterial
        split <;> rfl
  | course composite =>
      refine ⟨fun time document written => ?_, fun time document written => ?_, fun _ _ => rfl⟩ <;>
        obtain ⟨session, among, rfl⟩ := List.mem_map.mp written
      · exact belongs_of_isAbout fits.1 (fits.2 session among)
          (CompositeCourse.isAbout_document composite session)
      · exact CompositeCourse.get?_document_course composite session
  | meshDescriptor descriptor =>
      refine ⟨fun time document written => ?_, fun time document written => ?_,
        fun time other => ?_⟩
      · obtain rfl := List.mem_singleton.mp written
        exact belongs_of_isEntryOf (MeshDescriptor.isEntryOf_document descriptor time)
      · obtain rfl := List.mem_singleton.mp written
        exact MeshDescriptor.get?_document descriptor time
      · simp [subject, Subject.ofDescriptor, MeshDescriptor.lasting_document descriptor time other]

end Entity

namespace IndexMessage

/-- A message that asks for entities to be indexed. -/
def IsRequest : IndexMessage → Prop
  | indexLearningMaterials _ _ | indexCourses _ _ | indexMeshDescriptors _ _ => True
  | deleteLearningMaterial _ | deleteCourse _ | deleteSession _ | deleteMeshDescriptor _ => False

/-- The entities that a message asks for, in the order of the snapshot. -/
def subjects (snapshot : Snapshot) (indexer : LearningMaterialIndexer)
    (files : String → Except IndexingError (Option ByteString)) : IndexMessage → List Subject
  | indexLearningMaterials ids _ =>
    (snapshot.findLearningMaterials ids).map (.ofMaterial indexer files)
  | indexCourses ids _ => (snapshot.findCourses ids).map .ofCourse
  | indexMeshDescriptors ids _ => (snapshot.findMeshDescriptors ids).map .ofDescriptor
  | deleteLearningMaterial _ | deleteCourse _ | deleteSession _ | deleteMeshDescriptor _ => []

theorem keyField_eq_of_id_eq (message : IndexMessage) {first second : Document}
    (belongs : Belongs message.target first) (belongs' : Belongs message.target second)
    (same : first.id = second.id) : first.get? message.keyField = second.get? message.keyField := by
  cases message with
  | indexLearningMaterials ids force =>
      exact EntityKind.learningMaterial.keyField_eq_of_id_eq belongs belongs' same
  | deleteLearningMaterial id =>
      exact EntityKind.learningMaterial.keyField_eq_of_id_eq belongs belongs' same
  | indexCourses ids stamp => exact EntityKind.course.keyField_eq_of_id_eq belongs belongs' same
  | deleteCourse id => exact EntityKind.course.keyField_eq_of_id_eq belongs belongs' same
  | deleteSession id => exact EntityKind.course.keyField_eq_of_id_eq belongs belongs' same
  | indexMeshDescriptors ids stamp =>
      exact EntityKind.meshDescriptor.keyField_eq_of_id_eq belongs belongs' same
  | deleteMeshDescriptor id =>
      exact EntityKind.meshDescriptor.keyField_eq_of_id_eq belongs belongs' same

theorem isSound_of_mem_subjects {snapshot : Snapshot} (fits : snapshot.Fits)
    {indexer : LearningMaterialIndexer}
    {files : String → Except IndexingError (Option ByteString)} {message : IndexMessage}
    {subject : Subject} (member : subject ∈ message.subjects snapshot indexer files) :
    subject.IsSound message.target message.keyField := by
  cases message with
  | indexLearningMaterials ids force =>
      obtain ⟨material, found, rfl⟩ := List.mem_map.mp member
      exact Entity.isSound_subject indexer files (.learningMaterial material)
        (fits.materials material (List.mem_of_mem_filter found))
  | indexCourses ids stamp =>
      obtain ⟨composite, found, rfl⟩ := List.mem_map.mp member
      have inside := List.mem_of_mem_filter found
      exact Entity.isSound_subject indexer files (.course composite)
        ⟨fits.courses composite inside, fits.sessions composite inside⟩
  | indexMeshDescriptors ids stamp =>
      obtain ⟨descriptor, _, rfl⟩ := List.mem_map.mp member
      exact Entity.isSound_subject indexer files (.meshDescriptor descriptor) trivial
  | deleteLearningMaterial id => exact absurd member List.not_mem_nil
  | deleteCourse id => exact absurd member List.not_mem_nil
  | deleteSession id => exact absurd member List.not_mem_nil
  | deleteMeshDescriptor id => exact absurd member List.not_mem_nil

variable {σ : Type}

/-- The message passes over the entity with a key: the index holds it, recently enough if that
matters, and the message is not forced. -/
def PassesOver (message : IndexMessage) (backend : Backend σ) (state : σ) (key : Json) : Prop :=
  ∃ query ∈ message.skipQuery?,
    Catalog.Occurs backend state query.index query.field query.since key

section PassesOver

variable {backend : Backend σ} {state : σ} {key : Json}

theorem passesOver_learningMaterials_iff {ids : List Int} {force : Bool} :
    (indexLearningMaterials ids force).PassesOver backend state key ↔ force = false ∧
      Catalog.Occurs backend state LearningMaterialIndexer.indexName
        LearningMaterialIndexer.idField none key := by
  cases force <;> simp [PassesOver, skipQuery?]

theorem passesOver_courses_iff {ids : List Int} {stamp : Instant} :
    (indexCourses ids stamp).PassesOver backend state key ↔
      Catalog.Occurs backend state CurriculumIndexer.indexName CurriculumIndexer.courseIdField
        (some (CurriculumIndexer.ingestTimeField, stamp)) key := by
  simp [PassesOver, skipQuery?]

end PassesOver

open Classical in
/-- The entities that a message does not pass over. -/
noncomputable def pending (message : IndexMessage) (snapshot : Snapshot)
    (indexer : LearningMaterialIndexer) (backend : Backend σ) (state : σ) : List Subject :=
  (message.subjects snapshot indexer backend.files).filter fun subject =>
    ¬ message.PassesOver backend state subject.key

end IndexMessage

end LearningIndex
