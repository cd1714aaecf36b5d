import LearningIndex.Indexing.Handler
import LearningIndex.Proofs.Catalog.Changes
import LearningIndex.Proofs.Document.Pieces
import LearningIndex.Proofs.Reconciliation.Plan
import Mathlib.Data.List.Flatten

/-!
# The effects of messages

A message that asks for entities which the index does not hold, or holds from before the stamp,
writes their documents when it is handled well, and a message that asks for a removal removes.  What
happens to other indexes meanwhile is of no account.
-/

namespace LearningIndex

open Calendar (Instant)

/-- The ids fit 64 bits with a sign, as ids of the learning platform do. -/
structure Snapshot.Fits (snapshot : Snapshot) : Prop where
  materials : ∀ material ∈ snapshot.learningMaterials, Json.isSigned64 material.id = true
  courses : ∀ composite ∈ snapshot.courses, Json.isSigned64 composite.course.id = true
  sessions : ∀ composite ∈ snapshot.courses, ∀ session ∈ composite.sessions,
    Json.isSigned64 session.id = true

namespace Snapshot

/-- The documents of some courses. -/
def courseDocuments (snapshot : Snapshot) (ids : List Int) : List Document :=
  (snapshot.findCourses ids).flatMap (·.documents)

/-- The documents of some descriptors, up to the time of ingestion. -/
def descriptorDocuments (snapshot : Snapshot) (ids : List String) : List Document :=
  (snapshot.findMeshDescriptors ids).map (·.document "")

theorem nodup_courseDocuments {snapshot : Snapshot}
    (distinct : snapshot.DistinctIn CurriculumIndexer.indexName) (ids : List Int) :
    ((snapshot.courseDocuments ids).map (·.id)).Nodup := by
  have pairs : (snapshot.courseDocuments ids).map (·.id) =
      ((snapshot.findCourses ids).flatMap fun composite =>
        composite.sessions.map fun session => (session.id, composite.course.id)).map
          fun pair => CompositeCourse.documentId pair.2 pair.1 := by
    simp [courseDocuments, CompositeCourse.documents, List.map_flatMap, Function.comp_def]
  rw [pairs]
  refine List.Nodup.map ?_ ?_
  · rintro ⟨first, course⟩ ⟨second, other⟩ same
    obtain ⟨rfl, rfl⟩ := CompositeCourse.documentId_inj.mp same
    rfl
  · refine List.Nodup.of_map (·.1) ((distinct.sessions rfl).sublist (List.Sublist.map _ ?_))
    exact List.Sublist.flatMap List.filter_sublist _

end Snapshot

/-- Values of a field that are looked for in an index, in documents that are recent enough. -/
structure SkipQuery where
  index : String
  field : String
  values : List Json
  since : Option (String × Instant)

namespace IndexMessage

/-- The index that a message is about. -/
def target : IndexMessage → String
  | indexLearningMaterials _ _ | deleteLearningMaterial _ => LearningMaterialIndexer.indexName
  | indexCourses _ _ | deleteCourse _ | deleteSession _ => CurriculumIndexer.indexName
  | indexMeshDescriptors _ _ | deleteMeshDescriptor _ => MeshIndexer.indexName

theorem exists_of_target_materials {message : IndexMessage}
    (about : message.target = LearningMaterialIndexer.indexName) :
    (∃ ids force, message = .indexLearningMaterials ids force) ∨
      ∃ id, message = .deleteLearningMaterial id := by
  cases message <;> simp [target, LearningMaterialIndexer.indexName,
    CurriculumIndexer.indexName, MeshIndexer.indexName] at about ⊢

theorem exists_of_target_curriculum {message : IndexMessage}
    (about : message.target = CurriculumIndexer.indexName) :
    (∃ ids stamp, message = .indexCourses ids stamp) ∨ (∃ id, message = .deleteCourse id) ∨
      ∃ id, message = .deleteSession id := by
  cases message <;> simp [target, LearningMaterialIndexer.indexName,
    CurriculumIndexer.indexName, MeshIndexer.indexName] at about ⊢

theorem exists_of_target_mesh {message : IndexMessage}
    (about : message.target = MeshIndexer.indexName) :
    (∃ ids stamp, message = .indexMeshDescriptors ids stamp) ∨
      ∃ id, message = .deleteMeshDescriptor id := by
  cases message <;> simp [target, LearningMaterialIndexer.indexName,
    CurriculumIndexer.indexName, MeshIndexer.indexName] at about ⊢

/-- What a message does that is handled well.  Nothing is written of learning materials of which
some file cannot be read. -/
def effect (snapshot : Snapshot) (indexer : LearningMaterialIndexer)
    (files : String → Except IndexingError (Option ByteString)) : IndexMessage → Effect
  | indexLearningMaterials ids _ =>
    .write LearningMaterialIndexer.indexName
      ((LearningMaterialIndexer.documentsWith files indexer
        (snapshot.findLearningMaterials ids)).toOption.getD [])
  | indexCourses ids _ => .write CurriculumIndexer.indexName (snapshot.courseDocuments ids)
  | indexMeshDescriptors ids _ => .write MeshIndexer.indexName (snapshot.descriptorDocuments ids)
  | deleteLearningMaterial id =>
    .remove LearningMaterialIndexer.indexName LearningMaterialIndexer.idField (.integer id)
  | deleteCourse id =>
    .remove CurriculumIndexer.indexName CurriculumIndexer.courseIdField (.integer id)
  | deleteSession id =>
    .remove CurriculumIndexer.indexName CurriculumIndexer.sessionIdField (.integer id)
  | deleteMeshDescriptor id => .remove MeshIndexer.indexName MeshIndexer.idField (.string id)

/-- The files of the learning materials that a forced request asks for can be read. -/
def IsReadable (snapshot : Snapshot) (indexer : LearningMaterialIndexer)
    (files : String → Except IndexingError (Option ByteString)) : IndexMessage → Prop
  | indexLearningMaterials ids true =>
    ∃ documents, LearningMaterialIndexer.documentsWith files indexer
      (snapshot.findLearningMaterials ids) = .ok documents
  | _ => True

/-- The query by which the handling of a message finds out what to pass over; a forced request has
none. -/
def skipQuery? : IndexMessage → Option SkipQuery
  | indexLearningMaterials ids force =>
    if force then none
    else some ⟨LearningMaterialIndexer.indexName, LearningMaterialIndexer.idField,
      ids.map .integer, none⟩
  | indexCourses ids stamp =>
    some ⟨CurriculumIndexer.indexName, CurriculumIndexer.courseIdField, ids.map .integer,
      some (CurriculumIndexer.ingestTimeField, stamp)⟩
  | indexMeshDescriptors ids stamp =>
    some ⟨MeshIndexer.indexName, MeshIndexer.idField, ids.map .string,
      some (MeshIndexer.ingestTimeField, stamp)⟩
  | deleteLearningMaterial _ | deleteCourse _ | deleteSession _ | deleteMeshDescriptor _ => none

/-- No entity that a message asks for is passed over. -/
def IsFresh {σ : Type} (backend : Backend σ) (state : σ) (message : IndexMessage) : Prop :=
  ∀ query ∈ message.skipQuery?, ∀ value ∈ query.values,
    ¬ Catalog.Occurs backend state query.index query.field query.since value

/-- The field that tells which entity a document is about, in the index of a message. -/
def keyField : IndexMessage → String
  | indexLearningMaterials _ _ | deleteLearningMaterial _ => LearningMaterialIndexer.idField
  | indexCourses _ _ | deleteCourse _ | deleteSession _ => CurriculumIndexer.courseIdField
  | indexMeshDescriptors _ _ | deleteMeshDescriptor _ => MeshIndexer.idField

theorem keyField_ne_timeField (message : IndexMessage) : message.keyField ≠ Fields.timeField := by
  cases message <;>
    simp [keyField, LearningMaterialIndexer.idField, CurriculumIndexer.courseIdField,
      MeshIndexer.idField, Fields.timeField]

/-- What is passed over is looked for in the index of the message, by its key. -/
theorem skipQuery?_about {message : IndexMessage} {query : SkipQuery}
    (asked : query ∈ message.skipQuery?) :
    query.index = message.target ∧ query.field = message.keyField := by
  cases message with
  | indexLearningMaterials ids force =>
      cases force <;> simp [skipQuery?] at asked
      exact asked ▸ ⟨rfl, rfl⟩
  | indexCourses ids stamp => exact Option.mem_some.mp asked ▸ ⟨rfl, rfl⟩
  | indexMeshDescriptors ids stamp => exact Option.mem_some.mp asked ▸ ⟨rfl, rfl⟩
  | _ => simp [skipQuery?] at asked

end IndexMessage

theorem expectAll_map {α : Type} {kind : EntityKind} {accept : Entity → Option α}
    (entity : α → Entity) (accepts : ∀ item, accept (entity item) = some item) (items : List α) :
    expectAll kind accept (items.map entity) = .ok items := by
  induction items with
  | nil => rfl
  | cons item rest ih =>
      rw [List.map_cons, expectAll, accepts, ih]
      rfl

theorem filter_unskipped {α κ : Type} [DecidableEq κ] {skip : SkipSet κ} {items : List α}
    {key : α → κ} (unskipped : ∀ item ∈ items, skip.contains (key item) = false) :
    (items.filter fun item => !skip.contains (key item)) = items :=
  List.filter_eq_self.mpr fun item member => by simp [unskipped item member]

section Ensures

variable {σ : Type} {backend : Backend σ}

/-- How the handling of a message ends: the effect takes place if nothing is passed over and all
goes well, and it goes well if neither the engine nor a file fails. -/
structure HandlingEnds (backend : Backend σ) (fresh : Prop) (effect : Effect) (state : σ)
    (outcome : Except IndexingError Bool) (after : σ) : Prop where
  applied : fresh → outcome = .ok true ∨ backend.NeverFails → effect.Applied backend state after
  succeeds : backend.NeverFails → (∀ path, ∃ text, backend.files path = .ok text) →
    outcome = .ok true

theorem HandlingEnds.of_fresh {fresh fewer : Prop} {effect : Effect} {state : σ}
    {outcome : Except IndexingError Bool} {after : σ}
    (ends : HandlingEnds backend fresh effect state outcome after) (stronger : fewer → fresh) :
    HandlingEnds backend fewer effect state outcome after where
  applied unskipped := ends.applied (stronger unskipped)
  succeeds := ends.succeeds

/-- An error before anything is written, which no engine that never fails causes. -/
theorem handlingEnds_error {fresh : Prop} {effect : Effect} {begun after : σ}
    {error : IndexingError} (impossible : ¬ backend.NeverFails) :
    HandlingEnds backend fresh effect begun (.error error) after where
  applied _ well := absurd (well.resolve_left (by simp)) impossible
  succeeds never := absurd never impossible

/-- Writing at the end of the handling of a message, after requests that change nothing. -/
theorem handlingEnds_of_changeEnds {fresh sensible : Prop} {effect planned : Effect}
    {begun state : σ} {outcome : Except IndexingError Bool} {after : σ}
    (same : backend.SameDocuments begun state) (possible : fresh → sensible)
    (full : fresh → effect.Applied backend state after → planned.Applied backend state after)
    (ends : Catalog.ChangeEnds backend sensible effect state outcome after) :
    HandlingEnds backend fresh planned begun outcome after where
  applied unskipped well := by
    have success : outcome = .ok true := well.elim id ends.succeeds
    exact (full unskipped (ends.applied (possible unskipped) success)).of_sameDocuments same
      (backend.sameDocuments_refl after)
  succeeds never _ := ends.succeeds never

theorem Catalog.outside_file (exact : backend.Exact) (index path : String) (state : σ) :
    Outside backend index state (backend.serve (.file path) state).2 :=
  exact.steady (.file path) (fun _ _ => id) id state

namespace LearningMaterialIndexer

section Reading

variable {rely guarantee : σ → σ → Prop}

theorem fileText_ensures (exact : backend.Exact) (tolerates : backend.Tolerates rely)
    (reads : ∀ path state, guarantee state (backend.serve (.file path) state).2)
    (material : LearningMaterial) (state : σ) :
    Program.Ensures backend.serve rely guarantee
      (fun outcome after => rely state after ∧ outcome = textOf backend.files material)
      (fileText material) state := by
  unfold fileText textOf
  cases material.relativePath with
  | none => exact fun after moved => ⟨moved, rfl⟩
  | some path =>
      simp only
      intro later moved
      have asked := tolerates.trans moved
        (tolerates.calm (exact.sameDocuments (.file (textPath path)) (fun _ => id) later))
      refine ⟨reads (textPath path) later, ?_⟩
      rw [exact.file later (textPath path)]
      cases backend.files (textPath path) with
      | error error => exact fun after last => ⟨tolerates.trans asked last, rfl⟩
      | ok found => exact fun after last => ⟨tolerates.trans asked last, rfl⟩

theorem documentsOf_ensures (exact : backend.Exact) (tolerates : backend.Tolerates rely)
    (reads : ∀ path state, guarantee state (backend.serve (.file path) state).2)
    (indexer : LearningMaterialIndexer) (materials : List LearningMaterial) (state : σ) :
    Program.Ensures backend.serve rely guarantee
      (fun outcome after => rely state after ∧
        outcome = documentsWith backend.files indexer materials)
      (indexer.documentsOf materials) state := by
  induction materials generalizing state with
  | nil => exact fun after moved => ⟨moved, rfl⟩
  | cons material rest ih =>
      refine Program.Ensures.andThen tolerates.refl
        ((fileText_ensures exact tolerates reads material state).mono ?_)
      rintro outcome after ⟨moved, rfl⟩
      rw [documentsWith]
      cases textOf backend.files material with
      | error error => exact ⟨moved, rfl⟩
      | ok text =>
          refine Program.Ensures.andThen tolerates.refl ((ih after).mono ?_)
          rintro outcome final ⟨more, rfl⟩
          have both := tolerates.trans moved more
          cases documentsWith backend.files indexer rest with
          | error error => exact ⟨both, rfl⟩
          | ok others => exact fun last settled => ⟨tolerates.trans both settled, rfl⟩

end Reading

theorem skipped_ensures (exact : backend.Exact) {indexer : LearningMaterialIndexer}
    (enabled : indexer.catalog.enabled = true) {materials : List LearningMaterial}
    (fits : ∀ material ∈ materials, Json.isSigned64 material.id = true) (force : Bool) (state : σ) :
    Program.Ensures backend.serve backend.SameDocuments
      (Catalog.Outside backend indexer.catalog.index)
      (fun outcome after => backend.SameDocuments state after ∧
        (∀ skip, outcome = .ok skip → ∀ id, skip.contains id = true → force = false ∧
          Catalog.Occurs backend state indexer.catalog.index idField none (.integer id)) ∧
        (backend.NeverFails → ∃ skip, outcome = .ok skip))
      (indexer.skipped materials force) state := by
  unfold skipped
  cases force with
  | true =>
      intro after same
      refine ⟨same, ?_, fun _ => ⟨_, rfl⟩⟩
      intro skip nothing id skipped
      rw [← Except.ok.inj nothing] at skipped
      simp [SkipSet.contains, SkipSet.empty] at skipped
  | false =>
      refine (Catalog.skipSet_ensures exact enabled idField _ none state).mono ?_
      rintro outcome after ⟨same, sound, complete⟩
      refine ⟨same, fun skip made id skipped => ⟨rfl, sound skip made id skipped⟩, fun never => ?_⟩
      refine complete never fun id member => ?_
      obtain ⟨material, inside, rfl⟩ := List.mem_map.mp member
      exact Key.ofJson_toJson_of_isSigned64 (fits material inside)

/-- Learning materials that the index does not hold are written. -/
theorem index_ensures (exact : backend.Exact) (indexer : LearningMaterialIndexer)
    (enabled : indexer.catalog.enabled = true) {materials : List LearningMaterial}
    (fits : ∀ material ∈ materials, Json.isSigned64 material.id = true) (force : Bool) (state : σ) :
    Program.Ensures backend.serve backend.SameDocuments
      (Catalog.Outside backend indexer.catalog.index)
      (HandlingEnds backend
        ((materials.map (·.id)).Nodup ∧ (force = true ∨ ∀ material ∈ materials,
          ¬ Catalog.Occurs backend state indexer.catalog.index idField none (.integer material.id)))
        (.write indexer.catalog.index
          ((documentsWith backend.files indexer materials).toOption.getD [])) state)
      (indexer.index (materials.map .learningMaterial) force) state := by
  have accepted : expectAll .learningMaterial Entity.learningMaterial?
      (materials.map .learningMaterial) = .ok materials :=
    expectAll_map Entity.learningMaterial (fun _ => rfl) materials
  rw [index, Catalog.requireEngine_of_enabled enabled, accepted]
  change Program.Ensures _ _ _ _ ((indexer.skipped materials force).andThen fun skip =>
    (indexer.documentsOf (materials.filter fun material => !skip.contains material.id)).andThen
      fun documents => indexer.catalog.write documents) state
  refine Program.Ensures.andThen backend.sameDocuments_refl
    ((skipped_ensures exact enabled fits force state).mono ?_)
  rintro (error | skip) after ⟨same, sound, complete⟩
  · have impossible : ¬ backend.NeverFails := fun never => by
      obtain ⟨skip, success⟩ := complete never
      cases success
    exact handlingEnds_error impossible
  · -- The skip set holds only what the index held before, so nothing fresh is left out.
    have unskipped (fresh : force = true ∨ ∀ material ∈ materials,
        ¬ Catalog.Occurs backend state indexer.catalog.index idField none (.integer material.id)) :
        (materials.filter fun material => !skip.contains material.id) = materials := by
      refine filter_unskipped fun material member => ?_
      by_contra skipped
      obtain ⟨unforced, occurs⟩ := sound skip rfl material.id (by simpa using skipped)
      rcases fresh with forced | absent
      · simp [forced] at unforced
      · exact absent material member occurs
    have sublist : (materials.filter fun material => !skip.contains material.id).Sublist
        materials := List.filter_sublist
    refine Program.Ensures.andThen backend.sameDocuments_refl
      ((documentsOf_ensures exact backend.tolerates_sameDocuments
        (Catalog.outside_file exact indexer.catalog.index) indexer _ after).mono ?_)
    rintro outcome final ⟨moved, rfl⟩
    cases built : documentsWith backend.files indexer
        (materials.filter fun material => !skip.contains material.id) with
    | error error =>
        refine ⟨fun fresh _ => ?_, fun _ readable => ?_⟩
        · rw [unskipped fresh.2] at built
          rw [built]
          exact (Effect.Applied.write_nil backend _ state).of_sameDocuments
            (backend.sameDocuments_refl state) (same.trans moved)
        · obtain ⟨documents, success⟩ := documentsWith_isOk readable indexer
            (materials.filter fun material => !skip.contains material.id)
          rw [built] at success
          cases success
    | ok documents =>
        refine (Catalog.write_ensures exact enabled documents final).mono ?_
        intro outcome last ends
        refine handlingEnds_of_changeEnds (same.trans moved) (fun fresh => ?_)
          (fun fresh applied => ?_) ends
        · exact nodup_documentsWith (fresh.1.sublist (sublist.map _)) built
        · rw [unskipped fresh.2] at built
          rw [built]
          exact applied

/-- A forced request that succeeds has written the documents of all its materials. -/
theorem index_forced_ensures (exact : backend.Exact) (indexer : LearningMaterialIndexer)
    (enabled : indexer.catalog.enabled = true) (materials : List LearningMaterial) (state : σ) :
    Program.Ensures backend.serve backend.SameDocuments
      (Catalog.Outside backend indexer.catalog.index)
      (fun outcome after => outcome = .ok true →
        ∃ documents, documentsWith backend.files indexer materials = .ok documents ∧
          ((materials.map (·.id)).Nodup →
            (Effect.write indexer.catalog.index documents).Applied backend state after))
      (indexer.index (materials.map .learningMaterial) true) state := by
  have accepted : expectAll .learningMaterial Entity.learningMaterial?
      (materials.map .learningMaterial) = .ok materials :=
    expectAll_map Entity.learningMaterial (fun _ => rfl) materials
  have unskipped : (materials.filter fun material =>
      !(SkipSet.empty : SkipSet Int).contains material.id) = materials :=
    filter_unskipped fun _ _ => rfl
  rw [index, Catalog.requireEngine_of_enabled enabled, accepted]
  change Program.Ensures _ _ _ _ ((indexer.documentsOf (materials.filter fun material =>
    !(SkipSet.empty : SkipSet Int).contains material.id)).andThen fun documents =>
      indexer.catalog.write documents) state
  rw [unskipped]
  refine Program.Ensures.andThen backend.sameDocuments_refl
    ((documentsOf_ensures exact backend.tolerates_sameDocuments
      (Catalog.outside_file exact indexer.catalog.index) indexer materials state).mono ?_)
  rintro outcome after ⟨same, rfl⟩
  cases built : documentsWith backend.files indexer materials with
  | error error => exact fun failed => by cases failed
  | ok documents =>
      refine (Catalog.write_ensures exact enabled documents after).mono ?_
      intro outcome last ends success
      exact ⟨documents, rfl, fun distinct =>
        (ends.applied (nodup_documentsWith distinct built) success).of_sameDocuments same
          (backend.sameDocuments_refl last)⟩

end LearningMaterialIndexer

namespace CurriculumIndexer

/-- Courses that the index holds from before the stamp, or not at all, are written. -/
theorem index_ensures (exact : backend.Exact) (indexer : CurriculumIndexer)
    (enabled : indexer.catalog.enabled = true) {courses : List CompositeCourse}
    (fits : ∀ composite ∈ courses, Json.isSigned64 composite.course.id = true) (stamp : Instant)
    (state : σ) :
    Program.Ensures backend.serve backend.SameDocuments
      (Catalog.Outside backend indexer.catalog.index)
      (HandlingEnds backend
        (((courses.flatMap (·.documents)).map (·.id)).Nodup ∧ ∀ composite ∈ courses,
          ¬ Catalog.Occurs backend state indexer.catalog.index courseIdField
            (some (ingestTimeField, stamp)) (.integer composite.course.id))
        (.write indexer.catalog.index (courses.flatMap (·.documents))) state)
      (indexer.index (courses.map .course) stamp) state := by
  have accepted : expectAll .course Entity.course? (courses.map .course) = .ok courses :=
    expectAll_map Entity.course (fun _ => rfl) courses
  rw [index, outdated, accepted]
  change Program.Ensures _ _ _ _ (((indexer.catalog.skipSet courseIdField
    (courses.map (·.course.id)) (some (ingestTimeField, stamp))).andThen fun skip =>
      .done (.ok (courses.filter fun composite => !skip.contains composite.course.id))).andThen
        fun courses => indexer.write courses) state
  rw [Program.andThen_assoc]
  refine Program.Ensures.andThen backend.sameDocuments_refl
    ((Catalog.skipSet_ensures exact enabled courseIdField _ _ state).mono ?_)
  rintro (error | skip) after ⟨same, sound, complete⟩
  · refine handlingEnds_error fun never => ?_
    obtain ⟨skip, success⟩ := complete never fun id member => by
      obtain ⟨composite, inside, rfl⟩ := List.mem_map.mp member
      exact Key.ofJson_toJson_of_isSigned64 (fits composite inside)
    cases success
  · have sublist : (courses.filter fun composite =>
        !skip.contains composite.course.id).Sublist courses := List.filter_sublist
    refine (Catalog.write_ensures exact enabled _ after).mono fun outcome last ends => ?_
    refine handlingEnds_of_changeEnds same
      (fun fresh => fresh.1.sublist ((sublist.flatMap (·.documents)).map (·.id)))
      (fun fresh applied => ?_) ends
    rwa [filter_unskipped fun composite member => ?_] at applied
    by_contra skipped
    exact fresh.2 composite member (sound skip rfl composite.course.id (by simpa using skipped))

end CurriculumIndexer

namespace MeshIndexer

theorem clock_ensures (exact : backend.Exact) {rely guarantee : σ → σ → Prop}
    (tolerates : backend.Tolerates rely)
    (reads : ∀ state, guarantee state (backend.serve .clock state).2) (state : σ) :
    Program.Ensures backend.serve rely guarantee
      (fun outcome after => rely state after ∧ ∃ now, outcome = .ok now) Task.clock state := by
  intro later moved
  have asked := tolerates.trans moved
    (tolerates.calm (exact.sameDocuments .clock (fun _ => id) later))
  exact ⟨reads later, fun after last => ⟨tolerates.trans asked last, _, rfl⟩⟩

theorem index_ensures (exact : backend.Exact) (indexer : MeshIndexer)
    (enabled : indexer.catalog.enabled = true) (descriptors : List MeshDescriptor)
    (stamp : Instant) (state : σ) :
    Program.Ensures backend.serve backend.SameDocuments
      (Catalog.Outside backend indexer.catalog.index)
      (HandlingEnds backend
        ((descriptors.map (·.id)).Nodup ∧ ∀ descriptor ∈ descriptors,
          ¬ Catalog.Occurs backend state indexer.catalog.index idField
            (some (ingestTimeField, stamp)) (.string descriptor.id))
        (.write indexer.catalog.index (descriptors.map (·.document ""))) state)
      (indexer.index (descriptors.map .meshDescriptor) stamp) state := by
  have accepted : expectAll .meshDescriptor Entity.meshDescriptor?
      (descriptors.map .meshDescriptor) = .ok descriptors :=
    expectAll_map Entity.meshDescriptor (fun _ => rfl) descriptors
  rw [index, Catalog.requireEngine_of_enabled enabled, accepted]
  change Program.Ensures _ _ _ _ ((indexer.catalog.skipSet idField (descriptors.map (·.id))
    (some (ingestTimeField, stamp))).andThen fun skip => Task.clock.andThen fun now =>
      indexer.catalog.write ((descriptors.filter fun descriptor =>
        !skip.contains descriptor.id).map (·.document now.bound))) state
  refine Program.Ensures.andThen backend.sameDocuments_refl
    ((Catalog.skipSet_ensures exact enabled idField _ _ state).mono ?_)
  rintro (error | skip) after ⟨same, sound, complete⟩
  · refine handlingEnds_error fun never => ?_
    obtain ⟨skip, success⟩ := complete never fun id _ => rfl
    cases success
  · refine Program.Ensures.andThen backend.sameDocuments_refl
      ((clock_ensures exact backend.tolerates_sameDocuments
        (fun state => exact.steady .clock (fun _ _ => id) id state) after).mono ?_)
    rintro outcome final ⟨moved, now, rfl⟩
    refine (Catalog.write_ensures exact enabled _ final).mono fun outcome last ends => ?_
    refine handlingEnds_of_changeEnds (same.trans moved) (fun fresh => ?_)
      (fun fresh applied => ?_) ends
    · simpa [Function.comp_def] using fresh.1.sublist (List.filter_sublist.map _)
    · rw [filter_unskipped fun descriptor member => ?_] at applied
      · refine applied.write_congr ?_
        simp only [List.map_map]
        exact List.map_congr_left fun descriptor _ => by
          simp [MeshDescriptor.lasting_document descriptor now.bound ""]
      · by_contra skipped
        exact fresh.2 descriptor member (sound skip rfl descriptor.id (by simpa using skipped))

end MeshIndexer

namespace Handler

theorem deletion_ensures (exact : backend.Exact) (catalog : Catalog)
    (enabled : catalog.enabled = true) (fresh : Prop) (field : String) (value : Json) (state : σ) :
    Program.Ensures backend.serve backend.SameDocuments (Catalog.Outside backend catalog.index)
      (HandlingEnds backend fresh (.remove catalog.index field value) state)
      (catalog.deleteWhere field value) state :=
  (Catalog.deleteWhere_ensures exact enabled field value state).mono fun _ _ ends =>
    handlingEnds_of_changeEnds (backend.sameDocuments_refl state) (fun _ => trivial) (fun _ => id)
      ends

/-- A message that is handled well has its effect. -/
theorem handle_ensures (exact : backend.Exact) {snapshot : Snapshot} (fits : snapshot.Fits)
    (keepAlive : String) (uploadLimit : Nat) (message : IndexMessage) (state : σ) :
    Program.Ensures backend.serve backend.SameDocuments (Catalog.Outside backend message.target)
      (HandlingEnds backend (snapshot.DistinctIn message.target ∧ message.IsFresh backend state)
        (message.effect snapshot (.new true keepAlive uploadLimit) backend.files) state)
      (handle ⟨.of snapshot, .new true keepAlive uploadLimit⟩ message) state := by
  cases message with
  | indexLearningMaterials ids force =>
      have found : ∀ material ∈ snapshot.findLearningMaterials ids,
          material ∈ snapshot.learningMaterials ∧ material.id ∈ ids := by
        simp [Snapshot.findLearningMaterials]
      refine (LearningMaterialIndexer.index_ensures exact (.new true keepAlive uploadLimit) rfl
        (fun material member => fits.materials material (found material member).1) force
        state).mono fun outcome after ends => ends.of_fresh ?_
      rintro ⟨distinct, fresh⟩
      refine ⟨(distinct.materials rfl).sublist (List.filter_sublist.map _), ?_⟩
      cases force with
      | true => exact .inl rfl
      | false =>
          exact .inr fun material member =>
            fresh _ rfl _ (List.mem_map_of_mem (found material member).2)
  | indexCourses ids stamp =>
      have found : ∀ composite ∈ snapshot.findCourses ids,
          composite ∈ snapshot.courses ∧ composite.course.id ∈ ids := by
        simp [Snapshot.findCourses]
      refine (CurriculumIndexer.index_ensures exact (.new true keepAlive) rfl
        (fun composite member => fits.courses composite (found composite member).1) stamp
        state).mono fun outcome after ends => ends.of_fresh ?_
      rintro ⟨distinct, fresh⟩
      exact ⟨Snapshot.nodup_courseDocuments distinct ids, fun composite member =>
        fresh _ rfl _ (List.mem_map_of_mem (found composite member).2)⟩
  | indexMeshDescriptors ids stamp =>
      have found : ∀ descriptor ∈ snapshot.findMeshDescriptors ids, descriptor.id ∈ ids := by
        simp [Snapshot.findMeshDescriptors]
      refine (MeshIndexer.index_ensures exact (.new true keepAlive) rfl _ stamp
        state).mono fun outcome after ends => ends.of_fresh ?_
      rintro ⟨distinct, fresh⟩
      exact ⟨(distinct.descriptors rfl).sublist (List.filter_sublist.map _),
        fun descriptor member => fresh _ rfl _ (List.mem_map_of_mem (found descriptor member))⟩
  | deleteLearningMaterial id =>
      exact deletion_ensures exact (LearningMaterialIndexer.new true keepAlive uploadLimit).catalog
        rfl _ _ _ state
  | deleteCourse id =>
      exact deletion_ensures exact (CurriculumIndexer.new true keepAlive).catalog rfl _ _ _ state
  | deleteSession id =>
      exact deletion_ensures exact (CurriculumIndexer.new true keepAlive).catalog rfl _ _ _ state
  | deleteMeshDescriptor id =>
      exact deletion_ensures exact (MeshIndexer.new true keepAlive).catalog rfl _ _ _ state

/-- A forced request goes well only if the files of its learning materials can be read. -/
theorem handle_ensures_isReadable (exact : backend.Exact) {snapshot : Snapshot}
    (fits : snapshot.Fits) (keepAlive : String) (uploadLimit : Nat) (message : IndexMessage)
    (state : σ) :
    Program.Ensures backend.serve backend.SameDocuments (Catalog.Outside backend message.target)
      (fun outcome _ => outcome = .ok true →
        message.IsReadable snapshot (.new true keepAlive uploadLimit) backend.files)
      (handle ⟨.of snapshot, .new true keepAlive uploadLimit⟩ message) state := by
  have ensured := handle_ensures exact fits keepAlive uploadLimit message state
  cases message with
  | indexLearningMaterials ids force =>
      cases force with
      | true =>
          refine (LearningMaterialIndexer.index_forced_ensures exact
            (.new true keepAlive uploadLimit) rfl (snapshot.findLearningMaterials ids)
              state).mono ?_
          intro outcome after ends success
          obtain ⟨documents, built, _⟩ := ends success
          exact ⟨documents, built⟩
      | false => exact ensured.mono fun _ _ _ _ => trivial
  | _ => exact ensured.mono fun _ _ _ _ => trivial

end Handler

end Ensures

end LearningIndex
