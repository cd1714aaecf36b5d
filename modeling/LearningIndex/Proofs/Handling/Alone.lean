import LearningIndex.Proofs.Backend.Clock
import LearningIndex.Proofs.Handling.Subjects

/-!
# Handling a message by itself

While nobody else uses the services, a message that asks for entities is handled in two parts.  The
first part finds out what to write and writes nothing.  The second part writes by one request, or
not at all if there is no document to write.
-/

namespace LearningIndex

open Calendar (Instant)

variable {σ : Type} {backend : Backend σ}

/-- Run by itself, a task ends without a bulk request, and the documents stay as they are. -/
structure Prepares (backend : Backend σ) {α : Type} (task : Task α) (state : σ)
    (outcome : Except IndexingError α) (after : σ) : Prop where
  ran : task.run backend.serve state = (outcome, after)
  quiet : task.bulks backend.serve state = []
  same : backend.SameDocuments state after

namespace Prepares

variable {α β : Type} {task : Task α} {next : α → Task β} {state middle after : σ} {result : α}

theorem done (backend : Backend σ) (outcome : Except IndexingError α) (state : σ) :
    Prepares backend (.done outcome) state outcome state :=
  ⟨rfl, rfl, backend.sameDocuments_refl state⟩

theorem later {outcome : Except IndexingError α}
    (prepares : Prepares backend task state outcome after) : backend.Later state after := by
  have reached := backend.later_run task state
  rwa [prepares.ran] at reached

theorem run_andThen (first : Prepares backend task state (.ok result) middle)
    (next : α → Task β) :
    (task.andThen next).run backend.serve state = (next result).run backend.serve middle :=
  Program.run_andThen_of_ok first.ran next

/-- A task that comes after one that prepares sends what it sends by itself. -/
theorem bulks_andThen (first : Prepares backend task state (.ok result) middle)
    (next : α → Task β) :
    Task.bulks backend.serve (task.andThen next) state =
      (next result).bulks backend.serve middle := by
  have quiet := first.quiet
  rw [Task.bulks] at quiet
  rw [Task.bulks, Program.transcript_andThen_of_ok first.ran, List.filterMap_append, quiet]
  rfl

theorem andThen {outcome : Except IndexingError β}
    (first : Prepares backend task state (.ok result) middle)
    (second : Prepares backend (next result) middle outcome after) :
    Prepares backend (task.andThen next) state outcome after where
  ran := (first.run_andThen next).trans second.ran
  quiet := (first.bulks_andThen next).trans second.quiet
  same := first.same.trans second.same

theorem andThen_error {error : IndexingError}
    (first : Prepares backend task state (.error error) after) (next : α → Task β) :
    Prepares backend (task.andThen next) state (.error error) after where
  ran := Program.run_andThen_of_error first.ran next
  quiet := by
    rw [Task.bulks, Program.transcript_andThen_of_error first.ran]
    exact first.quiet
  same := first.same

theorem ask (exact : backend.Exact) {request : Service.Request}
    {next : Service.Reply request → Task α} {outcome : Except IndexingError α}
    (unsent : request.bulk? = none) (harmless : ∀ index, ¬ request.Touches index)
    (rest : Prepares backend (next (backend.serve request state).1)
      (backend.serve request state).2 outcome after) :
    Prepares backend (.ask request next) state outcome after where
  ran := rest.ran
  quiet := by
    rw [Task.bulks, Program.transcript, List.filterMap_cons]
    simp only [unsent]
    exact rest.quiet
  same := (exact.sameDocuments request harmless state).trans rest.same

end Prepares

theorem Catalog.exists_prepares_skipSet {κ : Type} [Key κ] [DecidableEq κ]
    (aggregates : backend.Aggregates) {catalog : Catalog} (enabled : catalog.enabled = true)
    (field : String) (candidates : List κ)
    (legible : ∀ id ∈ candidates, Key.ofJson (Key.toJson id) = .ok id)
    (since : Option (String × Instant)) (state : σ) :
    ∃ skip after, Prepares backend (catalog.skipSet field candidates since) state (.ok skip) after ∧
      ∀ id, skip.contains id = true ↔
        id ∈ candidates ∧ Occurs backend state catalog.index field since (Key.toJson id) := by
  obtain ⟨skip, after, ran, same, skip_iff⟩ :=
    exists_run_skipSet aggregates enabled field legible since state
  refine ⟨skip, after, ⟨ran, ?_, same⟩, skip_iff⟩
  have skips := skips_of_yields_skipSet (Program.yields_transcript backend.serve
    (catalog.skipSet field candidates since) state)
  obtain ⟨portions, _, _, asked, _⟩ := skips.asked
  refine List.filterMap_eq_nil_iff.mpr fun exchange member => ?_
  obtain ⟨portion, _, same⟩ := List.mem_map.mp (asked.subset (List.mem_map_of_mem member))
  rw [← same]
  rfl

theorem filter_pending {κ α : Type} [DecidableEq κ] {skip : SkipSet κ} {items : List α}
    {key : α → κ} {subject : α → Subject} (passed : Json → Prop) [DecidablePred passed]
    (skip_iff : ∀ item ∈ items, skip.contains (key item) = true ↔ passed (subject item).key) :
    (items.filter fun item => !skip.contains (key item)).map subject =
      (items.map subject).filter fun subject => ¬ passed subject.key := by
  rw [List.filter_map]
  congr 1
  refine List.filter_congr fun item member => ?_
  have same := skip_iff item member
  by_cases skipped : skip.contains (key item) = true
  · simp [skipped, same.mp skipped]
  · simp [skipped, mt same.mpr skipped]

/-- The skip set for the entities that a message asks for leaves those that are pending. -/
theorem IndexMessage.exists_prepares_pending {κ α : Type} [Key κ] [DecidableEq κ]
    (aggregates : backend.Aggregates) {catalog : Catalog} (enabled : catalog.enabled = true)
    {message : IndexMessage} {field : String} {values : List Json}
    {since : Option (String × Instant)}
    (asked : message.skipQuery? = some ⟨catalog.index, field, values, since⟩) {snapshot : Snapshot}
    {indexer : LearningMaterialIndexer} {items : List α} {subject : α → Subject}
    (listed : message.subjects snapshot indexer backend.files = items.map subject)
    (key : α → κ) (keyed : ∀ item ∈ items, (subject item).key = Key.toJson (key item))
    (legible : ∀ item ∈ items, Key.ofJson (Key.toJson (key item)) = .ok (key item)) (state : σ) :
    ∃ skip after,
      Prepares backend (catalog.skipSet field (items.map key) since) state (.ok skip) after ∧
        (items.filter fun item => !skip.contains (key item)).map subject =
          message.pending snapshot indexer backend state := by
  obtain ⟨skip, after, prepares, skip_iff⟩ := Catalog.exists_prepares_skipSet aggregates enabled
    field (items.map key) (List.forall_mem_map.mpr legible) since state
  refine ⟨skip, after, prepares, ?_⟩
  classical
  rw [pending, listed]
  refine filter_pending (message.PassesOver backend state) fun item member => ?_
  rw [skip_iff, and_iff_right (List.mem_map_of_mem member), keyed item member, PassesOver, asked]
  simp

namespace LearningMaterialIndexer

theorem exists_prepares_fileText (exact : backend.Exact) (material : LearningMaterial)
    (state : σ) :
    ∃ after, Prepares backend (fileText material) state (textOf backend.files material) after := by
  unfold fileText textOf
  cases material.relativePath with
  | none => exact ⟨state, .done backend _ state⟩
  | some path =>
      simp only
      refine ⟨(backend.serve (.file (textPath path)) state).2, .ask exact rfl (fun _ => id) ?_⟩
      rw [exact.file]
      cases backend.files (textPath path) with
      | error error => exact .done backend _ _
      | ok text => exact .done backend _ _

theorem exists_prepares_documentsOf (exact : backend.Exact) (indexer : LearningMaterialIndexer)
    (materials : List LearningMaterial) (state : σ) :
    ∃ after, Prepares backend (indexer.documentsOf materials) state
      (documentsWith backend.files indexer materials) after := by
  induction materials generalizing state with
  | nil => exact ⟨state, .done backend _ state⟩
  | cons material rest ih =>
      obtain ⟨middle, read⟩ := exists_prepares_fileText exact material state
      rw [documentsWith]
      cases found : textOf backend.files material with
      | error error =>
          rw [found] at read
          exact ⟨middle, read.andThen_error _⟩
      | ok text =>
          rw [found] at read
          obtain ⟨after, others⟩ := ih middle
          cases later : documentsWith backend.files indexer rest with
          | error error =>
              rw [later] at others
              exact ⟨after, read.andThen (others.andThen_error _)⟩
          | ok documents =>
              rw [later] at others
              exact ⟨after, read.andThen (others.andThen (.done backend _ after))⟩

end LearningMaterialIndexer

/-- Indexing learning materials: what is to be written is found out, and then it is written. -/
theorem LearningMaterialIndexer.index_eq_andThen_write (keepAlive : String) (uploadLimit : Nat)
    (materials : List LearningMaterial) (force : Bool) :
    index (.new true keepAlive uploadLimit) (materials.map .learningMaterial) force =
      ((skipped (.new true keepAlive uploadLimit) materials force).andThen fun skip =>
        documentsOf (.new true keepAlive uploadLimit)
          (materials.filter fun material => !skip.contains material.id)).andThen
            (Catalog.write ⟨indexName, keepAlive, true⟩) := by
  have accepted : expectAll .learningMaterial Entity.learningMaterial?
      (materials.map .learningMaterial) = .ok materials :=
    expectAll_map Entity.learningMaterial (fun _ => rfl) materials
  rw [index, accepted, Program.andThen_assoc]
  rfl

theorem CurriculumIndexer.index_eq_andThen_write (keepAlive : String)
    (courses : List CompositeCourse) (stamp : Instant) :
    index (.new true keepAlive) (courses.map .course) stamp =
      ((Catalog.skipSet ⟨indexName, keepAlive, true⟩ courseIdField (courses.map (·.course.id))
        (some (ingestTimeField, stamp))).andThen fun skip => .done (.ok
          ((courses.filter fun composite => !skip.contains composite.course.id).flatMap
            (·.documents)))).andThen (Catalog.write ⟨indexName, keepAlive, true⟩) := by
  have accepted : expectAll .course Entity.course? (courses.map .course) = .ok courses :=
    expectAll_map Entity.course (fun _ => rfl) courses
  rw [index, outdated, accepted, Program.andThen_assoc]
  change ((Catalog.skipSet ⟨indexName, keepAlive, true⟩ courseIdField (courses.map (·.course.id))
    (some (ingestTimeField, stamp))).andThen fun skip => .done (.ok (courses.filter
      fun composite => !skip.contains composite.course.id))).andThen
        (fun courses => write (.new true keepAlive) courses) = _
  rw [Program.andThen_assoc]
  rfl

theorem MeshIndexer.index_eq_andThen_write (keepAlive : String) (descriptors : List MeshDescriptor)
    (stamp : Instant) :
    index (.new true keepAlive) (descriptors.map .meshDescriptor) stamp =
      ((Catalog.skipSet ⟨indexName, keepAlive, true⟩ idField (descriptors.map (·.id))
        (some (ingestTimeField, stamp))).andThen fun skip => Task.clock.andThen fun now =>
          .done (.ok ((descriptors.filter fun descriptor => !skip.contains descriptor.id).map
            (·.document now.bound)))).andThen (Catalog.write ⟨indexName, keepAlive, true⟩) := by
  have accepted : expectAll .meshDescriptor Entity.meshDescriptor?
      (descriptors.map .meshDescriptor) = .ok descriptors :=
    expectAll_map Entity.meshDescriptor (fun _ => rfl) descriptors
  rw [index, accepted, Program.andThen_assoc]
  rfl

/-- The first part of the handling of a message: what is to be written is found out, and the time of
the documents is one that the clock shows meanwhile. -/
def Prepared (backend : Backend σ) (message : IndexMessage) (snapshot : Snapshot)
    (indexer : LearningMaterialIndexer) (prelude : Task (List Document)) (state : σ) : Prop :=
  ∃ moment after, backend.Later state moment ∧
    Prepares backend prelude state (Subject.gather (backend.now moment).bound
      (message.pending snapshot indexer backend state)) after

namespace LearningMaterialIndexer

theorem exists_prelude (exact : backend.Exact) (aggregates : backend.Aggregates)
    {snapshot : Snapshot} (fits : snapshot.Fits) (keepAlive : String) (uploadLimit : Nat)
    (ids : List Int) (force : Bool) :
    ∃ prelude, Handler.handle ⟨.of snapshot, .new true keepAlive uploadLimit⟩
        (.indexLearningMaterials ids force) =
          prelude.andThen (Catalog.write ⟨indexName, keepAlive, true⟩) ∧
      ∀ state, Prepared backend (.indexLearningMaterials ids force) snapshot
        (.new true keepAlive uploadLimit) prelude state := by
  let indexer : LearningMaterialIndexer := .new true keepAlive uploadLimit
  let materials := snapshot.findLearningMaterials ids
  let message : IndexMessage := .indexLearningMaterials ids force
  refine ⟨(indexer.skipped materials force).andThen fun skip =>
    indexer.documentsOf (materials.filter fun material => !skip.contains material.id), ?_, ?_⟩
  · exact index_eq_andThen_write keepAlive uploadLimit materials force
  · intro state
    have skipped : ∃ skip middle,
        Prepares backend (indexer.skipped materials force) state (.ok skip) middle ∧
          (materials.filter fun material => !skip.contains material.id).map
              (Subject.ofMaterial indexer backend.files) =
            message.pending snapshot indexer backend state := by
      have listed : message.subjects snapshot indexer backend.files =
          materials.map (.ofMaterial indexer backend.files) := rfl
      cases force with
      | true =>
          refine ⟨.empty, state, .done backend _ state, ?_⟩
          simp [message, listed, IndexMessage.pending, SkipSet.contains, SkipSet.empty,
            IndexMessage.passesOver_learningMaterials_iff]
      | false =>
          have enabled : indexer.catalog.enabled = true := rfl
          refine IndexMessage.exists_prepares_pending aggregates enabled rfl listed (·.id)
            (fun material _ => Subject.key_ofMaterial _ _ material) (fun material found => ?_) state
          exact Key.ofJson_toJson_of_isSigned64
            (fits.materials material (List.mem_of_mem_filter found))
    obtain ⟨skip, middle, prepares, pending⟩ := skipped
    obtain ⟨after, built⟩ := exists_prepares_documentsOf exact indexer
      (materials.filter fun material => !skip.contains material.id) middle
    refine ⟨state, after, .refl, ?_⟩
    rw [← pending, ← Subject.documentsWith_eq_gather]
    exact prepares.andThen built

end LearningMaterialIndexer

theorem CurriculumIndexer.exists_prelude (aggregates : backend.Aggregates) {snapshot : Snapshot}
    (fits : snapshot.Fits) (keepAlive : String) (uploadLimit : Nat) (ids : List Int)
    (stamp : Instant) :
    ∃ prelude, Handler.handle ⟨.of snapshot, .new true keepAlive uploadLimit⟩
        (.indexCourses ids stamp) =
          prelude.andThen (Catalog.write ⟨indexName, keepAlive, true⟩) ∧
      ∀ state, Prepared backend (.indexCourses ids stamp) snapshot
        (.new true keepAlive uploadLimit) prelude state := by
  let indexer : CurriculumIndexer := .new true keepAlive
  let courses := snapshot.findCourses ids
  let message : IndexMessage := .indexCourses ids stamp
  refine ⟨(indexer.catalog.skipSet courseIdField (courses.map (·.course.id))
    (some (ingestTimeField, stamp))).andThen fun skip => .done (.ok
      ((courses.filter fun composite => !skip.contains composite.course.id).flatMap
        (·.documents))), ?_, ?_⟩
  · exact index_eq_andThen_write keepAlive courses stamp
  · intro state
    have enabled : indexer.catalog.enabled = true := rfl
    have listed : message.subjects snapshot (.new true keepAlive uploadLimit) backend.files =
        courses.map .ofCourse := rfl
    have legible : ∀ composite ∈ courses, Key.ofJson (Key.toJson composite.course.id) =
        .ok composite.course.id := fun composite found =>
      Key.ofJson_toJson_of_isSigned64 (fits.courses composite (List.mem_of_mem_filter found))
    obtain ⟨skip, middle, prepares, pending⟩ :=
      IndexMessage.exists_prepares_pending aggregates enabled rfl listed
        (·.course.id) (fun _ _ => rfl) legible state
    refine ⟨state, middle, .refl, ?_⟩
    rw [← pending, Subject.gather_map_ofCourse]
    exact prepares.andThen (.done backend _ middle)

theorem MeshIndexer.exists_prelude (exact : backend.Exact) (aggregates : backend.Aggregates)
    (snapshot : Snapshot) (keepAlive : String) (uploadLimit : Nat) (ids : List String)
    (stamp : Instant) :
    ∃ prelude, Handler.handle ⟨.of snapshot, .new true keepAlive uploadLimit⟩
        (.indexMeshDescriptors ids stamp) =
          prelude.andThen (Catalog.write ⟨indexName, keepAlive, true⟩) ∧
      ∀ state, Prepared backend (.indexMeshDescriptors ids stamp) snapshot
        (.new true keepAlive uploadLimit) prelude state := by
  let indexer : MeshIndexer := .new true keepAlive
  let descriptors := snapshot.findMeshDescriptors ids
  let message : IndexMessage := .indexMeshDescriptors ids stamp
  refine ⟨(indexer.catalog.skipSet idField (descriptors.map (·.id))
    (some (ingestTimeField, stamp))).andThen fun skip => Task.clock.andThen fun now => .done (.ok
      ((descriptors.filter fun descriptor => !skip.contains descriptor.id).map
        (·.document now.bound))), ?_, ?_⟩
  · exact index_eq_andThen_write keepAlive descriptors stamp
  · intro state
    have enabled : indexer.catalog.enabled = true := rfl
    have listed : message.subjects snapshot (.new true keepAlive uploadLimit) backend.files =
        descriptors.map .ofDescriptor := rfl
    obtain ⟨skip, middle, prepares, pending⟩ :=
      IndexMessage.exists_prepares_pending aggregates enabled rfl listed (·.id) (fun _ _ => rfl)
        (fun _ _ => rfl) state
    refine ⟨middle, (backend.serve .clock middle).2, prepares.later, ?_⟩
    rw [← pending, Subject.gather_map_ofDescriptor]
    exact prepares.andThen (.ask exact rfl (fun _ => id) (.done backend _ _))

namespace Handler

/-- A message that asks for entities is handled by finding out what to write and then writing it. -/
theorem exists_prelude (exact : backend.Exact) (aggregates : backend.Aggregates)
    {snapshot : Snapshot} (fits : snapshot.Fits) (keepAlive : String) (uploadLimit : Nat)
    {message : IndexMessage} (request : message.IsRequest) :
    ∃ prelude, handle ⟨.of snapshot, .new true keepAlive uploadLimit⟩ message =
        prelude.andThen (Catalog.write ⟨message.target, keepAlive, true⟩) ∧
      ∀ state,
        Prepared backend message snapshot (.new true keepAlive uploadLimit) prelude state := by
  cases message with
  | indexLearningMaterials ids force =>
      exact LearningMaterialIndexer.exists_prelude exact aggregates fits keepAlive uploadLimit ids
        force
  | indexCourses ids stamp =>
      exact CurriculumIndexer.exists_prelude aggregates fits keepAlive uploadLimit ids stamp
  | indexMeshDescriptors ids stamp =>
      exact MeshIndexer.exists_prelude exact aggregates snapshot keepAlive uploadLimit ids stamp
  | deleteLearningMaterial id => exact request.elim
  | deleteCourse id => exact request.elim
  | deleteSession id => exact request.elim
  | deleteMeshDescriptor id => exact request.elim

end Handler

/-- The bulk request that writes documents to an index. -/
def bulkRequest (index : String) (documents : List Document) : Service.Request :=
  .engine (.bulk (documents.map (BulkOperation.index index)))

theorem Catalog.run_write (backend : Backend σ) {catalog : Catalog}
    (enabled : catalog.enabled = true) {documents : List Document} (filled : documents ≠ [])
    (state : σ) :
    (catalog.write documents).run backend.serve state =
        ((((backend.serve (bulkRequest catalog.index documents) state).1).mapError .engine).map
            fun reply => !reply.errors,
          (backend.serve (bulkRequest catalog.index documents) state).2) ∧
      (catalog.write documents).bulks backend.serve state =
        [documents.map (BulkOperation.index catalog.index)] := by
  have sent : catalog.write documents = (Task.engine (.bulk (catalog.operations documents))).andThen
      fun reply => .done (.ok !reply.errors) := by
    simp [write, requireEngine_of_enabled enabled, filled]
  rw [sent]
  constructor
  · change Program.run _ ((Program.done (Except.mapError IndexingError.engine
      (backend.serve (bulkRequest catalog.index documents) state).1)).andThen _) _ = _
    cases (backend.serve (bulkRequest catalog.index documents) state).1 <;> rfl
  · change catalog.operations documents :: (Program.transcript _ ((Program.done
      (Except.mapError IndexingError.engine
        (backend.serve (bulkRequest catalog.index documents) state).1)).andThen _) _).filterMap _ =
          _
    cases (backend.serve (bulkRequest catalog.index documents) state).1 <;> rfl

/-- How a message that asks for entities is handled by itself: how it ends, the state after it, and
the bulk requests that were made. -/
inductive Served (backend : Backend σ) (index : String) (subjects : List Subject) (state : σ) :
    Except IndexingError Bool → σ → List (List BulkOperation) → Prop
  | faulty {moment after : σ} {error : IndexingError}
      (failed : Subject.gather (backend.now moment).bound subjects = .error error)
      (same : backend.SameDocuments state after) :
      Served backend index subjects state (.error error) after []
  | idle {moment after : σ} (nothing : Subject.gather (backend.now moment).bound subjects = .ok [])
      (same : backend.SameDocuments state after) :
      Served backend index subjects state (.ok true) after []
  | sent {moment middle : σ} {documents : List Document}
      (later : backend.Later state moment) (later' : backend.Later state middle)
      (built : Subject.gather (backend.now moment).bound subjects = .ok documents)
      (filled : documents ≠ []) (same : backend.SameDocuments state middle) :
      Served backend index subjects state
        (((backend.serve (bulkRequest index documents) middle).1.mapError .engine).map
          fun reply => !reply.errors)
        (backend.serve (bulkRequest index documents) middle).2
        [documents.map (BulkOperation.index index)]

/-- A message that asks for entities is handled as its subjects that are not passed over demand. -/
theorem Handler.served_handle (exact : backend.Exact) (aggregates : backend.Aggregates)
    {snapshot : Snapshot} (fits : snapshot.Fits) (keepAlive : String) (uploadLimit : Nat)
    {message : IndexMessage} (request : message.IsRequest) (state : σ) :
    Served backend message.target
      (message.pending snapshot (.new true keepAlive uploadLimit) backend state) state
      ((handle ⟨.of snapshot, .new true keepAlive uploadLimit⟩ message).run backend.serve state).1
      ((handle ⟨.of snapshot, .new true keepAlive uploadLimit⟩ message).run backend.serve state).2
      (Task.bulks backend.serve
        (handle ⟨.of snapshot, .new true keepAlive uploadLimit⟩ message) state) := by
  obtain ⟨prelude, same, prepared⟩ :=
    exists_prelude exact aggregates fits keepAlive uploadLimit request
  obtain ⟨moment, after, later, prepares⟩ := prepared state
  rw [same]
  cases built : Subject.gather (backend.now moment).bound
      (message.pending snapshot (.new true keepAlive uploadLimit) backend state) with
  | error error =>
      rw [built] at prepares
      have failed := prepares.andThen_error (Catalog.write ⟨message.target, keepAlive, true⟩)
      rw [failed.ran, failed.quiet]
      exact .faulty built failed.same
  | ok documents =>
      rw [built] at prepares
      rw [prepares.run_andThen, prepares.bulks_andThen]
      cases documents with
      | nil => exact .idle built prepares.same
      | cons document rest =>
          have filled := List.cons_ne_nil document rest
          have enabled : (Catalog.mk message.target keepAlive true).enabled = true := rfl
          obtain ⟨ran, sent⟩ := Catalog.run_write backend enabled filled after
          rw [ran, sent]
          exact .sent later prepares.later built filled prepares.same

end LearningIndex
