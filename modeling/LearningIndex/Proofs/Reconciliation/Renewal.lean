import LearningIndex.Proofs.Reconciliation.Succession

/-!
# What a full run renews

A full run asks for everything that the snapshot holds, without a look at the indexes.  Its learning
materials are written in any case; a course or a descriptor is passed over if one of its documents
was ingested in the second of the stamp or later.  So a run renews everything that was ingested in
an earlier second, and may leave as it is what was ingested before the run in the same second.
-/

namespace LearningIndex

open Calendar (Instant)

namespace Reconciliation

open Producer (Bystanding Handing dispatchAll logged)

section Plan

variable (snapshot : Snapshot) (stamp : Instant)

/-- All messages of a full run, in the order in which it hands them over. -/
def fullPlan : List IndexMessage :=
  (batches IndexMessage.maxIds snapshot.fileLearningMaterialIds).map
      (IndexMessage.indexLearningMaterials · true) ++
    (batches IndexMessage.maxIds snapshot.courseIds).map (IndexMessage.indexCourses · stamp) ++
    (batches IndexMessage.maxIds snapshot.meshDescriptorIds).map
      (IndexMessage.indexMeshDescriptors · stamp)

def fullReport : ReconciliationReport where
  mode := .full
  learningMaterials := { queued := snapshot.fileLearningMaterialIds.length }
  courses := { queued := snapshot.courseIds.length }
  meshDescriptors := { queued := snapshot.meshDescriptorIds.length }
  messages := (fullPlan snapshot stamp).length

theorem runFull_eq :
    runFull (.of snapshot) stamp =
      (dispatchAll (fullPlan snapshot stamp)).andThen fun _ =>
        .done (.ok (fullReport snapshot stamp)) := by
  unfold runFull
  simp only [Repository.read, Program.ofExcept, Program.bind_eq_andThen,
    Program.done_ok_andThen, IndexMessage.learningMaterials, IndexMessage.courses,
    IndexMessage.meshDescriptors, queueBatches_eq, fullPlan, Producer.dispatchAll_append,
    Program.andThen_assoc, Program.pure_eq_done, fullReport, List.length_append, List.length_map]

variable {snapshot stamp}

theorem mem_fullPlan_iff {message : IndexMessage} :
    message ∈ fullPlan snapshot stamp ↔
      (∃ ids ∈ batches IndexMessage.maxIds snapshot.fileLearningMaterialIds,
          message = .indexLearningMaterials ids true) ∨
        (∃ ids ∈ batches IndexMessage.maxIds snapshot.courseIds,
          message = .indexCourses ids stamp) ∨
        ∃ ids ∈ batches IndexMessage.maxIds snapshot.meshDescriptorIds,
          message = .indexMeshDescriptors ids stamp := by
  simp [fullPlan, eq_comm]

end Plan

section Apart

variable {snapshot : Snapshot} {indexer : LearningMaterialIndexer}
variable {files : String → Except IndexingError (Option ByteString)}

theorem pairwise_compatibleIn_requests {κ : Type} {effect : IndexMessage → Effect}
    {request : List κ → IndexMessage} {ids : List κ} {index target : String}
    (targets : ∀ portion, (request portion).target = target)
    (distinct : index = target → ids.Nodup)
    (bears : ∀ portion others : List κ, portion.Disjoint others →
      Bears effect (request portion) (request others)) :
    ((batches IndexMessage.maxIds ids).map request).Pairwise (CompatibleIn index effect) := by
  refine pairwise_compatibleIn (List.forall_mem_map.mpr fun portion _ => targets portion) ?_
  intro own
  refine List.pairwise_map.mpr ((pairwise_disjoint_batches (distinct own)).imp ?_)
  exact fun apart => ⟨bears _ _ apart, bears _ _ (List.disjoint_symm apart)⟩

/-- The messages of a full run do not matter to each other. -/
theorem pairwise_compatible_fullPlan {index : String} (distinct : snapshot.DistinctIn index)
    (stamp : Instant) :
    (fullPlan snapshot stamp).Pairwise
      (CompatibleIn index (IndexMessage.effect snapshot indexer files)) := by
  have materials : ((batches IndexMessage.maxIds snapshot.fileLearningMaterialIds).map
      (IndexMessage.indexLearningMaterials · true)).Pairwise
        (CompatibleIn index (IndexMessage.effect snapshot indexer files)) :=
    pairwise_compatibleIn_requests (fun _ => rfl)
      (fun own => fileMaterials_nodup (distinct.materials own))
      fun _ _ apart => bears_materialRequests apart true true
  have courses : ((batches IndexMessage.maxIds snapshot.courseIds).map
      (IndexMessage.indexCourses · stamp)).Pairwise
        (CompatibleIn index (IndexMessage.effect snapshot indexer files)) :=
    pairwise_compatibleIn_requests (fun _ => rfl) distinct.courses
      fun _ _ apart => bears_courseRequests apart stamp stamp
  have descriptors : ((batches IndexMessage.maxIds snapshot.meshDescriptorIds).map
      (IndexMessage.indexMeshDescriptors · stamp)).Pairwise
        (CompatibleIn index (IndexMessage.effect snapshot indexer files)) :=
    pairwise_compatibleIn_requests (fun _ => rfl) distinct.descriptors
      fun _ _ apart => bears_descriptorRequests apart stamp stamp
  have curriculum : LearningMaterialIndexer.indexName ≠ CurriculumIndexer.indexName := by decide
  have mesh : LearningMaterialIndexer.indexName ≠ MeshIndexer.indexName := by decide
  have mesh' : CurriculumIndexer.indexName ≠ MeshIndexer.indexName := by decide
  refine pairwise_compatibleIn_append (pairwise_compatibleIn_append materials courses ?_)
    descriptors ?_
  · simp only [List.forall_mem_map]
    exact fun _ _ _ _ => curriculum
  · simp only [List.forall_mem_append, List.forall_mem_map]
    exact ⟨fun _ _ _ _ => mesh, fun _ _ _ _ => mesh'⟩

end Apart

section Conduct

variable {σ : Type} {backend : Backend σ}

/-- No course and no descriptor was ingested in the second of the stamp or later. -/
structure FilledBefore (backend : Backend σ) (state : σ) (stamp : Instant) : Prop where
  courses : IngestedBefore backend state stamp
  descriptors : ∀ document ∈ backend.documents state MeshIndexer.indexName,
    ¬ document.source.IngestedSince MeshIndexer.ingestTimeField stamp

/-- No message of a full run passes over an entity of an index that was filled before. -/
theorem isFresh_of_mem_fullPlan {initial : σ} {snapshot : Snapshot} {stamp : Instant}
    (before : FilledBefore backend initial stamp) {message : IndexMessage}
    (member : message ∈ fullPlan snapshot stamp) : message.IsFresh backend initial := by
  rintro query asked value inside ⟨document, present, _, recent⟩
  rcases mem_fullPlan_iff.mp member with ⟨ids, _, rfl⟩ | ⟨ids, _, rfl⟩ | ⟨ids, _, rfl⟩
  · -- a request for learning materials does not look at what is there
    simp [IndexMessage.skipQuery?] at asked
  · obtain rfl := Option.mem_some_iff.mp asked
    exact before.courses document present recent
  · obtain rfl := Option.mem_some_iff.mp asked
    exact before.descriptors document present recent

/-- Whatever its worker does meanwhile, a full run hands over all its messages. -/
theorem runFull_ensures (backend : Backend σ) (snapshot : Snapshot) (stamp : Instant) (world : σ) :
    Program.Ensures (logged backend.serve) (Bystanding backend)
      (Handing backend (fullPlan snapshot stamp))
      (fun outcome after => outcome = .ok (fullReport snapshot stamp) ∧
        after.2 = fullPlan snapshot stamp)
      (runFull (.of snapshot) stamp) (world, []) := by
  rw [runFull_eq]
  have handing : [] ++ fullPlan snapshot stamp <+: fullPlan snapshot stamp := List.prefix_rfl
  refine Program.Ensures.andThen (Producer.bystanding_refl backend)
    ((Producer.dispatchAll_ensures handing world).mono ?_)
  rintro _ ⟨after, _⟩ ⟨rfl, rfl⟩
  rintro ⟨later, _⟩ ⟨rfl, _⟩
  exact ⟨rfl, rfl⟩

end Conduct

end Reconciliation

namespace Installation

open Effect (Settled)
open Reconciliation (Coherent FilledBefore Orderless fullPlan fullReport mem_fullPlan_iff)

variable {σ : Type} {installation : Installation σ} {begun : σ}

def materialIndexer (installation : Installation σ) : LearningMaterialIndexer :=
  .new true installation.keepAlive installation.uploadLimit

/-- An execution of a full run and its worker that began in a state has come so far. -/
def ReachesFull (installation : Installation σ) (begun : σ)
    (state : Interplay σ ReconciliationReport) : Prop :=
  Interplay.Reaches installation.backend.serve installation.handler.handle
    (.start begun (Reconciliation.run installation.handler .full)) state

/-- The indexes hold what the snapshot and the files make up, up to the times of ingestion. -/
structure Renewed (installation : Installation σ) (state : σ) : Prop where
  /-- The text of each learning material with a file could be read, and its pieces are there. -/
  materials : ∀ material ∈ installation.snapshot.learningMaterials, material.hasFile = true →
    ∃ text, LearningMaterialIndexer.textOf installation.backend.files material = .ok text ∧
      ∀ piece ∈ installation.materialIndexer.documents material text,
        installation.backend.lasting state LearningMaterialIndexer.indexName piece.id =
          some piece.source.lasting
  courses : ∀ composite ∈ installation.snapshot.courses, ∀ document ∈ composite.documents,
    installation.backend.lasting state CurriculumIndexer.indexName document.id =
      some document.source.lasting
  descriptors : ∀ descriptor ∈ installation.snapshot.meshDescriptors, ∀ time,
    installation.backend.lasting state MeshIndexer.indexName descriptor.id =
      some (descriptor.document time).source.lasting

theorem ReachesFull.coherent (exact : installation.backend.Exact)
    (fits : installation.snapshot.Fits) {state : Interplay σ ReconciliationReport}
    (reached : installation.ReachesFull begun state) :
    state = .start begun (Reconciliation.run installation.handler .full) ∨
      Coherent installation (fullPlan installation.snapshot (installation.stamp begun))
        (fun outcome log =>
          outcome = .ok (fullReport installation.snapshot (installation.stamp begun)) ∧
            log = fullPlan installation.snapshot (installation.stamp begun)) begun state :=
  coherent_of_reaches exact fits (fun world _ => Reconciliation.runFull_ensures
    installation.backend installation.snapshot (installation.stamp begun) world) reached

theorem ReachesFull.coherent_of_ends (exact : installation.backend.Exact)
    (fits : installation.snapshot.Fits) {last : Interplay σ ReconciliationReport}
    (reached : installation.ReachesFull begun last)
    {outcome : Except IndexingError ReconciliationReport} (ends : last.Ends outcome) :
    Coherent installation (fullPlan installation.snapshot (installation.stamp begun))
      (fun outcome log =>
        outcome = .ok (fullReport installation.snapshot (installation.stamp begun)) ∧
          log = fullPlan installation.snapshot (installation.stamp begun)) begun last := by
  rcases reached.coherent exact fits with rfl | coherent
  · have running := ends.producer
    cases running
  · exact coherent

section Ended

variable {last : Interplay σ ReconciliationReport}
variable {outcome : Except IndexingError ReconciliationReport}

/-- If all messages of a full run went well, an index holds what they make of it. -/
theorem ReachesFull.settled (exact : installation.backend.Exact)
    (distinct : installation.snapshot.Distinct) (fits : installation.snapshot.Fits)
    (before : FilledBefore installation.backend begun (installation.stamp begun))
    (reached : installation.ReachesFull begun last) (ends : last.Ends outcome)
    (well : ∀ entry ∈ last.handled, entry.2 = .ok true) (index : String) :
    Settled installation.backend index begun
      ((fullPlan installation.snapshot (installation.stamp begun)).map installation.effect)
      last.world := by
  have coherent := reached.coherent_of_ends exact fits ends
  have orderless : Orderless installation
      (fullPlan installation.snapshot (installation.stamp begun)) begun index := {
    distinct := distinct.within index
    apart := Reconciliation.pairwise_compatible_fullPlan (distinct.within index) _
    fresh := fun _ member _ => Reconciliation.isFresh_of_mem_fullPlan before member }
  have settled := coherent.settled_dispatched ends orderless
    (.inr fun entry member _ => well entry member)
  rwa [(coherent.ending_dispatched ends).2] at settled

/-- If all messages of a full run went well, the files that they need could be read. -/
theorem ReachesFull.reads (exact : installation.backend.Exact) (fits : installation.snapshot.Fits)
    (reached : installation.ReachesFull begun last) (ends : last.Ends outcome)
    (well : ∀ entry ∈ last.handled, entry.2 = .ok true) {message : IndexMessage}
    (planned : message ∈ fullPlan installation.snapshot (installation.stamp begun)) :
    installation.Reads message := by
  have coherent := reached.coherent_of_ends exact fits ends
  rw [← (coherent.ending_dispatched ends).2, ← (coherent.handled_perm ends).mem_iff] at planned
  obtain ⟨entry, member, rfl⟩ := List.mem_map.mp planned
  exact coherent.read entry member (well entry member)

/-- If all messages of a full run went well, the indexes hold what the snapshot and the files make
up, as long as no course and no descriptor was ingested in the second in which the run began. -/
theorem renewed_of_full (exact : installation.backend.Exact)
    (distinct : installation.snapshot.Distinct) (fits : installation.snapshot.Fits)
    (before : FilledBefore installation.backend begun (installation.stamp begun))
    (reached : installation.ReachesFull begun last) (ends : last.Ends outcome)
    (well : ∀ entry ∈ last.handled, entry.2 = .ok true) : installation.Renewed last.world := by
  -- each entity is asked for by one planned message, whose effect is to write its documents
  have written {message : IndexMessage} {index : String} {documents : List Document}
      (planned : message ∈ fullPlan installation.snapshot (installation.stamp begun))
      (writes : installation.effect message = .write index documents) :
      ∀ document ∈ documents, installation.backend.lasting last.world index document.id =
        some document.source.lasting :=
    (reached.settled exact distinct fits before ends well index).written documents
      (writes ▸ List.mem_map_of_mem planned)
  refine ⟨fun material inside filed => ?_, fun composite inside document own => ?_,
    fun descriptor inside time => ?_⟩
  · have known : material.id ∈ installation.snapshot.fileLearningMaterialIds :=
      List.mem_map_of_mem (List.mem_filter.mpr ⟨inside, filed⟩)
    obtain ⟨ids, member, asked⟩ := exists_mem_batches known
    have planned : .indexLearningMaterials ids true ∈
        fullPlan installation.snapshot (installation.stamp begun) :=
      mem_fullPlan_iff.mpr (.inl ⟨ids, member, rfl⟩)
    obtain ⟨documents, built⟩ := reached.reads exact fits ends well planned
    have found : material ∈ installation.snapshot.findLearningMaterials ids :=
      List.mem_filter.mpr ⟨inside, by simpa using asked⟩
    obtain ⟨text, read, subset⟩ :=
      LearningMaterialIndexer.exists_documents_subset_documentsWith built found
    have writes : installation.effect (.indexLearningMaterials ids true) =
        .write LearningMaterialIndexer.indexName documents := by
      simp only [effect, IndexMessage.effect, built, Except.toOption, Option.getD_some]
    exact ⟨text, read, fun piece own => written planned writes piece (subset own)⟩
  · have known : composite.course.id ∈ installation.snapshot.courseIds :=
      List.mem_map_of_mem inside
    obtain ⟨ids, member, asked⟩ := exists_mem_batches known
    have planned : .indexCourses ids (installation.stamp begun) ∈
        fullPlan installation.snapshot (installation.stamp begun) :=
      mem_fullPlan_iff.mpr (.inr (.inl ⟨ids, member, rfl⟩))
    have found : composite ∈ installation.snapshot.findCourses ids :=
      List.mem_filter.mpr ⟨inside, by simpa using asked⟩
    exact written planned rfl document (List.mem_flatMap.mpr ⟨composite, found, own⟩)
  · have known : descriptor.id ∈ installation.snapshot.meshDescriptorIds :=
      List.mem_map_of_mem inside
    obtain ⟨ids, member, asked⟩ := exists_mem_batches known
    have planned : .indexMeshDescriptors ids (installation.stamp begun) ∈
        fullPlan installation.snapshot (installation.stamp begun) :=
      mem_fullPlan_iff.mpr (.inr (.inr ⟨ids, member, rfl⟩))
    have found : descriptor ∈ installation.snapshot.findMeshDescriptors ids :=
      List.mem_filter.mpr ⟨inside, by simpa using asked⟩
    have lasting := written planned rfl (descriptor.document "") (List.mem_map_of_mem found)
    rwa [MeshDescriptor.id_document, MeshDescriptor.lasting_document descriptor "" time] at lasting

/-- Without failures some execution of a full run ends well. -/
theorem exists_success_full (exact : installation.backend.Exact)
    (never : installation.backend.NeverFails)
    (readable : ∀ path, ∃ text, installation.backend.files path = .ok text)
    (fits : installation.snapshot.Fits) :
    ∃ last outcome, installation.ReachesFull begun last ∧ last.Ends outcome ∧
      ∀ entry ∈ last.handled, entry.2 = .ok true := by
  obtain ⟨last, outcome, reached, ends⟩ := Interplay.exists_reaches_end installation.backend.serve
    installation.handler.handle (.start begun (Reconciliation.run installation.handler .full))
  have coherent := ReachesFull.coherent_of_ends exact fits reached ends
  exact ⟨last, outcome, reached, ends, coherent.succeeded never readable⟩

end Ended

end Installation

/-- A course that the engine reports as ingested since the stamp is passed over. -/
theorem CurriculumIndexer.run_index_of_reported {σ : Type}
    {serve : (request : Service.Request) → σ → Service.Reply request × σ} {state : σ}
    (keepAlive : String) (composite : CompositeCourse) {stamp : Instant} {answer : Json}
    (answered : serve (.engine (.search ⟨indexName, .indexed courseIdField
      [.integer composite.course.id] (some (ingestTimeField, stamp)), none⟩)) state =
        (.ok answer, state))
    (reported : aggregationKeys answer courseIdField = .ok [composite.course.id]) :
    ((CurriculumIndexer.new true keepAlive).index [.course composite] stamp).run serve state =
      (.ok true, state) := by
  have portions : batches Query.answerLimit [composite.course.id] = [[composite.course.id]] := by
    simp [batches]
  have asked : (Task.engine (.search ⟨indexName, .indexed courseIdField
      [.integer composite.course.id] (some (ingestTimeField, stamp)), none⟩)).run serve state =
        (.ok answer, state) := by
    rw [Task.engine, Program.run, answered]
    rfl
  have found : ((CurriculumIndexer.new true keepAlive).catalog.foundIn courseIdField
      (some (ingestTimeField, stamp)) [[composite.course.id]]).run serve state =
        (.ok [composite.course.id], state) := by
    rw [Catalog.foundIn]
    refine (Program.run_andThen_of_ok asked _).trans ?_
    rw [reported]
    rfl
  have skipped : ([composite].filter fun course => !(SkipSet.ofCandidates [composite.course.id]
      [composite.course.id]).contains course.course.id) = [] := by
    simp [SkipSet.ofCandidates, SkipSet.contains]
  change (((((CurriculumIndexer.new true keepAlive).catalog.foundIn courseIdField
    (some (ingestTimeField, stamp)) (batches Query.answerLimit [composite.course.id])).andThen
      _).andThen _).andThen _).run serve state = _
  rw [portions, Program.andThen_assoc, Program.andThen_assoc]
  refine (Program.run_andThen_of_ok found _).trans ?_
  change ((CurriculumIndexer.new true keepAlive).write ([composite].filter fun course =>
    !(SkipSet.ofCandidates [composite.course.id] [composite.course.id]).contains
      course.course.id)).run serve state = _
  rw [skipped]
  rfl

namespace Installation
namespace Sample

open Reconciliation (FilledBefore)

theorem filledBefore_begun (snapshot : Snapshot) :
    FilledBefore (system snapshot).backend begun ((system snapshot).stamp begun) where
  courses := ingestedBefore_begun snapshot
  descriptors _ := Memory.not_ingestedSince_of_mem_holding _ (by decide)

/-- A full run over the later sample renews everything. -/
theorem renewed_after_begun :
    ∃ last outcome, (system current).ReachesFull begun last ∧ last.Ends outcome ∧
      (∀ entry ∈ last.handled, entry.2 = .ok true) ∧ (system current).Renewed last.world := by
  have success : ∃ last outcome, (system current).ReachesFull begun last ∧ last.Ends outcome ∧
      ∀ entry ∈ last.handled, entry.2 = .ok true :=
    exists_success_full (Memory.exact_backend _) (Memory.neverFails_backend _)
      (fun _ => ⟨none, rfl⟩) fits_current
  obtain ⟨last, outcome, reached, ends, well⟩ := success
  exact ⟨last, outcome, reached, ends, well, renewed_of_full (Memory.exact_backend _)
    distinct_current fits_current (filledBefore_begun current) reached ends well⟩

def pastNoon : Instant :=
  { noon with nanosecond := 500000000, nanosecond_lt := by decide }

/-- The two courses were indexed at noon, and now it is half a second later. -/
def hasty : Memory :=
  .holding earlier noon pastNoon

def retitled : Snapshot where
  courses := [⟨{ id := 1, title := "Human anatomy" }, [{ id := 10 }]⟩]

theorem stamp_hasty (snapshot : Snapshot) : (system snapshot).stamp hasty = pastNoon := rfl

theorem distinct_retitled : retitled.Distinct :=
  ⟨by decide, by decide, by decide, by decide⟩

def former : CompositeCourse := ⟨{ id := 1, title := "Anatomy" }, [{ id := 10 }]⟩

theorem lasting_former :
    (system retitled).backend.lasting hasty CurriculumIndexer.indexName
      (CompositeCourse.documentId 1 10) = some (former.document { id := 10 }).source.lasting := by
  have inside : former.document { id := 10 } ∈ earlier.courseDocuments earlier.courseIds :=
    List.mem_cons_self
  have named := former.id_document { id := 10 }
  rw [show CompositeCourse.documentId 1 10 = _ from named.symm]
  exact Memory.lasting_holding _ (distinct_earlier.within _) inside

/-- The engine counts the first course as ingested half a second after noon or later. -/
theorem tally_hasty :
    Memory.tally (.ofCandidates CurriculumIndexer.courseIdField [.integer 1]
      (some (CurriculumIndexer.ingestTimeField, pastNoon)))
        (hasty.shelf CurriculumIndexer.indexName) = [.integer 1] := by
  obtain ⟨fields, present, same⟩ := Option.map_eq_some_iff.mp lasting_former
  have member := Backend.mem_documents_of_stored (Memory.exact_backend _) present
  obtain ⟨source, _, _, written⟩ := Memory.exists_of_mem_holding _ member
  have course : Fields.get? CurriculumIndexer.courseIdField fields = some (.integer 1) :=
    (Fields.get?_eq_of_lasting_eq (by decide) same).trans
      (former.get?_document_course { id := 10 })
  have recent : fields.IngestedSince CurriculumIndexer.ingestTimeField pastNoon := by
    rw [show fields = _ from written]
    exact (Fields.ingestedSince_insert_bound_iff _ noon pastNoon).mpr (by decide)
  refine List.perm_singleton.mp ((List.perm_ext_iff_of_nodup (Memory.nodup_tally _ _)
    (List.nodup_singleton _)).mpr fun value => ?_)
  rw [Memory.mem_tally_iff, Aggregation.counts_ofCandidates_iff]
  refine ⟨And.left, fun own => ?_⟩
  obtain rfl := List.mem_singleton.mp own
  exact ⟨List.mem_singleton_self _, _, member, course, recent⟩

theorem run_handle_hasty :
    ((system retitled).handler.handle (.indexCourses [1] pastNoon)).run
      (system retitled).backend.serve hasty = (.ok true, hasty) := by
  have reported := hasty.reports_count CurriculumIndexer.indexName
    (Aggregation.ofBody?_indexed CurriculumIndexer.courseIdField [.integer 1]
      (some (CurriculumIndexer.ingestTimeField, pastNoon)))
  rw [tally_hasty] at reported
  exact CurriculumIndexer.run_index_of_reported "1m" _ rfl
    ((aggregationKeys_eq_ok_iff_of_reports reported).mpr (.cons rfl .nil))

theorem fullPlan_retitled :
    Reconciliation.fullPlan retitled pastNoon = [.indexCourses [1] pastNoon] := by
  simp [Reconciliation.fullPlan, batches, retitled, Snapshot.fileLearningMaterialIds,
    Snapshot.courseIds, Snapshot.meshDescriptorIds]

/-- A full run over the retitled course ends well, and nothing is written. -/
theorem reachesFull_hasty :
    (system retitled).ReachesFull hasty
      ⟨hasty, .done (.ok (Reconciliation.fullReport retitled pastNoon)),
        [.indexCourses [1] pastNoon], [], none, [(.indexCourses [1] pastNoon, .ok true)]⟩ := by
  have handled := Interplay.reaches_handled (system retitled).backend.serve
    (system retitled).handler.handle (.done (.ok (Reconciliation.fullReport retitled pastNoon)))
    [.indexCourses [1] pastNoon] (.indexCourses [1] pastNoon) [] [] hasty
  rw [run_handle_hasty] at handled
  refine .head (.request hasty .clock _ [] [] none []) ?_
  change Interplay.Reaches _ _
    ⟨hasty, Reconciliation.runFull (.of retitled) pastNoon, [], [], none, []⟩ _
  rw [Reconciliation.runFull_eq, fullPlan_retitled]
  exact .head (.dispatch hasty _ _ [] [] none []) handled

/-- All documents were ingested before a full run that goes well, and yet a course keeps its former
title, because it was ingested in the second in which the run begins. -/
theorem exists_outdated :
    retitled.Distinct ∧ Reachable (system retitled).backend hasty ∧
      (∀ index, ∀ document ∈ (system retitled).backend.documents hasty index, ∃ text time,
        document.get? Fields.timeField = some (.string text) ∧
          Calendar.instant? text = some time ∧
            time.isBefore ((system retitled).stamp hasty) = true) ∧
      ∃ last outcome, (system retitled).ReachesFull hasty last ∧ last.Ends outcome ∧
        (∀ entry ∈ last.handled, entry.2 = .ok true) ∧
          ¬ (system retitled).Renewed last.world := by
  have reachable : Reachable (system retitled).backend hasty :=
    Memory.reachable_holding _ fits_earlier (List.ne_nil_of_length_pos
      (by decide : 0 < (earlier.courseDocuments earlier.courseIds).length))
  refine ⟨distinct_retitled, reachable, fun index document member => ?_, _, _,
    reachesFull_hasty, ⟨rfl, rfl, rfl⟩, ?_, fun renewed => ?_⟩
  · obtain ⟨source, _, _, fields⟩ := Memory.exists_of_mem_holding _ member
    have shown := Fields.get?_insert_self Fields.timeField (.string noon.bound) source.source
    rw [← fields] at shown
    rw [stamp_hasty]
    exact ⟨noon.bound, noon.wholeSecond, shown, Calendar.instant?_bound noon, by decide⟩
  · simp
  · -- the former title, which is still in the index, is not the one that the snapshot has now
    have held := renewed.courses _ List.mem_cons_self _ List.mem_cons_self
    rw [CompositeCourse.id_document] at held
    have same := Option.some.inj (held.symm.trans lasting_former)
    have titles := Fields.get?_eq_of_lasting_eq (show "courseTitle" ≠ Fields.timeField by decide)
      same
    have before := former.get?_document_title { id := 10 }
    have now := CompositeCourse.get?_document_title
      ⟨{ id := 1, title := "Human anatomy" }, [{ id := 10 }]⟩ { id := 10 }
    exact absurd (now.symm.trans (titles.trans before)) (by simp [former])

end Sample

end Installation
end LearningIndex
