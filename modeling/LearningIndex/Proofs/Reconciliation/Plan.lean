import LearningIndex.Indexing.Reconciliation
import LearningIndex.Proofs.Batch
import LearningIndex.Proofs.Program.Trace

/-!
# The plan of an incremental run

An incremental run lists an index, compares the list with the snapshot and hands over its messages,
and then goes on to the next index.  What it hands over is a function of the snapshot and of what it
found, so the run is put here into that form: an enumeration, a list of messages, and so on.
-/

namespace LearningIndex

open Calendar (Instant)

/-- No two entities of a kind have the same id. -/
structure Snapshot.Distinct (snapshot : Snapshot) : Prop where
  materials : (snapshot.learningMaterials.map (·.id)).Nodup
  courses : snapshot.courseIds.Nodup
  sessions : (snapshot.sessionCourseIds.map (·.1)).Nodup
  descriptors : snapshot.meshDescriptorIds.Nodup

/-- No two entities of a kind that an index holds have the same id. -/
structure Snapshot.DistinctIn (snapshot : Snapshot) (index : String) : Prop where
  materials : index = LearningMaterialIndexer.indexName →
    (snapshot.learningMaterials.map (·.id)).Nodup
  courses : index = CurriculumIndexer.indexName → snapshot.courseIds.Nodup
  sessions : index = CurriculumIndexer.indexName → (snapshot.sessionCourseIds.map (·.1)).Nodup
  descriptors : index = MeshIndexer.indexName → snapshot.meshDescriptorIds.Nodup

theorem Snapshot.Distinct.within {snapshot : Snapshot} (distinct : snapshot.Distinct)
    (index : String) : snapshot.DistinctIn index where
  materials _ := distinct.materials
  courses _ := distinct.courses
  sessions _ := distinct.sessions
  descriptors _ := distinct.descriptors

namespace IndexMessage

theorem checkSize_of_le {κ : Type} {ids : List κ} (short : ids.length ≤ maxIds) :
    checkSize ids = .ok () := by
  simp [checkSize, short]

/-- Batches are never too large for a request. -/
theorem batched_eq {κ : Type} (ids : List κ) (message : List κ → IndexMessage) :
    (batched ids fun batch => (checkSize batch).map fun _ => message batch) =
      .ok ((batches maxIds ids).map message) := by
  have short : ∀ batch ∈ batches maxIds ids, batch.length ≤ maxIds := by
    intro batch member
    simpa [maxIds] using length_le_of_mem_batches member
  unfold batched
  generalize batches maxIds ids = cut at short
  induction cut with
  | nil => rfl
  | cons batch rest ih =>
      have later := ih fun other member => short other (List.mem_cons_of_mem batch member)
      rw [List.mapM_cons, checkSize_of_le (short batch List.mem_cons_self), later]
      rfl

end IndexMessage

namespace Reconciliation

open Producer (dispatchAll ofTask)

section Plan

variable (snapshot : Snapshot) (stamp : Instant)

/-- The file-backed materials that an index does not hold. -/
def missingMaterials (indexed : List Int) : List Int :=
  absentFrom indexed snapshot.fileLearningMaterialIds

/-- The indexed materials that have no file any more. -/
def staleMaterials (indexed : List Int) : List Int :=
  absentFrom snapshot.fileLearningMaterialIds indexed

def missingCourses (indexed : List Int) : List Int :=
  absentFrom indexed snapshot.courseIds

def staleCourses (indexed : List Int) : List Int :=
  absentFrom snapshot.courseIds indexed

def sessionIds : List Int :=
  snapshot.sessionCourseIds.map (·.1)

def missingSessions (indexed : List Int) : List Int :=
  absentFrom indexed (sessionIds snapshot)

def staleSessions (indexed : List Int) : List Int :=
  absentFrom (sessionIds snapshot) indexed

/-- The courses that are to be indexed: the missing ones and those of missing sessions. -/
def requestedCourses (courses sessions : List Int) : List Int :=
  addOwners snapshot.sessionCourseIds (missingCourses snapshot courses)
    (missingSessions snapshot sessions)

def missingDescriptors (indexed : List String) : List String :=
  absentFrom indexed snapshot.meshDescriptorIds

def staleDescriptors (indexed : List String) : List String :=
  absentFrom snapshot.meshDescriptorIds indexed

/-- The messages that follow from the indexed materials. -/
def materialPlan (indexed : List Int) : List IndexMessage :=
  (batches IndexMessage.maxIds (missingMaterials snapshot indexed)).map
      (.indexLearningMaterials · false) ++
    (staleMaterials snapshot indexed).map .deleteLearningMaterial

def coursePlan (courses sessions : List Int) : List IndexMessage :=
  (batches IndexMessage.maxIds (requestedCourses snapshot courses sessions)).map
      (.indexCourses · stamp) ++
    (staleCourses snapshot courses).map .deleteCourse ++
    (staleSessions snapshot sessions).map .deleteSession

def descriptorPlan (indexed : List String) : List IndexMessage :=
  (batches IndexMessage.maxIds (missingDescriptors snapshot indexed)).map
      (.indexMeshDescriptors · stamp) ++
    (staleDescriptors snapshot indexed).map .deleteMeshDescriptor

end Plan

/-- What the enumerations of a run find in the indexes. -/
structure Inventory where
  materials : List Int
  courses : List Int
  sessions : List Int
  descriptors : List String

/-- All messages of a run, in the order in which it hands them over. -/
def plan (snapshot : Snapshot) (stamp : Instant) (found : Inventory) : List IndexMessage :=
  materialPlan snapshot found.materials ++
    coursePlan snapshot stamp found.courses found.sessions ++
    descriptorPlan snapshot stamp found.descriptors

/-- What a run plans, message by message. -/
def IsPlanned (snapshot : Snapshot) (stamp : Instant) (found : Inventory) : IndexMessage → Prop
  | .indexLearningMaterials ids force =>
    ids ∈ batches IndexMessage.maxIds (missingMaterials snapshot found.materials) ∧ force = false
  | .indexCourses ids time =>
    ids ∈ batches IndexMessage.maxIds
      (requestedCourses snapshot found.courses found.sessions) ∧ time = stamp
  | .indexMeshDescriptors ids time =>
    ids ∈ batches IndexMessage.maxIds (missingDescriptors snapshot found.descriptors) ∧ time = stamp
  | .deleteLearningMaterial id => id ∈ staleMaterials snapshot found.materials
  | .deleteCourse id => id ∈ staleCourses snapshot found.courses
  | .deleteSession id => id ∈ staleSessions snapshot found.sessions
  | .deleteMeshDescriptor id => id ∈ staleDescriptors snapshot found.descriptors

theorem mem_plan_iff {snapshot : Snapshot} {stamp : Instant} {found : Inventory}
    {message : IndexMessage} :
    message ∈ plan snapshot stamp found ↔ IsPlanned snapshot stamp found message := by
  cases message <;> simp [plan, materialPlan, coursePlan, descriptorPlan, IsPlanned, eq_comm]

def planReport (snapshot : Snapshot) (stamp : Instant) (found : Inventory) :
    ReconciliationReport where
  mode := .incremental
  learningMaterials :=
    ⟨(missingMaterials snapshot found.materials).length,
      (staleMaterials snapshot found.materials).length⟩
  courses :=
    ⟨(requestedCourses snapshot found.courses found.sessions).length,
      (staleCourses snapshot found.courses).length⟩
  sessions :=
    ⟨(missingSessions snapshot found.sessions).length,
      (staleSessions snapshot found.sessions).length⟩
  meshDescriptors :=
    ⟨(missingDescriptors snapshot found.descriptors).length,
      (staleDescriptors snapshot found.descriptors).length⟩
  messages := (plan snapshot stamp found).length

theorem queueBatches_eq {κ : Type} (ids : List κ) (message : List κ → IndexMessage) :
    (queueBatches ids fun batch =>
        (IndexMessage.checkSize batch).map fun _ => message batch) =
      (dispatchAll ((batches IndexMessage.maxIds ids).map message)).andThen fun _ =>
        .done (.ok (batches IndexMessage.maxIds ids).length) := by
  simp [queueBatches, IndexMessage.batched_eq, Program.ofExcept]

theorem queueEach_eq {κ : Type} (ids : List κ) (message : κ → IndexMessage) :
    queueEach ids message =
      (dispatchAll (ids.map message)).andThen fun _ => .done (.ok ids.length) := rfl

theorem alignMaterials_eq (snapshot : Snapshot) (indexer : LearningMaterialIndexer) :
    alignMaterials (.of snapshot) indexer =
      (ofTask indexer.allIds).andThen fun indexed =>
        (dispatchAll (materialPlan snapshot indexed)).andThen fun _ =>
          .done (.ok
            (⟨(missingMaterials snapshot indexed).length,
              (staleMaterials snapshot indexed).length⟩,
              (materialPlan snapshot indexed).length)) := by
  unfold alignMaterials
  simp only [Repository.read, Program.ofExcept, Program.bind_eq_andThen,
    Program.done_ok_andThen, IndexMessage.learningMaterials]
  congr 1
  funext indexed
  rw [queueBatches_eq, queueEach_eq, materialPlan, Producer.dispatchAll_append]
  simp [Program.andThen_assoc, missingMaterials, staleMaterials]

theorem alignCourses_eq (snapshot : Snapshot) (indexer : CurriculumIndexer) (stamp : Instant) :
    alignCourses (.of snapshot) indexer stamp =
      (ofTask indexer.allCourseIds).andThen fun courses =>
        (ofTask indexer.allSessionIds).andThen fun sessions =>
          (dispatchAll (coursePlan snapshot stamp courses sessions)).andThen fun _ =>
            .done (.ok
              (⟨(requestedCourses snapshot courses sessions).length,
                (staleCourses snapshot courses).length⟩,
                ⟨(missingSessions snapshot sessions).length,
                  (staleSessions snapshot sessions).length⟩,
                (coursePlan snapshot stamp courses sessions).length)) := by
  unfold alignCourses
  simp only [Repository.read, Program.ofExcept, Program.bind_eq_andThen,
    Program.done_ok_andThen, IndexMessage.courses]
  congr 1
  funext courses
  congr 1
  funext sessions
  rw [queueBatches_eq, queueEach_eq, queueEach_eq, coursePlan, Producer.dispatchAll_append,
    Producer.dispatchAll_append]
  simp [Program.andThen_assoc, requestedCourses, missingCourses, staleCourses, missingSessions,
    staleSessions, sessionIds, Nat.add_assoc]

theorem alignDescriptors_eq (snapshot : Snapshot) (indexer : MeshIndexer) (stamp : Instant) :
    alignDescriptors (.of snapshot) indexer stamp =
      (ofTask indexer.allIds).andThen fun indexed =>
        (dispatchAll (descriptorPlan snapshot stamp indexed)).andThen fun _ =>
          .done (.ok
            (⟨(missingDescriptors snapshot indexed).length,
              (staleDescriptors snapshot indexed).length⟩,
              (descriptorPlan snapshot stamp indexed).length)) := by
  unfold alignDescriptors
  simp only [Repository.read, Program.ofExcept, Program.bind_eq_andThen,
    Program.done_ok_andThen, IndexMessage.meshDescriptors]
  congr 1
  funext indexed
  rw [queueBatches_eq, queueEach_eq, descriptorPlan, Producer.dispatchAll_append]
  simp [Program.andThen_assoc, missingDescriptors, staleDescriptors]

/-- The incremental run in full: each part lists its index, hands over its messages, and leaves the
later indexes unread until then. -/
theorem runIncremental_eq {handler : Handler} {snapshot : Snapshot}
    (known : handler.repository = .of snapshot) (stamp : Instant) :
    runIncremental handler stamp =
      (ofTask handler.indexers.learningMaterials.allIds).andThen fun materials =>
        (dispatchAll (materialPlan snapshot materials)).andThen fun _ =>
          (ofTask handler.indexers.curriculum.allCourseIds).andThen fun courses =>
            (ofTask handler.indexers.curriculum.allSessionIds).andThen fun sessions =>
              (dispatchAll (coursePlan snapshot stamp courses sessions)).andThen fun _ =>
                (ofTask handler.indexers.mesh.allIds).andThen fun descriptors =>
                  (dispatchAll (descriptorPlan snapshot stamp descriptors)).andThen fun _ =>
                    .done (.ok (planReport snapshot stamp
                      ⟨materials, courses, sessions, descriptors⟩)) := by
  unfold runIncremental
  simp only [known, alignMaterials_eq, alignCourses_eq, alignDescriptors_eq,
    Program.bind_eq_andThen, Program.andThen_assoc, Program.done_ok_andThen,
    Program.pure_eq_done, planReport, plan, List.length_append]

end Reconciliation
end LearningIndex
