import LearningIndex.Indexing.Handler
import LearningIndex.Indexing.Worker

/-!
# Reconciliation

Bringing the indexes in line with the repository.  A full run queues every known entity.  An
incremental run compares the ids in each index with the ids that the repository knows, queues what
is missing and queues the removal of what is no longer known.  A missing session is indexed through
its course.
-/

namespace LearningIndex

open Calendar (Instant)

/-- How much is brought in line. -/
inductive ReconciliationMode where
  | full
  /-- What is missing is indexed, and what is no longer known is removed. -/
  | incremental
deriving DecidableEq, Repr

/-- The numbers of ids queued for one kind of entity. -/
structure EntityCounts where
  queued : Nat := 0
  removed : Nat := 0
deriving DecidableEq, Repr

/-- What a reconciliation queued. -/
structure ReconciliationReport where
  mode : ReconciliationMode
  learningMaterials : EntityCounts := {}
  courses : EntityCounts := {}
  sessions : EntityCounts := {}
  meshDescriptors : EntityCounts := {}
  messages : Nat := 0
deriving DecidableEq, Repr

/-- The items of a list that do not occur in another one, in their order. -/
def absentFrom {κ : Type} [DecidableEq κ] (others items : List κ) : List κ :=
  items.filter fun item => !others.contains item

namespace Reconciliation

/-- The course of a session; of several the last one counts. -/
def courseOf? (sessions : List (Int × Int)) (session : Int) : Option Int :=
  sessions.reverse.lookup session

/-- The courses with the ones of some sessions added at the end, each once. -/
def addOwners (sessions : List (Int × Int)) : List Int → List Int → List Int
  | courses, [] => courses
  | courses, session :: rest =>
    match courseOf? sessions session with
    | some course =>
      if courses.contains course then addOwners sessions courses rest
      else addOwners sessions (courses ++ [course]) rest
    | none => addOwners sessions courses rest

/-- Dispatches requests that together carry all ids; gives their number. -/
def queueBatches {κ : Type} (ids : List κ)
    (request : List κ → Except IndexingError IndexMessage) : Producer Nat := do
  let messages ← Program.ofExcept (IndexMessage.batched ids request)
  Producer.dispatchAll messages
  return messages.length

/-- Dispatches a message for each id; gives their number. -/
def queueEach {κ : Type} (ids : List κ) (message : κ → IndexMessage) : Producer Nat := do
  Producer.dispatchAll (ids.map message)
  return ids.length

/-- Queues every known entity. -/
def runFull (repository : Repository) (stamp : Instant) : Producer ReconciliationReport := do
  let materials ← Program.ofExcept (repository.read (·.fileLearningMaterialIds))
  let materialMessages ← queueBatches materials (IndexMessage.learningMaterials · true)
  let courses ← Program.ofExcept (repository.read (·.courseIds))
  let courseMessages ← queueBatches courses (IndexMessage.courses · stamp)
  let descriptors ← Program.ofExcept (repository.read (·.meshDescriptorIds))
  let descriptorMessages ← queueBatches descriptors (IndexMessage.meshDescriptors · stamp)
  return {
    mode := .full
    learningMaterials := { queued := materials.length }
    courses := { queued := courses.length }
    meshDescriptors := { queued := descriptors.length }
    messages := materialMessages + courseMessages + descriptorMessages }

/-- Brings the learning materials in line; gives the counts and the number of messages. -/
def alignMaterials (repository : Repository) (indexer : LearningMaterialIndexer) :
    Producer (EntityCounts × Nat) := do
  let known ← Program.ofExcept (repository.read (·.fileLearningMaterialIds))
  let indexed ← Producer.ofTask indexer.allIds
  let missing := absentFrom indexed known
  let stale := absentFrom known indexed
  let requests ← queueBatches missing (IndexMessage.learningMaterials · false)
  let removals ← queueEach stale .deleteLearningMaterial
  return (⟨missing.length, stale.length⟩, requests + removals)

/-- Brings the courses and their sessions in line; gives the counts of both and the number of
messages. -/
def alignCourses (repository : Repository) (indexer : CurriculumIndexer) (stamp : Instant) :
    Producer (EntityCounts × EntityCounts × Nat) := do
  let knownCourses ← Program.ofExcept (repository.read (·.courseIds))
  let indexedCourses ← Producer.ofTask indexer.allCourseIds
  let staleCourses := absentFrom knownCourses indexedCourses
  let sessions ← Program.ofExcept (repository.read (·.sessionCourseIds))
  let indexedSessions ← Producer.ofTask indexer.allSessionIds
  let missingSessions := absentFrom indexedSessions (sessions.map (·.1))
  let staleSessions := absentFrom (sessions.map (·.1)) indexedSessions
  let courses := addOwners sessions (absentFrom indexedCourses knownCourses) missingSessions
  let requests ← queueBatches courses (IndexMessage.courses · stamp)
  let courseRemovals ← queueEach staleCourses .deleteCourse
  let sessionRemovals ← queueEach staleSessions .deleteSession
  return (⟨courses.length, staleCourses.length⟩,
    ⟨missingSessions.length, staleSessions.length⟩,
    requests + courseRemovals + sessionRemovals)

/-- Brings the descriptors in line; gives the counts and the number of messages. -/
def alignDescriptors (repository : Repository) (indexer : MeshIndexer) (stamp : Instant) :
    Producer (EntityCounts × Nat) := do
  let known ← Program.ofExcept (repository.read (·.meshDescriptorIds))
  let indexed ← Producer.ofTask indexer.allIds
  let missing := absentFrom indexed known
  let stale := absentFrom known indexed
  let requests ← queueBatches missing (IndexMessage.meshDescriptors · stamp)
  let removals ← queueEach stale .deleteMeshDescriptor
  return (⟨missing.length, stale.length⟩, requests + removals)

/-- Queues what is missing and the removal of what is no longer known. -/
def runIncremental (handler : Handler) (stamp : Instant) : Producer ReconciliationReport := do
  let indexers := handler.indexers
  let (materials, materialMessages) ←
    alignMaterials handler.repository indexers.learningMaterials
  let (courses, sessions, courseMessages) ←
    alignCourses handler.repository indexers.curriculum stamp
  let (descriptors, descriptorMessages) ←
    alignDescriptors handler.repository indexers.mesh stamp
  return {
    mode := .incremental
    learningMaterials := materials
    courses
    sessions
    meshDescriptors := descriptors
    messages := materialMessages + courseMessages + descriptorMessages }

/-- Queues what brings the indexes in line.  The start of the run is the stamp of its messages. -/
def run (handler : Handler) (mode : ReconciliationMode) : Producer ReconciliationReport := do
  Producer.ofTask handler.indexers.learningMaterials.catalog.requireEngine
  let stamp ← Producer.ofTask Task.clock
  match mode with
  | .full => runFull handler.repository stamp
  | .incremental => runIncremental handler stamp

end Reconciliation
end LearningIndex
