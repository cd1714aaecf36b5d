import LearningIndex.Command.Error
import LearningIndex.Indexing.Handler
import LearningIndex.Indexing.Reconciliation
import LearningIndex.Indexing.Registry

/-!
# Operations

The operations behind the commands.  Work on entities goes through a worker in the same process, and
an operation succeeds only if the worker handled every message and the engine accepted every item.
-/

namespace LearningIndex

open Calendar (Instant)

/-- What the commands work on. -/
structure Deployment where
  enabled : Bool
  handler : Handler
  registry : Registry

def Deployment.new (enabled : Bool) (keepAlive : String) (uploadLimit : Nat)
    (repository : Repository) : Deployment where
  enabled
  handler := ⟨repository, .new enabled keepAlive uploadLimit⟩
  registry := .standard enabled

/-- A program over the services that may fail with the error of a run. -/
abbrev Operation := Program services RunError

namespace Operation

def ofTask {α : Type} (task : Task α) : Operation α :=
  task.mapError .indexing

/-- Checks what a worker did. -/
def checkSummary (summary : WorkerSummary) : Except RunError Unit :=
  if summary.isIncomplete then
    .error (.incomplete summary.failed summary.abandoned summary.total)
  else if 0 < summary.degraded then .error (.degraded summary.degraded summary.total)
  else .ok ()

/-- Runs a producer with a worker; gives what it produced and what the worker did. -/
def withWorker {α : Type} (deployment : Deployment) (producer : Producer α) :
    Operation (α × WorkerSummary) := do
  let (produced, summary) ← ofTask
    (producer.withWorker Worker.defaultCapacity deployment.handler.handle [] {})
  let result ← Program.ofExcept (produced.mapError .indexing)
  Program.ofExcept (checkSummary summary)
  return (result, summary)

/-- Creates every missing index; gives the names of those created. -/
def createIndexes (deployment : Deployment) : Operation (List String) :=
  ofTask deployment.registry.create

def dropIndexes (deployment : Deployment) : Operation (List String) :=
  ofTask deployment.registry.drop

/-- Brings the indexes in line with the repository, and waits for the worker. -/
def reconcile (deployment : Deployment) (mode : ReconciliationMode) :
    Operation ReconciliationReport := do
  let (report, _) ← withWorker deployment (Reconciliation.run deployment.handler mode)
  return report

def runMessages (deployment : Deployment) (messages : List IndexMessage) :
    Operation WorkerSummary := do
  let (_, summary) ← withWorker deployment (Producer.dispatchAll messages)
  return summary

def idsOrAll {κ : Type} (deployment : Deployment) (ids : List κ) (all : Snapshot → List κ) :
    Operation (List κ) :=
  if ids.isEmpty then
    .ofExcept ((deployment.handler.repository.read all).mapError .indexing)
  else .done (.ok ids)

/-- Indexes the given learning materials, or all that have a file. -/
def indexLearningMaterials (deployment : Deployment) (ids : List Int) (force : Bool) :
    Operation WorkerSummary := do
  let ids ← idsOrAll deployment ids (·.fileLearningMaterialIds)
  let messages ← ofTask
    (.ofExcept (IndexMessage.batched ids (IndexMessage.learningMaterials · force)))
  runMessages deployment messages

def indexCourses (deployment : Deployment) (ids : List Int) : Operation WorkerSummary := do
  let ids ← idsOrAll deployment ids (·.courseIds)
  let stamp ← ofTask Task.clock
  let messages ← ofTask (.ofExcept (IndexMessage.batched ids (IndexMessage.courses · stamp)))
  runMessages deployment messages

def indexMesh (deployment : Deployment) (ids : List String) : Operation WorkerSummary := do
  let ids ← idsOrAll deployment ids (·.meshDescriptorIds)
  let stamp ← ofTask Task.clock
  let messages ← ofTask
    (.ofExcept (IndexMessage.batched ids (IndexMessage.meshDescriptors · stamp)))
  runMessages deployment messages

def searchCurriculum (deployment : Deployment) (text : String) (size : Nat) :
    Operation (List CourseHit) :=
  ofTask (deployment.handler.indexers.curriculum.search text size)

end Operation
end LearningIndex
