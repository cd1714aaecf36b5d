import LearningIndex.Indexing.Curriculum
import LearningIndex.Indexing.LearningMaterials
import LearningIndex.Indexing.Mesh
import LearningIndex.Indexing.Message
import LearningIndex.Indexing.Repository

/-!
# Handling messages

A message is handled by loading the entities that it names and giving them to their indexer, or by
deleting what it names.
-/

namespace LearningIndex

structure Indexers where
  learningMaterials : LearningMaterialIndexer
  curriculum : CurriculumIndexer
  mesh : MeshIndexer

def Indexers.new (enabled : Bool) (keepAlive : String) (uploadLimit : Nat) : Indexers where
  learningMaterials := .new enabled keepAlive uploadLimit
  curriculum := .new enabled keepAlive
  mesh := .new enabled keepAlive

/-- What is needed to handle messages. -/
structure Handler where
  repository : Repository
  indexers : Indexers

namespace Handler

/-- Handles a message; says whether the engine did all that was asked. -/
def handle (handler : Handler) : IndexMessage → Task Bool
  | .indexLearningMaterials ids force => do
    let materials ← Program.ofExcept (handler.repository.read (·.findLearningMaterials ids))
    handler.indexers.learningMaterials.index (materials.map .learningMaterial) force
  | .indexCourses ids stamp => do
    let courses ← Program.ofExcept (handler.repository.read (·.findCourses ids))
    handler.indexers.curriculum.index (courses.map .course) stamp
  | .indexMeshDescriptors ids stamp => do
    let descriptors ← Program.ofExcept (handler.repository.read (·.findMeshDescriptors ids))
    handler.indexers.mesh.index (descriptors.map .meshDescriptor) stamp
  | .deleteLearningMaterial id => handler.indexers.learningMaterials.delete id
  | .deleteCourse id => handler.indexers.curriculum.deleteCourse id
  | .deleteSession id => handler.indexers.curriculum.deleteSession id
  | .deleteMeshDescriptor id => handler.indexers.mesh.delete id

end Handler
end LearningIndex
