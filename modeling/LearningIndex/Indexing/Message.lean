import LearningIndex.Batch
import LearningIndex.Calendar.Timestamp
import LearningIndex.Indexing.Error

/-!
# Messages

The work that is handed to a background worker.  A request to index carries a batch of ids, a
request to delete carries one.  New requests are held to a size that keeps one turn of the worker
small; a message that is read from JSON is taken as it is.

In JSON a message is an object whose field `type` tells the kind.
-/

namespace LearningIndex

open Calendar (Instant)

/-- A piece of work. -/
inductive IndexMessage where
  /-- Index learning materials, the present ones too if forced. -/
  | indexLearningMaterials (ids : List Int) (force : Bool)
  /-- Index courses that were not ingested since the stamp. -/
  | indexCourses (ids : List Int) (stamp : Instant)
  /-- Index descriptors that were not ingested since the stamp. -/
  | indexMeshDescriptors (ids : List String) (stamp : Instant)
  | deleteLearningMaterial (id : Int)
  | deleteCourse (id : Int)
  | deleteSession (id : Int)
  | deleteMeshDescriptor (id : String)
deriving DecidableEq, Repr

namespace IndexMessage

/-- The largest number of ids in one request. -/
def maxIds : Nat := 50

/-- Checks the number of ids of a request. -/
def checkSize {κ : Type} (ids : List κ) : Except IndexingError Unit :=
  if ids.length ≤ maxIds then .ok () else .error (.messageTooLarge maxIds ids.length)

/-- The request to index learning materials, if there are not too many. -/
def learningMaterials (ids : List Int) (force : Bool) : Except IndexingError IndexMessage :=
  (checkSize ids).map fun _ => indexLearningMaterials ids force

/-- The request to index courses, if there are not too many. -/
def courses (ids : List Int) (stamp : Instant) : Except IndexingError IndexMessage :=
  (checkSize ids).map fun _ => indexCourses ids stamp

/-- The request to index descriptors, if there are not too many. -/
def meshDescriptors (ids : List String) (stamp : Instant) : Except IndexingError IndexMessage :=
  (checkSize ids).map fun _ => indexMeshDescriptors ids stamp

/-- The requests that together carry all ids of a list, in order. -/
def batched {κ : Type} (ids : List κ) (request : List κ → Except IndexingError IndexMessage) :
    Except IndexingError (List IndexMessage) :=
  (batches maxIds ids).mapM request

/-- The name of the kind of a message. -/
def kind : IndexMessage → String
  | indexLearningMaterials _ _ => "index_learning_materials"
  | indexCourses _ _ => "index_courses"
  | indexMeshDescriptors _ _ => "index_mesh_descriptors"
  | deleteLearningMaterial _ => "delete_learning_material"
  | deleteCourse _ => "delete_course"
  | deleteSession _ => "delete_session"
  | deleteMeshDescriptor _ => "delete_mesh_descriptor"

end IndexMessage
end LearningIndex
