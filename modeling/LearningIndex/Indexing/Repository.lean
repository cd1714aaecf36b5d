import LearningIndex.Indexing.Error

/-!
# Repositories

The entities as the learning platform knows them.  A repository is a snapshot, or it fails every
request.  What is looked up by ids comes in the order of the repository, and ids that it does not
know are passed over.
-/

namespace LearningIndex

/-- The entities at one time. -/
structure Snapshot where
  learningMaterials : List LearningMaterial := []
  courses : List CompositeCourse := []
  meshDescriptors : List MeshDescriptor := []
deriving DecidableEq, Repr

namespace Snapshot

/-- The learning materials with one of the ids. -/
def findLearningMaterials (snapshot : Snapshot) (ids : List Int) : List LearningMaterial :=
  snapshot.learningMaterials.filter fun material => ids.contains material.id

def findCourses (snapshot : Snapshot) (ids : List Int) : List CompositeCourse :=
  snapshot.courses.filter fun composite => ids.contains composite.course.id

def findMeshDescriptors (snapshot : Snapshot) (ids : List String) : List MeshDescriptor :=
  snapshot.meshDescriptors.filter fun descriptor => ids.contains descriptor.id

/-- The ids of the learning materials that have a file. -/
def fileLearningMaterialIds (snapshot : Snapshot) : List Int :=
  (snapshot.learningMaterials.filter (·.hasFile)).map (·.id)

def courseIds (snapshot : Snapshot) : List Int :=
  snapshot.courses.map (·.course.id)

/-- The ids of all sessions, each with the id of its course. -/
def sessionCourseIds (snapshot : Snapshot) : List (Int × Int) :=
  snapshot.courses.flatMap fun composite =>
    composite.sessions.map fun session => (session.id, composite.course.id)

def meshDescriptorIds (snapshot : Snapshot) : List String :=
  snapshot.meshDescriptors.map (·.id)

end Snapshot

/-- A source of entities. -/
inductive Repository where
  | of (snapshot : Snapshot)
  /-- A source that fails with a text. -/
  | broken (text : String)

/-- What a repository says of its snapshot. -/
def Repository.read {α : Type} (repository : Repository) (view : Snapshot → α) :
    Except IndexingError α :=
  match repository with
  | of snapshot => .ok (view snapshot)
  | broken text => .error (.repository text)

end LearningIndex
