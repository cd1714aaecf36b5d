import LearningIndex.Entity.Course
import LearningIndex.Entity.LearningMaterial
import LearningIndex.Entity.MeshDescriptor

/-!
# Kinds of entities

The entities that can be indexed are of three kinds, and each indexer accepts one of them.
-/

namespace LearningIndex

/-- The kinds of entities. -/
inductive EntityKind where
  | learningMaterial
  | course
  | meshDescriptor
deriving DecidableEq, Repr

/-- The name of a kind in messages. -/
def EntityKind.label : EntityKind → String
  | learningMaterial => "learning material"
  | course => "indexable course"
  | meshDescriptor => "mesh descriptor"

/-- An entity to be indexed. -/
inductive Entity where
  | learningMaterial (material : LearningMaterial)
  | course (composite : CompositeCourse)
  | meshDescriptor (descriptor : MeshDescriptor)
deriving DecidableEq, Repr

namespace Entity

def kind : Entity → EntityKind
  | learningMaterial _ => .learningMaterial
  | course _ => .course
  | meshDescriptor _ => .meshDescriptor

def ofLiteral? (kind : EntityKind) (literal : Literal) : Option Entity :=
  match kind with
  | .learningMaterial => (LearningMaterial.ofLiteral? literal).map learningMaterial
  | .course => (CompositeCourse.ofLiteral? literal).map course
  | .meshDescriptor => (MeshDescriptor.ofLiteral? literal).map meshDescriptor

def learningMaterial? : Entity → Option LearningMaterial
  | learningMaterial material => some material
  | _ => none

def course? : Entity → Option CompositeCourse
  | course composite => some composite
  | _ => none

/-- The descriptor, if the entity is one. -/
def meshDescriptor? : Entity → Option MeshDescriptor
  | meshDescriptor descriptor => some descriptor
  | _ => none

end Entity
end LearningIndex
