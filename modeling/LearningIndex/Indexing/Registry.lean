import LearningIndex.Engine.Mapping
import LearningIndex.Indexing.Curriculum
import LearningIndex.Indexing.LearningMaterials
import LearningIndex.Indexing.Mesh

/-!
# The registry of indexes

The indexes that the program needs are created and dropped together.  An index that exists is left
as it is, but its pipeline is registered again, before the index is looked for.  Without an engine
nothing is created or dropped.
-/

namespace LearningIndex

/-- The indexes of a deployment. -/
structure Registry where
  enabled : Bool
  /-- The indexes, in the order in which they are created. -/
  definitions : List IndexDefinition

namespace Registry

/-- The indexes that the program writes to. -/
def standard (enabled : Bool) : Registry :=
  ⟨enabled, [LearningMaterialIndexer.definition, CurriculumIndexer.definition,
    MeshIndexer.definition]⟩

/-- Registers the pipeline that an index names, if it names one. -/
def registerPipeline (definition : IndexDefinition) : Task Unit :=
  match definition.pipeline with
  | some pipeline => Task.engine (.putPipeline pipeline.id pipeline.body)
  | none => .done (.ok ())

/-- Creates an index unless it exists; says whether it was created. -/
def createMissing (definition : IndexDefinition) : Task Bool := do
  registerPipeline definition
  let found ← Task.engine (.indexExists definition.name)
  if found then return false
  Task.engine (.createIndex definition.name definition.mapping.body)
  return true

def createAll : List IndexDefinition → Task (List String)
  | [] => .done (.ok [])
  | definition :: rest => do
    let created ← createMissing definition
    let others ← createAll rest
    return if created then definition.name :: others else others

def dropAll : List IndexDefinition → Task (List String)
  | [] => .done (.ok [])
  | definition :: rest => do
    Task.engine (.deleteIndex definition.name)
    let others ← dropAll rest
    return definition.name :: others

/-- Creates every missing index; gives the names of those created. -/
def create (registry : Registry) : Task (List String) :=
  if registry.enabled then createAll registry.definitions else .done (.ok [])

def drop (registry : Registry) : Task (List String) :=
  if registry.enabled then dropAll registry.definitions else .done (.ok [])

/-- Whether there is an engine with a usable cluster. -/
def isHealthy (registry : Registry) : Task Bool :=
  if registry.enabled then Task.engine .health else .done (.ok false)

end Registry
end LearningIndex
