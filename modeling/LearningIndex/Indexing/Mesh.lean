import LearningIndex.Engine.Mapping
import LearningIndex.Indexing.Catalog

/-!
# The index of descriptors

The index holds one document per descriptor, with the time at which it was built.
-/

namespace LearningIndex

open Calendar (Instant)

structure MeshIndexer where
  catalog : Catalog

namespace MeshIndexer

def indexName : String := "lms-mesh"

def idField : String := "id"

def ingestTimeField : String := "ingestTime"

def new (enabled : Bool) (keepAlive : String) : MeshIndexer :=
  ⟨⟨indexName, keepAlive, enabled⟩⟩

/-- Indexes the descriptors that were not ingested since the stamp.  Says whether the engine
accepted every document. -/
def index (indexer : MeshIndexer) (entities : List Entity) (stamp : Instant) : Task Bool := do
  indexer.catalog.requireEngine
  let descriptors ← Program.ofExcept (expectAll .meshDescriptor Entity.meshDescriptor? entities)
  let skip ← indexer.catalog.skipSet idField (descriptors.map (·.id))
    (some (ingestTimeField, stamp))
  let now ← Task.clock
  let fresh := descriptors.filter fun descriptor => !skip.contains descriptor.id
  indexer.catalog.write (fresh.map (·.document now.bound))

/-- The ids of all descriptors in the index. -/
def allIds (indexer : MeshIndexer) : Task (List String) :=
  indexer.catalog.allIds idField

def delete (indexer : MeshIndexer) (id : String) : Task Bool :=
  indexer.catalog.deleteWhere idField (.string id)

/-- The fields that a search looks at, with their weights. -/
def searchedFields : List String :=
  ["id^5", "name^3", "termNames^2", "conceptNames", "scopeNotes", "annotation"]

def hitIds (answer : Json) : List String :=
  (hitsOf answer).filterMap fun hit =>
    ((hit.get? "_source").bind (·.get? idField)).bind Json.string?

/-- The ids of the descriptors that match a text, the best match first. -/
def idSearch (indexer : MeshIndexer) (text : String) (size : Nat) : Task (List String) := do
  let answer ← indexer.catalog.search (.match_ text searchedFields [idField] size)
  return hitIds answer

def definition : IndexDefinition where
  name := indexName
  mapping := {
    version := "1"
    properties := [
      (idField, Mapping.keyword),
      ("name", Mapping.multilingualText),
      ("annotation", Mapping.multilingualText),
      ("previousIndexing", Mapping.multilingualText),
      ("conceptNames", Mapping.multilingualText),
      ("scopeNotes", Mapping.multilingualText),
      ("casn1Names", Mapping.multilingualText),
      ("termNames", Mapping.multilingualText),
      (ingestTimeField, Mapping.date)] }

end MeshIndexer
end LearningIndex
