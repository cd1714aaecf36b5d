import LearningIndex.Entity.Document
import LearningIndex.Json.Record

/-!
# Descriptors

The descriptors of the MeSH vocabulary.  Each has concepts, and each concept has terms.
-/

namespace LearningIndex

/-- A term for a concept. -/
structure MeshTerm where
  id : String
  name : String
deriving DecidableEq, Repr

/-- A concept of a descriptor. -/
structure MeshConcept where
  id : String
  name : String
  scopeNote : Option String := none
  casn1Name : Option String := none
  terms : List MeshTerm := []
deriving DecidableEq, Repr

/-- A descriptor with its concepts. -/
structure MeshDescriptor where
  id : String
  name : String
  note : Option String := none
  previousIndexing : List String := []
  concepts : List MeshConcept := []
deriving DecidableEq, Repr

namespace MeshTerm

def fieldNames : List String := ["id", "name"]

def ofLiteral? (literal : Literal) : Option MeshTerm := do
  let record ← literal.record? fieldNames
  let id ← record.required "id" Literal.string?
  let name ← record.required "name" Literal.string?
  return { id, name }

def toJson (term : MeshTerm) : Json :=
  .ofFields [("id", .string term.id), ("name", .string term.name)]

end MeshTerm

namespace MeshConcept

def fieldNames : List String := ["id", "name", "scopeNote", "casn1Name", "terms"]

def ofLiteral? (literal : Literal) : Option MeshConcept := do
  let record ← literal.record? fieldNames
  let id ← record.required "id" Literal.string?
  let name ← record.required "name" Literal.string?
  let scopeNote ← record.optionalText "scopeNote"
  let casn1Name ← record.optionalText "casn1Name"
  let terms ← record.withDefault "terms" (Literal.list? MeshTerm.ofLiteral?) []
  return { id, name, scopeNote, casn1Name, terms }

def toJson (concept : MeshConcept) : Json :=
  .ofFields [
    ("id", .string concept.id),
    ("name", .string concept.name),
    ("scopeNote", .optionalString concept.scopeNote),
    ("casn1Name", .optionalString concept.casn1Name),
    ("terms", .array (concept.terms.map MeshTerm.toJson))]

end MeshConcept

namespace MeshDescriptor

def fieldNames : List String := ["id", "name", "annotation", "previousIndexing", "concepts"]

def ofLiteral? (literal : Literal) : Option MeshDescriptor := do
  let record ← literal.record? fieldNames
  let id ← record.required "id" Literal.string?
  let name ← record.required "name" Literal.string?
  let note ← record.optionalText "annotation"
  let previousIndexing ← record.texts "previousIndexing"
  let concepts ← record.withDefault "concepts" (Literal.list? MeshConcept.ofLiteral?) []
  return { id, name, note, previousIndexing, concepts }

def toJson (descriptor : MeshDescriptor) : Json :=
  .ofFields [
    ("id", .string descriptor.id),
    ("name", .string descriptor.name),
    ("annotation", .optionalString descriptor.note),
    ("previousIndexing", .strings descriptor.previousIndexing),
    ("concepts", .array (descriptor.concepts.map MeshConcept.toJson))]

/-- The document of a descriptor that is ingested at the given time. -/
def document (descriptor : MeshDescriptor) (ingestTime : String) : Document :=
  let concepts := descriptor.concepts
  (Document.new descriptor.id).setAll [
    ("name", .string descriptor.name),
    ("annotation", .optionalString descriptor.note),
    ("previousIndexing", .strings descriptor.previousIndexing),
    ("conceptNames", .strings (concepts.map (·.name))),
    ("scopeNotes", .strings (concepts.filterMap (·.scopeNote))),
    ("casn1Names", .strings (concepts.filterMap (·.casn1Name))),
    ("termNames", .strings (concepts.flatMap fun concept => concept.terms.map (·.name))),
    ("ingestTime", .string ingestTime)]

end MeshDescriptor
end LearningIndex
