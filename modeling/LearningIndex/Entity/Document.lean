import LearningIndex.Json.Record

/-!
# Documents

What is written to an index.  The id of a document is also its id in the engine, so that writing a
document again replaces it.
-/

namespace LearningIndex

/-- A document for an index. -/
structure Document where
  /-- The id, made from the ids of what the document describes. -/
  id : String
  source : Fields

namespace Document

/-- The name of the field that repeats the id. -/
def idField : String := "id"

/-- A document with its id as the only field. -/
def new (id : String) : Document :=
  ⟨id, Fields.ofList [(idField, .string id)]⟩

def set (document : Document) (name : String) (value : Json) : Document :=
  { document with source := Fields.insert name value document.source }

def get? (document : Document) (name : String) : Option Json :=
  Fields.get? name document.source

/-- The document with the listed fields set in order. -/
def setAll (document : Document) (fields : List (String × Json)) : Document :=
  fields.foldl (fun document (name, value) => document.set name value) document

def ofLiteral? (literal : Literal) : Option Document := do
  let record ← literal.record? ["id", "source"]
  let id ← record.required "id" Literal.string?
  let source ← record.required "source" fun field => field.fields? (Literal.depthLimit - 1)
  return ⟨id, source⟩

def toJson (document : Document) : Json :=
  .ofFields [("id", .string document.id), ("source", .object document.source)]

end Document
end LearningIndex
