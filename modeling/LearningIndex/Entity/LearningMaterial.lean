import LearningIndex.Json.Record

/-!
# Learning materials

A learning material may have an uploaded file, of which only the extracted text matters here.
-/

namespace LearningIndex

/-- A learning material. -/
structure LearningMaterial where
  id : Int
  title : String
  description : Option String
  filename : Option String
  /-- The path of the uploaded file below the storage root; links and citations have none. -/
  relativePath : Option String
deriving DecidableEq, Repr

namespace LearningMaterial

def fieldNames : List String :=
  ["id", "title", "description", "filename", "relativePath"]

def ofLiteral? (literal : Literal) : Option LearningMaterial := do
  let record ← literal.record? fieldNames
  let id ← record.required "id" Literal.signed64?
  let title ← record.required "title" Literal.string?
  let description ← record.optionalText "description"
  let filename ← record.optionalText "filename"
  let relativePath ← record.optionalText "relativePath"
  return { id, title, description, filename, relativePath }

def toJson (material : LearningMaterial) : Json :=
  .ofFields [
    ("id", .integer material.id),
    ("title", .string material.title),
    ("description", .optionalString material.description),
    ("filename", .optionalString material.filename),
    ("relativePath", .optionalString material.relativePath)]

/-- Whether the material has an uploaded file. -/
def hasFile (material : LearningMaterial) : Bool :=
  material.relativePath.isSome

end LearningMaterial
end LearningIndex
