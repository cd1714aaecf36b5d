import LearningIndex.Indexing.Message
import LearningIndex.Json.Record

/-!
# Messages in JSON

A message is written as an object with its kind in the field `type`.  It is read from such an
object, wherever the field `type` stands and whatever unknown fields are beside it, and also from an
array that begins with the kind and goes on with the other fields in their order.
-/

namespace LearningIndex
namespace IndexMessage

def toJson (message : IndexMessage) : Json :=
  let rest : List (String × Json) :=
    match message with
    | indexLearningMaterials ids force => [("ids", .integers ids), ("force", .bool force)]
    | indexCourses ids stamp => [("ids", .integers ids), ("stamp", .string stamp.text)]
    | indexMeshDescriptors ids stamp => [("ids", .strings ids), ("stamp", .string stamp.text)]
    | deleteLearningMaterial id => [("id", .integer id)]
    | deleteCourse id => [("id", .integer id)]
    | deleteSession id => [("id", .integer id)]
    | deleteMeshDescriptor id => [("id", .string id)]
  .ofFields (("type", .string message.kind) :: rest)

/-- The instant of a literal, if it is the text of one. -/
def stamp? (literal : Literal) : Option Calendar.Instant :=
  literal.string?.bind Calendar.instant?

/-- The request to index learning materials with the fields of a literal. -/
def materialsOf? (literal : Literal) : Option IndexMessage := do
  let record ← literal.record? ["ids", "force"]
  let ids ← record.required "ids" (Literal.list? Literal.signed64?)
  let force ← record.required "force" Literal.bool?
  return indexLearningMaterials ids force

def coursesOf? (literal : Literal) : Option IndexMessage := do
  let record ← literal.record? ["ids", "stamp"]
  let ids ← record.required "ids" (Literal.list? Literal.signed64?)
  let stamp ← record.required "stamp" stamp?
  return indexCourses ids stamp

def meshDescriptorsOf? (literal : Literal) : Option IndexMessage := do
  let record ← literal.record? ["ids", "stamp"]
  let ids ← record.required "ids" (Literal.list? Literal.string?)
  let stamp ← record.required "stamp" stamp?
  return indexMeshDescriptors ids stamp

def idOf? (literal : Literal) : Option Int := do
  let record ← literal.record? ["id"]
  record.required "id" Literal.signed64?

def textIdOf? (literal : Literal) : Option String := do
  let record ← literal.record? ["id"]
  record.required "id" Literal.string?

/-- The message of a kind with the fields of a literal. -/
def ofKind? (kind : String) (fields : Literal) : Option IndexMessage :=
  match kind with
  | "index_learning_materials" => materialsOf? fields
  | "index_courses" => coursesOf? fields
  | "index_mesh_descriptors" => meshDescriptorsOf? fields
  | "delete_learning_material" => (idOf? fields).map deleteLearningMaterial
  | "delete_course" => (idOf? fields).map deleteCourse
  | "delete_session" => (idOf? fields).map deleteSession
  | "delete_mesh_descriptor" => (textIdOf? fields).map deleteMeshDescriptor
  | _ => none

/-- The kind of a message and the literal of its other fields. -/
def splitKind? : Literal → Option (Literal × Literal)
  | .object fields =>
    match fields.partition fun (name, _) => name == some "type" with
    | ([(_, kind)], rest) => some (kind, .object rest)
    | _ => none
  | .array (kind :: rest) => some (kind, .array rest)
  | _ => none

/-- The message that a literal stands for.  The fields beside the kind must be values, also the
unknown ones. -/
def ofLiteral? (literal : Literal) : Option IndexMessage := do
  let _ ← literal.value?
  let (kind, fields) ← splitKind? literal
  ofKind? (← kind.string?) fields

end IndexMessage
end LearningIndex
