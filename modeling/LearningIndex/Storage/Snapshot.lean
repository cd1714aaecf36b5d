import LearningIndex.Indexing.Repository
import LearningIndex.Machine

/-!
# Snapshots on disk

A directory holds a snapshot in three files, each of which is a JSON array of entities.  A file that
is not there stands for the empty array.

Bytes that encode no character may stand in a string of a field that is not read, as halves of
surrogate pairs may, but nowhere else.
-/

namespace LearningIndex
namespace Storage

/-- The text of bytes in which each part that encodes no character is put as the escapes of two
halves of surrogate pairs, which make a string without a text.  Where a backslash stands before such
a part, it is put as a control character, which is refused after a backslash. -/
def spell (afterBackslash : Bool) : ByteString → List Char
  | [] => []
  | lead :: rest =>
    match Utf8.front lead rest with
    | .whole character width =>
      character :: spell (character = '\\' && !afterBackslash) (rest.drop (width - 1))
    | .broken width =>
      let marks := if afterBackslash then ['\x00'] else "\\ud800\\ud800".toList
      marks ++ spell false (rest.drop (width - 1))
termination_by bytes => bytes.length
decreasing_by all_goals simp only [List.length_drop, List.length_cons]; omega

/-- The literal that the bytes of a file consist of. -/
def literalOf? (bytes : ByteString) : Option Literal :=
  match Utf8.decode? bytes with
  | some text => Json.literal? text
  | none => Json.literal? (spell false bytes)

/-- The entities that the bytes of a file list. -/
def entities? {α : Type} (read : Literal → Option α) (bytes : ByteString) : Option (List α) :=
  (literalOf? bytes).bind (Literal.list? read)

/-- How a JSON reader words why it refuses the bytes of the file at a path.  The wording is its own;
a reader may also give none. -/
abbrev Wording := (path : String) → ByteString → Option String

/-- The report on a file that is refused, with the detail that the reader gives. -/
def parseFailure (path : String) (detail : Option String) : IndexingError :=
  .repository ("Failed to parse " ++ path ++ detail.elim "" (": " ++ ·))

/-- The entities that the outcome of reading a file lists. -/
def entitiesAt {α : Type} (read : Literal → Option α) (wording : Wording) (path : String) :
    Except ReadError ByteString → Except IndexingError (List α)
  | .ok bytes =>
    match entities? read bytes with
    | some entities => .ok entities
    | none => .error (parseFailure path (wording path bytes))
  | .error .notFound => .ok []
  | .error error => .error (.repository ("Failed to read " ++ path ++ ": " ++ error.message))

def loadEntities {α : Type} (read : Literal → Option α) (wording : Wording) (path : String) :
    Program machine IndexingError (List α) := do
  let outcome ← Machine.read path
  Program.ofExcept (entitiesAt read wording path outcome)

def learningMaterialsFile : String := "learning_materials.json"

def coursesFile : String := "courses.json"

def meshDescriptorsFile : String := "mesh_descriptors.json"

/-- Loads the snapshot in a directory. -/
def loadSnapshot (directory : String) (wording : Wording := fun _ _ => none) :
    Program machine IndexingError Snapshot := do
  let learningMaterials ←
    loadEntities LearningMaterial.ofLiteral? wording (join directory learningMaterialsFile)
  let courses ← loadEntities CompositeCourse.ofLiteral? wording (join directory coursesFile)
  let meshDescriptors ←
    loadEntities MeshDescriptor.ofLiteral? wording (join directory meshDescriptorsFile)
  return { learningMaterials, courses, meshDescriptors }

end Storage
end LearningIndex
