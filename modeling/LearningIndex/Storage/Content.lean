import LearningIndex.Indexing.Error
import LearningIndex.Machine

/-!
# Extracted text on disk

The extracted text of a file is read at a storage path below a root.  A path that could lead out of
the root is refused before anything is read.  Where there is no file there is no text; anything else
that goes wrong is an error.
-/

namespace LearningIndex
namespace Storage

/-- What the outcome of reading a file says of its text. -/
def textAt (path : String) : Except ReadError ByteString →
    Except IndexingError (Option ByteString)
  | .ok bytes => .ok (some bytes)
  | .error .notFound => .ok none
  | .error error => .error (.content ("Failed to read " ++ path ++ ": " ++ error.message))

/-- The text at a storage path below a root. -/
def content {ε : Type} (root path : String) :
    Program machine ε (Except IndexingError (Option ByteString)) :=
  if isConfined path then do
    let outcome ← Machine.read (join root path)
    return textAt (join root path) outcome
  else
    return .error (.content ("Refusing to read outside the storage root: " ++ path))

end Storage
end LearningIndex
