import LearningIndex.Bytes.Utf8
import LearningIndex.Storage.Path

/-!
# File trees

Reading files by path.  A tree in memory stands for a directory on disk: it tells files from
directories, and why nothing can be read at a path.
-/

namespace LearningIndex
namespace Storage

/-- Why a file cannot be read. -/
inductive ReadError where
  | notFound
  | isDirectory
  | notDirectory
  | nameTooLong
  | zeroByte
  | other (text : String)
deriving DecidableEq, Repr

/-- The wording of an error. -/
def ReadError.message : ReadError → String
  | notFound => "No such file or directory (os error 2)"
  | isDirectory => "Is a directory (os error 21)"
  | notDirectory => "Not a directory (os error 20)"
  | nameTooLong => "File name too long (os error 36)"
  | zeroByte => "file name contained an unexpected NUL byte"
  | other text => text

/-- The longest name of a file, in bytes. -/
def maxNameLength : Nat := 255

/-- The longest path, in bytes. -/
def maxPathLength : Nat := 4095

/-- What a directory and everything below it hold. -/
structure Tree where
  /-- The files, by the steps that lead to them. -/
  files : List (List String × ByteString)
  /-- The directories, by the steps that lead to them; the root is not listed. -/
  directories : List (List String)

namespace Tree

/-- The directories above a place, without the root. -/
def above (place : List String) : List (List String) :=
  ((List.range place.length).map place.take).drop 1

/-- The tree with the listed files; nothing in place of the bytes makes a directory. -/
def ofList (entries : List (String × Option ByteString)) : Tree where
  files := entries.filterMap fun (path, bytes) => bytes.map (steps path, ·)
  directories := entries.flatMap fun (path, bytes) =>
    let place := steps path
    if bytes.isSome then above place else above place ++ [place]

def isDirectory (tree : Tree) (place : List String) : Bool :=
  place.isEmpty || tree.directories.contains place

/-- Reads what is found by following segments from a place. -/
def follow (tree : Tree) (place : List String) : List (List Char) → Except ReadError ByteString
  | [] =>
    match tree.files.lookup place with
    | some bytes => .ok bytes
    | none => .error (if tree.isDirectory place then .isDirectory else .notFound)
  | segment :: rest =>
    if tree.isDirectory place then
      if isHere segment then tree.follow place rest
      else if segment == ['.', '.'] then tree.follow place.dropLast rest
      else if maxNameLength < (Utf8.encode segment).length then .error .nameTooLong
      else tree.follow (place ++ [String.ofList segment]) rest
    else .error (if (tree.files.lookup place).isSome then .notDirectory else .notFound)

/-- Reads the file at a path; a path from the top leads out of the tree. -/
def read (tree : Tree) (path : String) : Except ReadError ByteString :=
  if path.toList.contains '\x00' then .error .zeroByte
  else if maxPathLength < (Utf8.ofString path).length then .error .nameTooLong
  else if isAbsolute path || path.isEmpty then .error .notFound
  else tree.follow [] (segments path.toList)

end Tree
end Storage
end LearningIndex
