/-!
# Paths

Storage paths are read below a root.  A path consists of components, of which each leads somewhere:
slashes and dots that change nothing are left out.  A path is confined if no component of it leads
to the top or upwards.
-/

namespace LearningIndex
namespace Storage

/-- The segments of a path between its slashes. -/
def segments : List Char → List (List Char)
  | [] => [[]]
  | '/' :: rest => [] :: segments rest
  | character :: rest =>
    match segments rest with
    | [] => [[character]]
    | first :: others => (character :: first) :: others

/-- Whether a segment stays where it is. -/
def isHere (segment : List Char) : Bool :=
  segment == [] || segment == ['.']

/-- The segments of a path that lead somewhere. -/
def steps (path : String) : List String :=
  ((segments path.toList).filter fun segment => !isHere segment).map String.ofList

/-- Whether a path begins at the top. -/
def isAbsolute (path : String) : Bool :=
  path.toList.head? == some '/'

/-- A component of a path. -/
inductive Component where
  /-- The top, at which the path begins. -/
  | top
  /-- The directory at which the path is read, where a dot in front names it. -/
  | here
  | above
  | below (name : String)
deriving DecidableEq, Repr

namespace Component

/-- The component that a segment stands for, if it leads somewhere. -/
def ofSegment? (segment : List Char) : Option Component :=
  if isHere segment then none
  else if segment == ['.', '.'] then some above
  else some (below (String.ofList segment))

/-- Whether a component leads neither to the top nor upwards. -/
def isConfined : Component → Bool
  | top => false
  | here => true
  | above => false
  | below _ => true

end Component

def components (path : String) : List Component :=
  let segments := segments path.toList
  let front :=
    if isAbsolute path then [.top]
    else if segments.head? == some ['.'] then [.here]
    else []
  front ++ segments.filterMap Component.ofSegment?

/-- Whether a path leads nowhere but below the directory at which it is read. -/
def isConfined (path : String) : Bool :=
  (components path).all Component.isConfined

/-- The path of something below a directory. -/
def join (directory path : String) : String :=
  if isAbsolute path then path
  else if directory.isEmpty || directory.toList.getLast? == some '/' then directory ++ path
  else directory ++ "/" ++ path

end Storage
end LearningIndex
