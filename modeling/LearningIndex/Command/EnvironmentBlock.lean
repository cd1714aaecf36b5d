import LearningIndex.Bytes.Utf8

/-!
# Environment blocks

The environment of a process as the system keeps it: entries of the form `name=value`, each of them
ended by a zero byte.  An entry that is no text is passed over.
-/

namespace LearningIndex
namespace EnvironmentBlock

/-- The entries of a block. -/
def entries : ByteString → List ByteString
  | [] => []
  | byte :: rest =>
    if byte = 0 then [] :: entries rest
    else
      match entries rest with
      | [] => [[byte]]
      | entry :: others => (byte :: entry) :: others

def readEntry (entry : ByteString) : Option (String × String) :=
  match Utf8.decode? entry with
  | none => none
  | some text =>
    let name := text.takeWhile (· ≠ '=')
    if name.length < text.length then
      some (String.ofList name, String.ofList (text.drop (name.length + 1)))
    else none

def assignments (block : ByteString) : List (String × String) :=
  (entries block).filterMap readEntry

end EnvironmentBlock
end LearningIndex
