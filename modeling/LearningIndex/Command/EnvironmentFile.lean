import LearningIndex.Bytes.Utf8
import LearningIndex.Text.Basic
import LearningIndex.Text.Cleaning
import LearningIndex.Text.Decimal

/-!
# Environment files

A file that sets variables, one on a line: a name, an equals sign and a value.  A variable that is
set already keeps its value.  A value may stand in single quotes, where every character stands for
itself, or in double quotes; outside of single quotes a backslash escapes a few characters, and a
dollar sign with a name stands for the value of a variable.  A comment begins with a number sign.
What comes after the first line that is not understood is of no account.
-/

namespace LearningIndex
namespace EnvironmentFile

/-- The kind of quotes around a character. -/
inductive Quotes where
  | none
  | single
  | double
deriving DecidableEq, Repr

/-- What a character of a value is read as. -/
inductive Reading where
  /-- A character of the value. -/
  | plain
  /-- The character after a backslash. -/
  | escape
  /-- Blanks and a comment after the value. -/
  | finish
  /-- A character of the name after a dollar sign, with the ones before it. -/
  | name (letters : List Char)
  /-- A character of a name in braces, with the ones before it. -/
  | bracedName (letters : List Char)
deriving DecidableEq, Repr

/-- Whether a character continues a name after a dollar sign. -/
def isNameLetter (character : Char) : Bool :=
  Text.isWordPart character

/-- The characters of a value; `valueOf` gives the value of a variable. -/
def readValue (valueOf : List Char → List Char) :
    Reading → Quotes → List Char → Option (List Char)
  | .bracedName _, _, [] => none
  | .name letters, quotes, [] => if quotes = .none then some (valueOf letters) else none
  | _, quotes, [] => if quotes = .none then some [] else none
  | .finish, quotes, character :: rest =>
    if character = ' ' ∨ character = '\t' then readValue valueOf .finish quotes rest
    else if character = '#' then some []
    else none
  | .escape, quotes, character :: rest =>
    if ['\\', '\x27', '\x22', '$', ' '].contains character then
      (readValue valueOf .plain quotes rest).map (character :: ·)
    else if character = 'n' then (readValue valueOf .plain quotes rest).map ('\n' :: ·)
    else none
  | .name letters, quotes, character :: rest =>
    if isNameLetter character then readValue valueOf (.name (letters ++ [character])) quotes rest
    else if character = '\x7b' ∧ letters = [] then readValue valueOf (.bracedName []) quotes rest
    else if character = '$' then
      (readValue valueOf (.name []) quotes rest).map (valueOf letters ++ ·)
    else (readValue valueOf .plain quotes rest).map (valueOf letters ++ character :: ·)
  | .bracedName letters, quotes, character :: rest =>
    if character = '\x7d' then (readValue valueOf .plain quotes rest).map (valueOf letters ++ ·)
    else readValue valueOf (.bracedName (letters ++ [character])) quotes rest
  | .plain, .single, character :: rest =>
    if character = '\x27' then readValue valueOf .plain .none rest
    else (readValue valueOf .plain .single rest).map (character :: ·)
  | .plain, .double, character :: rest =>
    if character = '$' then readValue valueOf (.name []) .double rest
    else if character = '\x22' then readValue valueOf .plain .none rest
    else if character = '\\' then readValue valueOf .escape .double rest
    else (readValue valueOf .plain .double rest).map (character :: ·)
  | .plain, .none, character :: rest =>
    if character = '$' then readValue valueOf (.name []) .none rest
    else if character = '\x27' then readValue valueOf .plain .single rest
    else if character = '\x22' then readValue valueOf .plain .double rest
    else if character = '\\' then readValue valueOf .escape .none rest
    else if character = ' ' ∨ character = '\t' then readValue valueOf .finish .none rest
    else (readValue valueOf .plain .none rest).map (character :: ·)

/-- Whether a character may begin the name of a variable. -/
def isKeyStart (character : Char) : Bool :=
  Text.isAsciiLetter character || character = '_'

/-- Whether a character may continue the name of a variable. -/
def isKeyPart (character : Char) : Bool :=
  Text.isAsciiLetter character || Text.isDigit character || character = '_' || character = '.'

/-- The name at the front of a line, and what follows it and the blanks after it. -/
def readKey (line : List Char) : Option (List Char × List Char) :=
  if line.head?.any isKeyStart then
    some (line.takeWhile isKeyPart, Text.trimStart (line.dropWhile isKeyPart))
  else none

/-- What follows an equals sign. -/
def afterEquals : List Char → Option (List Char)
  | '=' :: rest => some rest
  | _ => none

/-- The name that a line sets and what follows the equals sign; the word `export` may stand before
the name. -/
def readAssignment (line : List Char) : Option (List Char × List Char) := do
  let (key, rest) ← readKey line
  match afterEquals rest with
  | some value => return (key, value)
  | none =>
    if key = "export".toList then
      let (key, rest) ← readKey rest
      let value ← afterEquals rest
      return (key, value)
    else failure

/-- The variables while a file is read. -/
structure State where
  /-- The variables that are set, the ones of the file among them. -/
  assignments : List (String × String)
  /-- The values that the file gives, the latest first. -/
  given : List (String × String) := []

/-- The value of a variable: as it is set, or else as the file gives it. -/
def State.valueOf (state : State) (name : List Char) : List Char :=
  let name := String.ofList name
  match state.assignments.lookup name <|> state.given.lookup name with
  | some value => value.toList
  | none => []

/-- The state after a variable is given a value. -/
def State.give (state : State) (name value : String) : State where
  assignments :=
    if (state.assignments.lookup name).isSome then state.assignments
    else state.assignments ++ [(name, value)]
  given := (name, value) :: state.given

/-- The state after a line, if the line is understood. -/
def State.readLine (state : State) (line : List Char) : Option State :=
  let line := Text.trim line
  if line.isEmpty || line.head? == some '#' then some state
  else
    match readAssignment line with
    | none => none
    | some (key, rest) =>
      let rest := Text.trimStart rest
      let value :=
        if rest.head? == some '#' then some []
        else readValue state.valueOf .plain .none rest
      value.map fun value => state.give (String.ofList key) (String.ofList value)

/-- The lines of a file, without their ends. -/
def lines : ByteString → List ByteString
  | [] => [[]]
  | byte :: rest =>
    if byte = 0x0a then [] :: lines rest
    else
      match lines rest with
      | [] => [[byte]]
      | line :: others => (byte :: line) :: others

/-- The text of a line without the carriage return at its end. -/
def lineText? (line : ByteString) : Option (List Char) :=
  Utf8.decode? (if line.getLast? == some 0x0d then line.dropLast else line)

/-- The state after some lines, up to the first one that is not understood. -/
def State.readLines (state : State) : List ByteString → State
  | [] => state
  | line :: rest =>
    match (lineText? line).bind state.readLine with
    | some next => next.readLines rest
    | none => state

/-- The variables that are set after a file is read. -/
def extend (environment : List (String × String)) (bytes : ByteString) : List (String × String) :=
  (State.readLines ⟨environment, []⟩ (lines bytes)).assignments

end EnvironmentFile
end LearningIndex
