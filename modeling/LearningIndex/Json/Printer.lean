import LearningIndex.Bytes.Hexadecimal
import LearningIndex.Json.Value

/-!
# Writing JSON

The compact form has no spaces and writes the fields of an object in their order.  The indented form
puts each item and each field on a line of its own, two spaces deeper than what holds it.  In both a
string escapes the quote, the backslash and the control characters below U+0020.
-/

namespace LearningIndex
namespace Json

/-- The text of a character inside a string. -/
def escape (character : Char) : List Char :=
  if character = '\x22' then ['\\', '\x22']
  else if character = '\\' then ['\\', '\\']
  else if character = '\x08' then ['\\', 'b']
  else if character = '\x09' then ['\\', 't']
  else if character = '\x0a' then ['\\', 'n']
  else if character = '\x0c' then ['\\', 'f']
  else if character = '\x0d' then ['\\', 'r']
  else if character.toNat < 0x20 then
    ['\\', 'u', '0', '0', Hexadecimal.digit (character.toNat / 16),
      Hexadecimal.digit (character.toNat % 16)]
  else [character]

def quote (text : String) : List Char :=
  '\x22' :: (text.toList.flatMap escape ++ ['\x22'])

mutual

/-- The compact text of a value, followed by the given text. -/
def write (value : Json) (after : List Char) : List Char :=
  match value with
  | null => 'n' :: 'u' :: 'l' :: 'l' :: after
  | bool true => 't' :: 'r' :: 'u' :: 'e' :: after
  | bool false => 'f' :: 'a' :: 'l' :: 's' :: 'e' :: after
  | integer number => (NumberLiteral.ofInt number).text ++ after
  | float number => (NumberLiteral.ofFloat number).text ++ after
  | string text => quote text ++ after
  | array [] => '[' :: ']' :: after
  | array (item :: items) => '[' :: write item (writeItems items after)
  | object [] => '\x7b' :: '\x7d' :: after
  | object ((name, value) :: fields) =>
    '\x7b' :: (quote name ++ ':' :: write value (writeFields fields after))

/-- The compact text of the items after the first one and of the closing bracket. -/
def writeItems (items : List Json) (after : List Char) : List Char :=
  match items with
  | [] => ']' :: after
  | item :: items => ',' :: write item (writeItems items after)

/-- The compact text of the fields after the first one and of the closing brace. -/
def writeFields (fields : List (String × Json)) (after : List Char) : List Char :=
  match fields with
  | [] => '\x7d' :: after
  | (name, value) :: fields =>
    ',' :: (quote name ++ ':' :: write value (writeFields fields after))

end

/-- The compact text of a value. -/
def render (value : Json) : List Char :=
  write value []

/-- The compact text of a value as a string. -/
def compact (value : Json) : String :=
  String.ofList value.render

/-- A line break and the indentation of a depth. -/
def lineBreak (depth : Nat) : List Char :=
  '\n' :: List.replicate (2 * depth) ' '

mutual

/-- The indented text of a value that stands at a depth, followed by the given text. -/
def writeIndented (depth : Nat) (value : Json) (after : List Char) : List Char :=
  match value with
  | array (item :: items) =>
    '[' :: (lineBreak (depth + 1)
      ++ writeIndented (depth + 1) item (writeIndentedItems depth items after))
  | object ((name, value) :: fields) =>
    '\x7b' :: (lineBreak (depth + 1) ++ quote name ++ ':' :: ' ' ::
      writeIndented (depth + 1) value (writeIndentedFields depth fields after))
  | flat => write flat after

/-- The indented text of the items after the first one and of the closing bracket. -/
def writeIndentedItems (depth : Nat) (items : List Json) (after : List Char) : List Char :=
  match items with
  | [] => lineBreak depth ++ ']' :: after
  | item :: items =>
    ',' :: (lineBreak (depth + 1)
      ++ writeIndented (depth + 1) item (writeIndentedItems depth items after))

/-- The indented text of the fields after the first one and of the closing brace. -/
def writeIndentedFields (depth : Nat) (fields : List (String × Json)) (after : List Char) :
    List Char :=
  match fields with
  | [] => lineBreak depth ++ '\x7d' :: after
  | (name, value) :: fields =>
    ',' :: (lineBreak (depth + 1) ++ quote name ++ ':' :: ' ' ::
      writeIndented (depth + 1) value (writeIndentedFields depth fields after))

end

def indented (value : Json) : String :=
  String.ofList (writeIndented 0 value [])

end Json
end LearningIndex
