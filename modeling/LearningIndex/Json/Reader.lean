import LearningIndex.Bytes.Hexadecimal
import LearningIndex.Json.Literal

/-!
# Reading JSON

The strict grammar: blanks are the space, the tab and the two line ends; a number has no superfluous
zero and no bare point; a string holds no raw control character.  A text is read as a literal, and a
literal is all of the text but the blanks around it.
-/

namespace LearningIndex
namespace Json

/-- Whether a character may stand between the parts of a JSON text. -/
def isSpace (character : Char) : Bool :=
  character = ' ' || character = '\t' || character = '\n' || character = '\r'

def skipSpace (text : List Char) : List Char :=
  text.dropWhile isSpace

/-- The value of four hexadecimal digits. -/
def hexUnit? (first second third fourth : Char) : Option Nat :=
  match Hexadecimal.value? first, Hexadecimal.value? second, Hexadecimal.value? third,
    Hexadecimal.value? fourth with
  | some a, some b, some c, some d => some (((a * 16 + b) * 16 + c) * 16 + d)
  | _, _, _, _ => none

/-- One item of the inside of a string. -/
inductive StringPart where
  /-- A character, raw or escaped by one letter. -/
  | plain (character : Char)
  | unit (value : Nat)
deriving DecidableEq, Repr

/-- Whether a 16-bit unit is the first half of a surrogate pair. -/
def isHighSurrogate (value : Nat) : Bool :=
  0xd800 ≤ value && value < 0xdc00

/-- Whether a 16-bit unit is the second half of a surrogate pair. -/
def isLowSurrogate (value : Nat) : Bool :=
  0xdc00 ≤ value && value < 0xe000

/-- The text of the inside of a string; none if half of a surrogate pair stands alone. -/
def joinParts : List StringPart → Option (List Char)
  | [] => some []
  | .plain character :: parts => (joinParts parts).map (character :: ·)
  | .unit high :: .unit low :: parts =>
    if isHighSurrogate high then
      if isLowSurrogate low then
        (joinParts parts).map
          (Char.ofNat (0x10000 + (high - 0xd800) * 0x400 + (low - 0xdc00)) :: ·)
      else none
    else if isLowSurrogate high then none
    else (joinParts (.unit low :: parts)).map (Char.ofNat high :: ·)
  | .unit value :: parts =>
    if isHighSurrogate value || isLowSurrogate value then none
    else (joinParts parts).map (Char.ofNat value :: ·)

/-- The character that a letter after a backslash stands for. -/
def escaped? (letter : Char) : Option Char :=
  if letter = '\x22' ∨ letter = '\\' ∨ letter = '/' then some letter
  else if letter = 'b' then some '\x08'
  else if letter = 'f' then some '\x0c'
  else if letter = 'n' then some '\x0a'
  else if letter = 'r' then some '\x0d'
  else if letter = 't' then some '\x09'
  else none

/-- Reads the inside of a string up to its closing quote.  The parts come in reverse, in front of
the ones read before. -/
def readParts (read : List StringPart) : List Char → Option (List StringPart × List Char)
  | [] => none
  | '\\' :: 'u' :: a :: b :: c :: d :: rest =>
    match hexUnit? a b c d with
    | some value => readParts (.unit value :: read) rest
    | none => none
  | '\\' :: letter :: rest =>
    match escaped? letter with
    | some character => readParts (.plain character :: read) rest
    | none => none
  | character :: rest =>
    if character = '\x22' then some (read, rest)
    else if character = '\\' ∨ character.toNat < 0x20 then none
    else readParts (.plain character :: read) rest

/-- Reads a string after its opening quote. -/
def readString (text : List Char) : Option (Option String × List Char) :=
  match readParts [] text with
  | some (parts, rest) => some ((joinParts parts.reverse).map String.ofList, rest)
  | none => none

/-- The digits at the front of a text, and the rest. -/
def spanDigits (text : List Char) : List Char × List Char :=
  (text.takeWhile Text.isDigit, text.dropWhile Text.isDigit)

/-- Reads the fraction of a number, if one begins here. -/
def readFraction (text : List Char) : Option (Option (List Char) × List Char) :=
  match text with
  | '.' :: rest =>
    let (digits, rest) := spanDigits rest
    if digits.isEmpty then none else some (some digits, rest)
  | rest => some (none, rest)

def readExponentDigits (minus : Bool) (text : List Char) :
    Option (Option (Bool × List Char) × List Char) :=
  let (digits, rest) := spanDigits text
  if digits.isEmpty then none else some (some (minus, digits), rest)

/-- Reads the exponent of a number, if one begins here. -/
def readExponent (text : List Char) : Option (Option (Bool × List Char) × List Char) :=
  match text with
  | [] => some (none, [])
  | character :: rest =>
    if character = 'e' ∨ character = 'E' then
      match rest with
      | '+' :: rest => readExponentDigits false rest
      | '-' :: rest => readExponentDigits true rest
      | rest => readExponentDigits false rest
    else some (none, character :: rest)

/-- Whether the digits before the point are those of a number: at least one, and no zero in front
of others. -/
def isWhole : List Char → Bool
  | [] => false
  | [_] => true
  | first :: _ => first != '0'

def readMagnitude (negative : Bool) (text : List Char) : Option (NumberLiteral × List Char) :=
  let (whole, rest) := spanDigits text
  if isWhole whole then
    match readFraction rest with
    | some (fraction, rest) =>
      match readExponent rest with
      | some (exponent, rest) => some (⟨negative, whole, fraction, exponent⟩, rest)
      | none => none
    | none => none
  else none

def readNumber (text : List Char) : Option (NumberLiteral × List Char) :=
  match text with
  | '-' :: rest => readMagnitude true rest
  | rest => readMagnitude false rest

mutual

/-- Reads a literal, with blanks in front of it, in a bounded number of steps. -/
def readLiteral (steps : Nat) (text : List Char) : Option (Literal × List Char) :=
  match steps with
  | 0 => none
  | steps + 1 =>
    match skipSpace text with
    | 'n' :: 'u' :: 'l' :: 'l' :: rest => some (.null, rest)
    | 't' :: 'r' :: 'u' :: 'e' :: rest => some (.bool true, rest)
    | 'f' :: 'a' :: 'l' :: 's' :: 'e' :: rest => some (.bool false, rest)
    | '\x22' :: rest => (readString rest).map fun (text, rest) => (.string text, rest)
    | '[' :: rest =>
      match skipSpace rest with
      | ']' :: rest => some (.array [], rest)
      | rest => (readItems steps rest).map fun (items, rest) => (.array items, rest)
    | '\x7b' :: rest =>
      match skipSpace rest with
      | '\x7d' :: rest => some (.object [], rest)
      | rest => (readFields steps rest).map fun (fields, rest) => (.object fields, rest)
    | rest => (readNumber rest).map fun (number, rest) => (.number number, rest)

/-- Reads the items of an array and its closing bracket. -/
def readItems (steps : Nat) (text : List Char) : Option (List Literal × List Char) :=
  match steps with
  | 0 => none
  | steps + 1 =>
    match readLiteral steps text with
    | none => none
    | some (item, rest) =>
      match skipSpace rest with
      | ']' :: rest => some ([item], rest)
      | ',' :: rest => (readItems steps rest).map fun (items, rest) => (item :: items, rest)
      | _ => none

/-- Reads the fields of an object and its closing brace. -/
def readFields (steps : Nat) (text : List Char) :
    Option (List (Option String × Literal) × List Char) :=
  match steps with
  | 0 => none
  | steps + 1 =>
    match skipSpace text with
    | '\x22' :: rest =>
      match readString rest with
      | none => none
      | some (name, rest) =>
        match skipSpace rest with
        | ':' :: rest =>
          match readLiteral steps rest with
          | none => none
          | some (field, rest) =>
            match skipSpace rest with
            | '\x7d' :: rest => some ([(name, field)], rest)
            | ',' :: rest =>
              (readFields steps rest).map fun (fields, rest) => ((name, field) :: fields, rest)
            | _ => none
        | _ => none
    | _ => none

end

/-- The literal that a text consists of. -/
def literal? (text : List Char) : Option Literal :=
  match readLiteral (2 * text.length + 2) text with
  | some (literal, rest) => if (skipSpace rest).isEmpty then some literal else none
  | none => none

def value? (text : List Char) : Option Json :=
  (literal? text).bind Literal.value?

def parseLiteral? (text : String) : Option Literal :=
  literal? text.toList

def parse? (text : String) : Option Json :=
  value? text.toList

end Json
end LearningIndex
