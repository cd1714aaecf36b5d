import LearningIndex.Json.Printer

/-!
# Faults of JSON values

Why a value is not of an expected shape, and the wording of it.
-/

namespace LearningIndex
namespace Json

/-- Why a value is refused. -/
inductive Fault where
  | wrongType (found : Json) (expected : String)
  /-- The value is an integer out of range. -/
  | outOfRange (found : Int) (expected : String)
  /-- The value is an array with more items than a record has fields. -/
  | tooLong (length : Nat)
deriving Repr

/-- Whether a character is a control character. -/
def isControl (character : Char) : Bool :=
  character.toNat < 0x20 || (0x7f ≤ character.toNat && character.toNat < 0xa0)

/-- The text of a character in a quoted report. -/
def reportCharacter (character : Char) : List Char :=
  if character = '\x22' then ['\\', '\x22']
  else if character = '\\' then ['\\', '\\']
  else if character = '\x00' then ['\\', '0']
  else if character = '\t' then ['\\', 't']
  else if character = '\n' then ['\\', 'n']
  else if character = '\r' then ['\\', 'r']
  else if isControl character then
    ['\\', 'u', '\x7b'] ++ Hexadecimal.numeral character.toNat ++ ['\x7d']
  else [character]

/-- A text in quotes, as a report shows it. -/
def report (text : String) : String :=
  String.ofList ('\x22' :: (text.toList.flatMap reportCharacter ++ ['\x22']))

/-- The name of a value's type, with the value itself where it is short. -/
def describe : Json → String
  | null => "null"
  | bool true => "boolean `true`"
  | bool false => "boolean `false`"
  | integer value => "integer `" ++ Text.signedDecimalString value ++ "`"
  | float value => "floating point `" ++ String.ofList (NumberLiteral.ofFloat value).text ++ "`"
  | string text => "string " ++ report text
  | array _ => "sequence"
  | object _ => "map"

/-- The wording of a fault. -/
def Fault.message : Fault → String
  | wrongType found expected => "invalid type: " ++ describe found ++ ", expected " ++ expected
  | outOfRange found expected =>
    "invalid value: integer `" ++ Text.signedDecimalString found ++ "`, expected " ++ expected
  | tooLong length =>
    "invalid length " ++ Text.decimalString length ++ ", expected fewer elements in array"

/-- The value as an integer of 64 bits with a sign. -/
def expectSigned : Json → Except Fault Int
  | integer value =>
    if isSigned64 value then .ok value else .error (.outOfRange value "i64")
  | other => .error (.wrongType other "i64")

/-- The value as an integer of 64 bits without a sign. -/
def expectUnsigned : Json → Except Fault Nat
  | integer value =>
    if isUnsigned64 value then .ok value.toNat else .error (.outOfRange value "u64")
  | other => .error (.wrongType other "u64")

def expectString : Json → Except Fault String
  | string text => .ok text
  | other => .error (.wrongType other "a string")

def expectBool : Json → Except Fault Bool
  | bool value => .ok value
  | other => .error (.wrongType other "a boolean")

def expectArray : Json → Except Fault (List Json)
  | array items => .ok items
  | other => .error (.wrongType other "a sequence")

end Json
end LearningIndex
