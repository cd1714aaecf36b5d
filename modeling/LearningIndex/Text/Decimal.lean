/-!
# Decimal numerals

Natural numbers and integers are written in base ten without leading zeros, and a negative integer
with a minus sign.  Reading takes digits only.
-/

namespace LearningIndex
namespace Text

/-- The character of a decimal digit. -/
def digit (value : Nat) : Char :=
  Char.ofNat (48 + value)

/-- The value of a decimal digit. -/
def digitValue? (character : Char) : Option Nat :=
  if '0' ≤ character ∧ character ≤ '9' then some (character.toNat - 48) else none

def isDigit (character : Char) : Bool :=
  '0' ≤ character ∧ character ≤ '9'

/-- The decimal digits of a natural number, most significant first. -/
def decimal (number : Nat) : List Char :=
  if number < 10 then [digit number]
  else decimal (number / 10) ++ [digit (number % 10)]
termination_by number
decreasing_by omega

def signedDecimal (number : Int) : List Char :=
  if number < 0 then '-' :: decimal number.natAbs else decimal number.natAbs

/-- The number that a list of digits stands for, read after the digits already in `start`. -/
def readDigits (start : Nat) (digits : List Char) : Nat :=
  digits.foldl (fun value character => 10 * value + (character.toNat - 48)) start

/-- The number that a text of digits stands for; a text with anything else stands for none. -/
def natural? (text : List Char) : Option Nat :=
  if text ≠ [] ∧ text.all isDigit then some (readDigits 0 text) else none

/-- The decimal text of a natural number, with zeros in front up to a width. -/
def paddedDecimal (width number : Nat) : List Char :=
  let digits := decimal number
  List.replicate (width - digits.length) '0' ++ digits

def decimalString (number : Nat) : String :=
  String.ofList (decimal number)

def signedDecimalString (number : Int) : String :=
  String.ofList (signedDecimal number)

end Text
end LearningIndex
