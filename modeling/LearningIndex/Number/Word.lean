import LearningIndex.Text.Decimal

/-!
# Numerals of 64 bits

Reading the decimal numeral of a number that must fit 64 bits, with or without a sign.  A plus sign
may stand in front.  The first fault from the left counts: a character that is no digit, or the
digit with which the number grows out of range.
-/

namespace LearningIndex
namespace Word

/-- Why a text is no numeral of a number in range. -/
inductive Fault where
  | empty
  /-- There is something else than a digit, or no digit after the sign. -/
  | invalidDigit
  | tooLarge
  | tooSmall
deriving DecidableEq, Repr

def Fault.message : Fault → String
  | empty => "cannot parse integer from empty string"
  | invalidDigit => "invalid digit found in string"
  | tooLarge => "number too large to fit in target type"
  | tooSmall => "number too small to fit in target type"

/-- Reads digits after the ones that make `value`, as long as the number is at most `most`. -/
def readDigits (most : Nat) (beyond : Fault) (value : Nat) : List Char → Except Fault Nat
  | [] => .ok value
  | character :: rest =>
    match Text.digitValue? character with
    | none => .error .invalidDigit
    | some digit =>
      let next := 10 * value + digit
      if next ≤ most then readDigits most beyond next rest else .error beyond

/-- Reads a magnitude, which has at least one digit. -/
def readMagnitude (most : Nat) (beyond : Fault) (digits : List Char) : Except Fault Nat :=
  if digits.isEmpty then .error .invalidDigit else readDigits most beyond 0 digits

/-- The number from 0 to `2 ^ 64 - 1` that a text stands for. -/
def unsigned64 (text : List Char) : Except Fault Nat :=
  let most := 0xffffffffffffffff
  match text with
  | [] => .error .empty
  | '+' :: digits => readMagnitude most .tooLarge digits
  | digits => readMagnitude most .tooLarge digits

/-- The number from `-2 ^ 63` to `2 ^ 63 - 1` that a text stands for. -/
def signed64 (text : List Char) : Except Fault Int :=
  match text with
  | [] => .error .empty
  | '-' :: digits =>
    (readMagnitude 0x8000000000000000 .tooSmall digits).map fun value => -(value : Int)
  | '+' :: digits => (readMagnitude 0x7fffffffffffffff .tooLarge digits).map Int.ofNat
  | digits => (readMagnitude 0x7fffffffffffffff .tooLarge digits).map Int.ofNat

end Word
end LearningIndex
