import LearningIndex.Number.Shortest
import LearningIndex.Text.Decimal

/-!
# Number literals

A number as it is written: its digits, before it is decided whether they stand for an integer or
for a floating point number.
-/

namespace LearningIndex

/-- The digits of a number. -/
structure NumberLiteral where
  negative : Bool
  whole : List Char
  fraction : Option (List Char)
  /-- The sign and the digits of the exponent, if there is one; the sign is true for minus. -/
  exponent : Option (Bool × List Char)
deriving DecidableEq, Repr

namespace NumberLiteral

def ofInt (value : Int) : NumberLiteral :=
  ⟨value < 0, Text.decimal value.natAbs, none, none⟩

/-- A literal with the point after `point` of the digits, and zeros where there are no digits. -/
def positional (negative : Bool) (digits : List Char) (point : Int) : NumberLiteral :=
  if point ≤ 0 then
    ⟨negative, ['0'], some (List.replicate (-point).toNat '0' ++ digits), none⟩
  else if (digits.length : Int) ≤ point then
    ⟨negative, digits ++ List.replicate (point.toNat - digits.length) '0', some ['0'], none⟩
  else ⟨negative, digits.take point.toNat, some (digits.drop point.toNat), none⟩

/-- A literal with the point after the first digit, if there are more, and an exponent of ten. -/
def exponential (negative : Bool) (digits : List Char) (exponent : Int) : NumberLiteral :=
  let fraction := if digits.length ≤ 1 then none else some (digits.drop 1)
  ⟨negative, digits.take 1, fraction, some (exponent < 0, Text.decimal exponent.natAbs)⟩

/-- The literal of a floating point number: its shortest decimal, around a point from `10 ^ -5` up
to `10 ^ 16`, and with an exponent elsewhere. -/
def ofFloat (value : Binary64) : NumberLiteral :=
  if value.mantissa = 0 then ⟨value.negative, ['0'], some ['0'], none⟩
  else
    let decimal := value.shortest
    let digits := Text.decimal decimal.digits
    let leading := decimal.exponent + digits.length - 1
    if -5 ≤ leading ∧ leading < 16 then positional value.negative digits (leading + 1)
    else exponential value.negative digits leading

/-- The text of a literal; the sign of an exponent is always written. -/
def text (literal : NumberLiteral) : List Char :=
  let sign := if literal.negative then ['-'] else []
  let fraction :=
    match literal.fraction with
    | none => []
    | some digits => '.' :: digits
  let exponent :=
    match literal.exponent with
    | none => []
    | some (minus, digits) => 'e' :: (if minus then '-' else '+') :: digits
  sign ++ literal.whole ++ fraction ++ exponent

/-- The integer that the literal stands for.  A number with a fraction or an exponent is none, and
neither is minus zero. -/
def integer? (literal : NumberLiteral) : Option Int :=
  match literal.fraction, literal.exponent with
  | none, none =>
    let magnitude := Text.readDigits 0 literal.whole
    if literal.negative then
      if 0 < magnitude ∧ magnitude ≤ 0x8000000000000000 then some (-(magnitude : Int)) else none
    else if magnitude < 0x10000000000000000 then some magnitude
    else none
  | _, _ => none

/-- The leading digits of a number as far as 64 bits hold them, read after the ones in `start`,
and how many digits were left. -/
def leadingDigits (start : Nat) : List Char → Nat × Nat
  | [] => (start, 0)
  | character :: rest =>
    let next := 10 * start + (character.toNat - 48)
    if next < 0x10000000000000000 then leadingDigits next rest else (start, rest.length + 1)

/-- The significand of the number and the exponent of ten that belongs to it, without the written
exponent. -/
def significand (literal : NumberLiteral) : Nat × Int :=
  let (whole, beyond) := leadingDigits 0 literal.whole
  match literal.fraction with
  | none => (whole, beyond)
  | some fraction =>
    let (digits, unread) := leadingDigits whole fraction
    (digits, (beyond : Int) - ((fraction.length : Int) - (unread : Int)))

/-- A power of ten as a floating point number, for an exponent up to 308. -/
def powerOfTen (exponent : Nat) : Binary64 :=
  Binary64.ofNat (Nat.pow 10 exponent)

/-- The product of a number with a power of ten, taken in steps of at most 308 decimal places; none
if it is too large. -/
def scale? (number : Binary64) (exponent : Int) : Nat → Option Binary64
  | 0 => some (Binary64.zero false)
  | steps + 1 =>
    if 0 ≤ exponent then
      if exponent ≤ 308 then number.mul? (powerOfTen exponent.toNat)
      else if number.mantissa = 0 then some number
      else none
    else if -308 ≤ exponent then number.div? (powerOfTen (-exponent).toNat)
    else
      match number.div? (powerOfTen 308) with
      | some smaller => scale? smaller (exponent + 308) steps
      | none => none

/-- The exponent of ten, brought into 32 bits. -/
def boundedExponent (exponent : Int) : Int :=
  max (-0x80000000) (min 0x7fffffff exponent)

/-- The floating point number that the literal stands for.  The significand is rounded first, then
its product with the rounded power of ten; a number too large for the format is none. -/
def float? (literal : NumberLiteral) : Option Binary64 :=
  let (digits, place) := literal.significand
  let magnitude :=
    match literal.exponent with
    | none => scale? (Binary64.ofNat digits) place 4
    | some (minus, exponentDigits) =>
      let written := Text.readDigits 0 exponentDigits
      if written < 0x80000000 then
        let exponent := if minus then place - written else place + written
        scale? (Binary64.ofNat digits) (boundedExponent exponent) 4
      else if digits = 0 ∨ minus then some (Binary64.zero false)
      else none
  magnitude.map (·.withSign literal.negative)

end NumberLiteral
end LearningIndex
