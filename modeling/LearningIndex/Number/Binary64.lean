/-!
# Binary floating point numbers

The finite numbers of the 64-bit binary format, held as a sign, a mantissa and an exponent of two.
A ratio of natural numbers is rounded to the nearest of them, ties going to the even mantissa;
products and quotients are the rounded exact ones.
-/

namespace LearningIndex

/-- A finite number of the 64-bit binary format: `mantissa * 2 ^ exponent`, with a sign. -/
structure Binary64 where
  /-- Whether the sign is minus; zero has a sign too. -/
  negative : Bool
  /-- The mantissa, below `2 ^ 53`. -/
  mantissa : Nat
  /-- The exponent of two, from `-1074` to `971`. -/
  exponent : Int
deriving DecidableEq, Repr

namespace Binary64

def minExponent : Int := -1074

def maxExponent : Int := 971

/-- The number of bits of a full mantissa. -/
def precision : Nat := 53

def zero (negative : Bool) : Binary64 := ⟨negative, 0, minExponent⟩

/-- The same number with the given sign. -/
def withSign (negative : Bool) (number : Binary64) : Binary64 :=
  { number with negative }

/-- The quotient rounded to the nearest integer, a tie going to the even one. -/
def roundedQuotient (numerator denominator : Nat) : Nat :=
  let quotient := numerator / denominator
  let rest := 2 * (numerator % denominator)
  if rest < denominator then quotient
  else if denominator < rest then quotient + 1
  else quotient + quotient % 2

/-- A ratio in units of `2 ^ exponent`. -/
def scaled (exponent : Int) (numerator denominator : Nat) : Nat × Nat :=
  if 0 ≤ exponent then (numerator, denominator * Nat.pow 2 exponent.toNat)
  else (numerator * Nat.pow 2 (-exponent).toNat, denominator)

/-- The exponent at which a ratio has a full mantissa, or the smallest exponent. -/
def ratioExponent (numerator denominator : Nat) : Int :=
  let guess : Int := (Nat.log2 numerator : Int) - (Nat.log2 denominator : Int) - precision
  let (above, below) := scaled guess numerator denominator
  max minExponent (if above / below < Nat.pow 2 precision then guess else guess + 1)

/-- The number nearest to a ratio, if it is not too large for the format. -/
def ofRatio? (negative : Bool) (numerator denominator : Nat) : Option Binary64 :=
  if numerator = 0 then some (zero negative)
  else
    let exponent := ratioExponent numerator denominator
    let (above, below) := scaled exponent numerator denominator
    let mantissa := roundedQuotient above below
    let (mantissa, exponent) :=
      if mantissa = Nat.pow 2 precision then (Nat.pow 2 (precision - 1), exponent + 1)
      else (mantissa, exponent)
    if maxExponent < exponent then none else some ⟨negative, mantissa, exponent⟩

/-- The magnitude of a number as a ratio. -/
def ratio (number : Binary64) : Nat × Nat :=
  if 0 ≤ number.exponent then (number.mantissa * Nat.pow 2 number.exponent.toNat, 1)
  else (number.mantissa, Nat.pow 2 (-number.exponent).toNat)

/-- The rounded product, if it is not too large. -/
def mul? (left right : Binary64) : Option Binary64 :=
  let (leftAbove, leftBelow) := left.ratio
  let (rightAbove, rightBelow) := right.ratio
  ofRatio? (left.negative != right.negative) (leftAbove * rightAbove) (leftBelow * rightBelow)

/-- The rounded quotient by a number other than zero, if it is not too large. -/
def div? (left right : Binary64) : Option Binary64 :=
  let (leftAbove, leftBelow) := left.ratio
  let (rightAbove, rightBelow) := right.ratio
  ofRatio? (left.negative != right.negative) (leftAbove * rightBelow) (leftBelow * rightAbove)

/-- The number nearest to a natural number; one of at most 1024 bits is never too large. -/
def ofNat (value : Nat) : Binary64 :=
  (ofRatio? false value 1).getD (zero false)

/-- The number nearest to an integer. -/
def ofInt (value : Int) : Binary64 :=
  (ofNat value.natAbs).withSign (value < 0)

/-- The number in units of the smallest positive one. -/
def units (number : Binary64) : Int :=
  let magnitude : Int := (number.mantissa * Nat.pow 2 (number.exponent - minExponent).toNat : Nat)
  if number.negative then -magnitude else magnitude

/-- Whether one number is at most another; the two zeros are equal. -/
def le (left right : Binary64) : Bool :=
  left.units ≤ right.units

/-- The larger of two numbers, the first one when they are equal. -/
def max (left right : Binary64) : Binary64 :=
  if right.le left then left else right

/-- The integer part of a number that is not negative. -/
def floor (number : Binary64) : Nat :=
  number.ratio.1 / number.ratio.2

end Binary64
end LearningIndex
