import LearningIndex.Number.Binary64

/-!
# Shortest decimals of floating point numbers

The shortest decimal of a number has the fewest digits that read back as the same number; among
those it is the nearest, a tie going to the even digit.
-/

namespace LearningIndex
namespace Binary64

/-- A decimal `digits * 10 ^ exponent`. -/
structure Scientific where
  digits : Nat
  exponent : Int
deriving DecidableEq, Repr

namespace Scientific

/-- The magnitude of a decimal as a ratio. -/
def ratio (value : Scientific) : Nat × Nat :=
  if 0 ≤ value.exponent then (value.digits * Nat.pow 10 value.exponent.toNat, 1)
  else (value.digits, Nat.pow 10 (-value.exponent).toNat)

/-- Whether a decimal reads back as the number. -/
def readsAs (value : Scientific) (number : Binary64) : Bool :=
  let (above, below) := value.ratio
  ofRatio? number.negative above below == some number

end Scientific

/-- The exponent of ten of the leading digit of a positive ratio, searched upwards from a lower
bound with the given number of steps. -/
def leadingExponent (above below : Nat) : Nat → Int → Int
  | 0, exponent => exponent
  | steps + 1, exponent =>
    let (top, bottom) := (Scientific.mk 1 (exponent + 1)).ratio
    if top * below ≤ above * bottom then leadingExponent above below steps (exponent + 1)
    else exponent

/-- The two decimals around a ratio with a unit of `10 ^ exponent`, the nearer one first. -/
def neighbours (above below : Nat) (exponent : Int) : List Scientific :=
  let (top, bottom) := (Scientific.mk 1 exponent).ratio
  let numerator := above * bottom
  let denominator := below * top
  let lower := numerator / denominator
  let nearest := roundedQuotient numerator denominator
  let other := if nearest = lower then lower + 1 else lower
  [⟨nearest, exponent⟩, ⟨other, exponent⟩]

/-- The shortest decimal of the number with at least the given number of digits less one, trying so
many lengths at most. -/
def shortestFrom (number : Binary64) (leading : Int) : Nat → Nat → Option Scientific
  | 0, _ => none
  | tries + 1, extra =>
    let (above, below) := number.ratio
    match (neighbours above below (leading - extra)).find? (·.readsAs number) with
    | some value => some value
    | none => shortestFrom number leading tries (extra + 1)

/-- Moves the zeros at the end of the digits into the exponent. -/
def dropZeros : Nat → Scientific → Scientific
  | 0, value => value
  | steps + 1, value =>
    if value.digits % 10 = 0 ∧ value.digits ≠ 0 then
      dropZeros steps ⟨value.digits / 10, value.exponent + 1⟩
    else value

/-- The shortest decimal of a number other than zero. -/
def shortest (number : Binary64) : Scientific :=
  let (above, below) := number.ratio
  let start : Int := ((Nat.log2 above : Int) - (Nat.log2 below : Int) - 1) * 30103 / 100000 - 1
  let leading := leadingExponent above below 4 start
  dropZeros 18 ((shortestFrom number leading 17 0).getD ⟨0, 0⟩)

end Binary64
end LearningIndex
