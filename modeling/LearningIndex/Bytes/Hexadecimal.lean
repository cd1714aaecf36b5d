import LearningIndex.Bytes.Utf8

/-!
# Hexadecimal digits

Letters are read in either case.  A byte has two digits, the higher half first.
-/

namespace LearningIndex
namespace Hexadecimal

def digit (value : Nat) : Char :=
  if value < 10 then Char.ofNat (48 + value) else Char.ofNat (87 + value)

/-- A digit, in upper case. -/
def upperDigit (value : Nat) : Char :=
  if value < 10 then Char.ofNat (48 + value) else Char.ofNat (55 + value)

def value? (character : Char) : Option Nat :=
  if '0' ≤ character ∧ character ≤ '9' then some (character.toNat - 48)
  else if 'a' ≤ character ∧ character ≤ 'f' then some (character.toNat - 87)
  else if 'A' ≤ character ∧ character ≤ 'F' then some (character.toNat - 55)
  else none

/-- A number without leading zeros. -/
def numeral (number : Nat) : List Char :=
  if number < 16 then [digit number]
  else numeral (number / 16) ++ [digit (number % 16)]
termination_by number
decreasing_by omega

def write (bytes : ByteString) : List Char :=
  bytes.flatMap fun byte => [digit (byte.toNat / 16), digit (byte.toNat % 16)]

def read? : List Char → Option ByteString
  | [] => some []
  | high :: low :: rest =>
    match value? high, value? low, read? rest with
    | some high, some low, some bytes => some (UInt8.ofNat (16 * high + low) :: bytes)
    | _, _, _ => none
  | [_] => none

theorem value?_digit {value : Nat} (small : value < 16) : value? (digit value) = some value := by
  decide +revert

theorem read?_write (bytes : ByteString) : read? (write bytes) = some bytes := by
  induction bytes with
  | nil => rfl
  | cons byte rest ih =>
      have high := value?_digit (show byte.toNat / 16 < 16 by have := byte.toNat_lt; omega)
      have low := value?_digit (Nat.mod_lt byte.toNat (show 0 < 16 by decide))
      have whole : UInt8.ofNat (16 * (byte.toNat / 16) + byte.toNat % 16) = byte := by
        rw [Nat.div_add_mod, UInt8.ofNat_toNat]
      change (match value? (digit (byte.toNat / 16)), value? (digit (byte.toNat % 16)),
          read? (write rest) with
        | some high, some low, some bytes => some (UInt8.ofNat (16 * high + low) :: bytes)
        | _, _, _ => none) = _
      rw [high, low, ih]
      exact congrArg (fun byte => some (byte :: rest)) whole

end Hexadecimal
end LearningIndex
