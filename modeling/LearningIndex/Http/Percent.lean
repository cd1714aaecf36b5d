import LearningIndex.Bytes.Hexadecimal
import LearningIndex.Json.Printer

/-!
# Encodings of request targets and credentials

Parts of a path are percent-encoded but for letters, digits and a few marks.  A value of a query is
form-encoded, with a plus sign for the space.  Credentials are written in base 64.
-/

namespace LearningIndex
namespace Http

def isAlphanumeric (byte : UInt8) : Bool :=
  (0x30 ≤ byte && byte ≤ 0x39) || (0x41 ≤ byte && byte ≤ 0x5a) || (0x61 ≤ byte && byte ≤ 0x7a)

def asciiChar (byte : UInt8) : Char :=
  Char.ofNat byte.toNat

/-- A byte as a percent sign and two digits. -/
def percent (byte : UInt8) : List Char :=
  ['%', Hexadecimal.upperDigit (byte.toNat / 16), Hexadecimal.upperDigit (byte.toNat % 16)]

/-- Whether a byte stands for itself in a part of a path. -/
def isPlainInPath (byte : UInt8) : Bool :=
  isAlphanumeric byte || [0x5f, 0x2d, 0x2e, 0x2c, 0x2a].contains byte

def encodePart (text : String) : String :=
  String.ofList ((Utf8.ofString text).flatMap fun byte =>
    if isPlainInPath byte then [asciiChar byte] else percent byte)

/-- Whether a byte stands for itself in the value of a query. -/
def isPlainInForm (byte : UInt8) : Bool :=
  isAlphanumeric byte || [0x2a, 0x2d, 0x2e, 0x5f].contains byte

def encodeForm (text : String) : String :=
  String.ofList ((Utf8.ofString text).flatMap fun byte =>
    if isPlainInForm byte then [asciiChar byte]
    else if byte == 0x20 then ['+']
    else percent byte)

/-- The character for six bits in base 64. -/
def base64Digit (value : Nat) : Char :=
  if value < 26 then Char.ofNat (65 + value)
  else if value < 52 then Char.ofNat (71 + value)
  else if value < 62 then Char.ofNat (value - 4)
  else if value = 62 then '+'
  else '/'

/-- Bytes in base 64, with padding. -/
def base64 : ByteString → List Char
  | [] => []
  | [first] =>
    let bits := first.toNat * 16
    [base64Digit (bits / 64), base64Digit (bits % 64), '=', '=']
  | [first, second] =>
    let bits := (first.toNat * 256 + second.toNat) * 4
    [base64Digit (bits / 4096), base64Digit (bits / 64 % 64), base64Digit (bits % 64), '=']
  | first :: second :: third :: rest =>
    let bits := (first.toNat * 256 + second.toNat) * 256 + third.toNat
    base64Digit (bits / 262144) :: base64Digit (bits / 4096 % 64) ::
      base64Digit (bits / 64 % 64) :: base64Digit (bits % 64) :: base64 rest

/-- The header that carries a name and a password. -/
def basicCredentials (name password : String) : String :=
  "Basic " ++ String.ofList (base64 (Utf8.ofString (name ++ ":" ++ password)))

end Http
end LearningIndex
