import LearningIndex.Calendar.Instant
import LearningIndex.Text.Basic
import LearningIndex.Text.Decimal

/-!
# Timestamps

Instants in the text form of RFC 3339.  An instant is written in universal time.  A reader accepts
any offset and some freedom: blanks around the numbers, numbers without their leading zeros, signed
years of any length, a space for the letter between date and time, and offsets without the colon.
Digits of a fraction after the ninth are dropped.
-/

namespace LearningIndex
namespace Calendar

/-- The year with four digits, and with a sign outside the years 0 to 9999. -/
def yearText (year : Int) : List Char :=
  if 0 ≤ year ∧ year ≤ 9999 then Text.paddedDecimal 4 year.natAbs
  else (if year < 0 then '-' else '+') :: Text.paddedDecimal 4 year.natAbs

namespace Date

/-- The year, the month and the day with hyphens between them. -/
def text (date : Date) : List Char :=
  yearText date.year ++ '-' :: (Text.paddedDecimal 2 date.month ++ '-' ::
    Text.paddedDecimal 2 date.day)

end Date

namespace Instant

/-- The date and the time of day to the second. -/
def secondText (instant : Instant) : List Char :=
  instant.date.text ++ 'T' :: (Text.paddedDecimal 2 instant.hour ++ ':' ::
    (Text.paddedDecimal 2 instant.minute ++ ':' :: Text.paddedDecimal 2 instant.second))

/-- The fraction of the second with as few of 0, 3, 6 and 9 digits as it needs. -/
def fractionText (nanosecond : Nat) : List Char :=
  if nanosecond = 0 then []
  else if nanosecond % 1000000 = 0 then '.' :: Text.paddedDecimal 3 (nanosecond / 1000000)
  else if nanosecond % 1000 = 0 then '.' :: Text.paddedDecimal 6 (nanosecond / 1000)
  else '.' :: Text.paddedDecimal 9 nanosecond

def text (instant : Instant) : String :=
  String.ofList (instant.secondText ++ fractionText instant.nanosecond ++ ['Z'])

/-- The text of the second in which an instant lies, as the lower bound of a range. -/
def bound (instant : Instant) : String :=
  String.ofList (instant.secondText ++ ['+', '0', '0', ':', '0', '0'])

end Instant

/-- Reads a number of at least one and at most so many digits. -/
def readUpTo (most : Nat) (text : List Char) : Option (Nat × List Char) :=
  let digits := (text.take most).takeWhile Text.isDigit
  if digits.isEmpty then none else some (Text.readDigits 0 digits, text.drop digits.length)

/-- Reads a number after blanks. -/
def readField (most : Nat) (text : List Char) : Option (Nat × List Char) :=
  readUpTo most (Text.trimStart text)

/-- Reads a year after blanks: four digits at most, or a sign and any number of digits. -/
def readYear (text : List Char) : Option (Int × List Char) :=
  match Text.trimStart text with
  | '-' :: rest => (readUpTo rest.length rest).map fun (year, rest) => (-(year : Int), rest)
  | '+' :: rest => (readUpTo rest.length rest).map fun (year, rest) => ((year : Int), rest)
  | rest => (readUpTo 4 rest).map fun (year, rest) => ((year : Int), rest)

def readMark (mark : Char) (text : List Char) : Option (List Char) :=
  match Text.trimStart text with
  | character :: rest => if character = mark then some rest else none
  | [] => none

/-- Reads the fraction of a second in nanoseconds; without a point there is none. -/
def readFraction (text : List Char) : Option (Nat × List Char) :=
  match text with
  | '.' :: rest =>
    match readUpTo 9 rest with
    | some (value, _) =>
      let digits := rest.takeWhile Text.isDigit
      some (value * Nat.pow 10 (9 - digits.length), rest.drop digits.length)
    | none => none
  | rest => some (0, rest)

/-- Reads a date and the letter or the space after it. -/
def readDate (text : List Char) : Option (Date × List Char) := do
  let (year, text) ← readYear text
  let text ← readMark '-' text
  let (month, text) ← readField 2 text
  let text ← readMark '-' text
  let (day, text) ← readField 2 text
  let date ← Date.ofFields? year month day
  match text with
  | separator :: text =>
    if separator = 'T' ∨ separator = 't' ∨ separator = ' ' then some (date, text) else none
  | [] => none

def readTwoDigits (text : List Char) : Option (Nat × List Char) :=
  match text with
  | tens :: ones :: rest =>
    match Text.digitValue? tens, Text.digitValue? ones with
    | some tens, some ones => some (10 * tens + ones, rest)
    | _, _ => none
  | _ => none

def readOffsetSize (text : List Char) : Option (Nat × List Char) := do
  let (hours, text) ← readTwoDigits text
  let text := text.dropWhile fun character => character = ':' || Text.isBlank character
  let (minutes, text) ← readTwoDigits text
  if hours < 24 ∧ minutes < 60 then some (60 * hours + minutes, text) else none

/-- Reads an offset from universal time in minutes: a letter or a name for none, or a sign, hours
and minutes. -/
def readOffset (text : List Char) : Option (Int × List Char) :=
  match text with
  | 'Z' :: rest => some (0, rest)
  | 'z' :: rest => some (0, rest)
  | '+' :: rest => (readOffsetSize rest).map fun (size, rest) => ((size : Int), rest)
  | '-' :: rest => (readOffsetSize rest).map fun (size, rest) => (-(size : Int), rest)
  | '\u2212' :: rest => (readOffsetSize rest).map fun (size, rest) => (-(size : Int), rest)
  | first :: second :: third :: rest =>
    if (first = 'U' ∨ first = 'u') ∧ (second = 'T' ∨ second = 't') ∧
        (third = 'C' ∨ third = 'c') then some (0, rest)
    else none
  | _ => none

def readInstant (text : List Char) : Option Instant := do
  let (date, text) ← readDate text
  let (hour, text) ← readField 2 text
  let text ← readMark ':' text
  let (minute, text) ← readField 2 text
  let text ← readMark ':' text
  let (second, text) ← readField 2 text
  let (nanosecond, text) ← readFraction text
  let (offset, text) ← readOffset (Text.trimStart text)
  if Text.isAllBlank text ∧ hour < 24 ∧ minute < 60 then
    Instant.ofLocal? date hour minute second nanosecond offset
  else none

def instant? (text : String) : Option Instant :=
  readInstant text.toList

end Calendar
end LearningIndex
