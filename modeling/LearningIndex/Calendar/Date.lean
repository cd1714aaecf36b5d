/-!
# Dates

Dates of the Gregorian calendar, which is extended to all years in range, with a year zero and
negative years before it.  A date holds the proof that it exists.
-/

namespace LearningIndex
namespace Calendar

def isLeapYear (year : Int) : Bool :=
  year % 4 = 0 && (year % 100 ≠ 0 || year % 400 = 0)

/-- The number of days in a month, counted from 1 for January. -/
def monthLength (year : Int) (month : Nat) : Nat :=
  match month with
  | 2 => if isLeapYear year then 29 else 28
  | 4 | 6 | 9 | 11 => 30
  | _ => 31

def firstYear : Int := -262143

def lastYear : Int := 262142

/-- Whether a year, a month and a day name a date in range. -/
def IsDate (year : Int) (month day : Nat) : Prop :=
  firstYear ≤ year ∧ year ≤ lastYear ∧ 1 ≤ month ∧ month ≤ 12 ∧
    1 ≤ day ∧ day ≤ monthLength year month

instance (year : Int) (month day : Nat) : Decidable (IsDate year month day) := by
  unfold IsDate
  infer_instance

structure Date where
  /-- The year; zero is the year before the year 1. -/
  year : Int
  /-- The month, from 1 to 12. -/
  month : Nat
  /-- The day of the month, from 1. -/
  day : Nat
  isDate : IsDate year month day
deriving DecidableEq, Repr

namespace Date

def ofFields? (year : Int) (month day : Nat) : Option Date :=
  if isDate : IsDate year month day then some ⟨year, month, day, isDate⟩ else none

def epoch : Date := ⟨1970, 1, 1, by decide⟩

/-- The day after a date, if it is in range. -/
def next? (date : Date) : Option Date :=
  if date.day < monthLength date.year date.month then
    ofFields? date.year date.month (date.day + 1)
  else if date.month < 12 then ofFields? date.year (date.month + 1) 1
  else ofFields? (date.year + 1) 1 1

def previous? (date : Date) : Option Date :=
  if 1 < date.day then ofFields? date.year date.month (date.day - 1)
  else if 1 < date.month then
    ofFields? date.year (date.month - 1) (monthLength date.year (date.month - 1))
  else ofFields? (date.year - 1) 12 31

/-- The date so many days after the first of January 1970, if it is in range.  The count starts
over from the first of March every 400 years, so that the leap day is the last day of its year. -/
def ofDayNumber? (days : Int) : Option Date :=
  let shifted := days + 719468
  let era := shifted / 146097
  let dayOfEra := shifted % 146097
  let yearOfEra :=
    (dayOfEra - dayOfEra / 1460 + dayOfEra / 36524 - dayOfEra / 146096) / 365
  let dayOfYear := dayOfEra - (365 * yearOfEra + yearOfEra / 4 - yearOfEra / 100)
  let monthFromMarch := (5 * dayOfYear + 2) / 153
  let day := dayOfYear - (153 * monthFromMarch + 2) / 5 + 1
  let month := if monthFromMarch < 10 then monthFromMarch + 3 else monthFromMarch - 9
  let year := yearOfEra + era * 400 + (if month ≤ 2 then 1 else 0)
  ofFields? year month.toNat day.toNat

def isBefore (left right : Date) : Bool :=
  left.year < right.year ||
    (left.year = right.year &&
      (left.month < right.month || (left.month = right.month && left.day < right.day)))

end Date
end Calendar
end LearningIndex
