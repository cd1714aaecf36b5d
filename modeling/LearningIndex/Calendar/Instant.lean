import LearningIndex.Calendar.Date

/-!
# Instants

Points in universal time, to the nanosecond.  Any minute may have a 61st second, so that leap
seconds keep their name.  Instants are ordered field by field.
-/

namespace LearningIndex
namespace Calendar

/-- A point in universal time. -/
structure Instant where
  date : Date
  hour : Nat
  minute : Nat
  /-- The second of the minute; 60 in a leap second. -/
  second : Nat
  nanosecond : Nat
  hour_lt : hour < 24
  minute_lt : minute < 60
  second_le : second ≤ 60
  nanosecond_lt : nanosecond < 1000000000
deriving DecidableEq, Repr

namespace Instant

def ofFields? (date : Date) (hour minute second nanosecond : Nat) : Option Instant :=
  if isTime : hour < 24 ∧ minute < 60 ∧ second ≤ 60 ∧ nanosecond < 1000000000 then
    some ⟨date, hour, minute, second, nanosecond, isTime.1, isTime.2.1, isTime.2.2.1,
      isTime.2.2.2⟩
  else none

def epoch : Instant :=
  ⟨Date.epoch, 0, 0, 0, 0, by decide, by decide, by decide, by decide⟩

/-- The instant so many seconds and nanoseconds after the beginning of 1970, leap seconds not
counted. -/
def ofUnix? (seconds : Int) (nanoseconds : Nat) : Option Instant :=
  let secondOfDay := (seconds % 86400).toNat
  match Date.ofDayNumber? (seconds / 86400) with
  | some date =>
    ofFields? date (secondOfDay / 3600) (secondOfDay / 60 % 60) (secondOfDay % 60) nanoseconds
  | none => none

/-- The instant whose fields are given in a local time that is `minutes` ahead of universal time,
by less than a day. -/
def ofLocal? (date : Date) (hour minute second nanosecond : Nat) (minutes : Int) :
    Option Instant :=
  let minuteOfDay : Int := hour * 60 + minute - minutes
  let shifted := (minuteOfDay % 1440).toNat
  let day :=
    if minuteOfDay < 0 then date.previous?
    else if minuteOfDay < 1440 then some date
    else date.next?
  match day with
  | some day => ofFields? day (shifted / 60) (shifted % 60) second nanosecond
  | none => none

def isBefore (left right : Instant) : Bool :=
  left.date.isBefore right.date ||
    (left.date = right.date &&
      (left.hour < right.hour ||
        (left.hour = right.hour &&
          (left.minute < right.minute ||
            (left.minute = right.minute &&
              (left.second < right.second ||
                (left.second = right.second && left.nanosecond < right.nanosecond)))))))

/-- How an instant stands to another in time. -/
def order (left right : Instant) : Ordering :=
  if left.isBefore right then .lt else if right.isBefore left then .gt else .eq

end Instant
end Calendar
end LearningIndex
