import LearningIndex.Proofs.Calendar.Order
import Mathlib.Tactic.IntervalCases

/-!
# Days counted from 1970

The days between two dates are the days of the years and months between them.  Counted in this way
from the first of January 1970, every date in range is the one that is found from its number, and
dates are ordered as their numbers are.

The date of a number is found in years that begin in March, so that the leap day is the last day of
its year.
-/

namespace LearningIndex
namespace Calendar

/-- February has one day more in every fourth year, but not where a century ends unless it is a
fourth century. -/
theorem exists_leap (year : Int) :
    ∃ leap : Nat, (if isLeapYear year = true then 29 else 28) = 28 + leap ∧
      (leap = 1 ∧ year % 4 = 0 ∧ (year % 100 ≠ 0 ∨ year % 400 = 0) ∨
        leap = 0 ∧ (year % 4 ≠ 0 ∨ year % 100 = 0 ∧ year % 400 ≠ 0)) := by
  have rule : isLeapYear year = true ↔ year % 4 = 0 ∧ (year % 100 ≠ 0 ∨ year % 400 = 0) := by
    simp [isLeapYear]
  by_cases leap : isLeapYear year = true
  · exact ⟨1, if_pos leap, .inl ⟨rfl, rule.mp leap⟩⟩
  · refine ⟨0, if_neg leap, .inr ⟨rfl, ?_⟩⟩
    have common := mt rule.mpr leap
    omega

/-- The number of days in the first months of a year. -/
def daysOfMonths (year : Int) : Nat → Nat
  | 0 => 0
  | months + 1 => daysOfMonths year months + monthLength year (months + 1)

/-- The number of days from the beginning of the year zero to the beginning of a year. -/
def daysBeforeYear (year : Int) : Int :=
  365 * year + (year + 3) / 4 - (year + 99) / 100 + (year + 399) / 400

theorem daysBeforeYear_succ (year : Int) :
    daysBeforeYear (year + 1) = daysBeforeYear year + daysOfMonths year 12 := by
  obtain ⟨leap, february, rule⟩ := exists_leap year
  simp only [daysBeforeYear, daysOfMonths, monthLength, february]
  omega

theorem daysBeforeYear_mono {earlier later : Int} (before : earlier ≤ later) :
    daysBeforeYear earlier ≤ daysBeforeYear later := by
  simp only [daysBeforeYear]
  omega

theorem daysOfMonths_mono (year : Int) {fewer more : Nat} (fewer_le : fewer ≤ more) :
    daysOfMonths year fewer ≤ daysOfMonths year more := by
  induction fewer_le with
  | refl => exact le_rfl
  | step _ ih => exact ih.trans (Nat.le_add_right _ _)

namespace Date

/-- The number of days from the first of January 1970 to a date. -/
def dayNumber (date : Date) : Int :=
  daysBeforeYear date.year - daysBeforeYear 1970 + daysOfMonths date.year (date.month - 1) +
    (date.day - 1)

theorem day_le (date : Date) :
    daysOfMonths date.year (date.month - 1) + date.day ≤ daysOfMonths date.year date.month := by
  obtain ⟨_, _, first, _, _, day⟩ := date.isDate
  obtain ⟨before, month⟩ := Nat.exists_eq_add_of_le' first
  rw [month] at day ⊢
  exact Nat.add_le_add_left day _

theorem dayNumber_lt_of_rank_lt {left right : Date} (before : left.rank < right.rank) :
    left.dayNumber < right.dayNumber := by
  obtain ⟨_, _, first, last, begun, _⟩ := left.isDate
  obtain ⟨_, _, first', _, begun', _⟩ := right.isDate
  have bounds := left.bounds
  have bounds' := right.bounds
  have inside := left.day_le
  rcases lt_trichotomy left.year right.year with earlier | same | later
  · -- The year of the left date ends before the other year begins.
    have year := daysOfMonths_mono left.year last
    have years := daysBeforeYear_mono (Int.add_one_le_of_lt earlier)
    rw [daysBeforeYear_succ] at years
    simp only [dayNumber]
    omega
  · rcases lt_or_ge left.month right.month with earlier | later
    · -- The month of the left date ends before the other month begins.
      have months := daysOfMonths_mono left.year (Nat.le_sub_one_of_lt earlier)
      simp only [dayNumber, ← same]
      omega
    · have together : left.month = right.month ∧ left.day < right.day := by
        simp only [rank] at before
        omega
      simp only [dayNumber, ← same, ← together.1]
      omega
  · simp only [rank] at before
    omega

theorem dayNumber_inj {left right : Date} : left.dayNumber = right.dayNumber ↔ left = right := by
  constructor
  · intro same
    rw [← rank_inj]
    rcases lt_trichotomy left.rank right.rank with before | equal | after
    · exact absurd same (dayNumber_lt_of_rank_lt before).ne
    · exact equal
    · exact absurd same (dayNumber_lt_of_rank_lt after).ne'
  · rintro rfl
    rfl

/-- Dates are ordered as their numbers are. -/
theorem isBefore_iff_dayNumber_lt (left right : Date) :
    left.isBefore right = true ↔ left.dayNumber < right.dayNumber := by
  rw [isBefore_iff]
  constructor
  · exact dayNumber_lt_of_rank_lt
  · intro before
    by_contra late
    rcases (not_lt.mp late).lt_or_eq with after | same
    · exact absurd before (dayNumber_lt_of_rank_lt after).not_gt
    · exact absurd (dayNumber_inj.mpr (rank_inj.mp same)) before.ne'

theorem ofFields?_eq_some_iff {year : Int} {month day : Nat} {date : Date} :
    ofFields? year month day = some date ↔
      date.year = year ∧ date.month = month ∧ date.day = day := by
  constructor
  · intro found
    rw [ofFields?] at found
    split_ifs at found with isDate
    obtain rfl := Option.some.inj found
    exact ⟨rfl, rfl, rfl⟩
  · rintro ⟨rfl, rfl, rfl⟩
    exact dif_pos date.isDate

/-! ## Years that begin in March -/

/-- The number of days from the first of March of the year zero to that of a year. -/
def daysBeforeMarch (year : Int) : Int :=
  365 * year + year / 4 - year / 100 + year / 400

/-- Whether a year that begins in March has a day of the number; the leap day is the day 365. -/
structure IsMarchDay (year day : Int) : Prop where
  nonneg : 0 ≤ day
  /-- The day is within a year of 365 days, or it is a leap day. -/
  inside : day < 365 ∨ day = 365 ∧ year % 4 = 3 ∧ (year % 100 ≠ 99 ∨ year % 400 = 399)

/-- The year of a date where years begin in March. -/
def marchYear (date : Date) : Int :=
  if date.month ≤ 2 then date.year - 1 else date.year

/-- How many months a month comes after March. -/
def monthsFromMarch (month : Nat) : Int :=
  if month ≤ 2 then month + 9 else month - 3

/-- The number of days from the first of March to the beginning of a month: 31, 30, 31, 30 and 31
days in turn. -/
def daysFromMarch (months : Int) : Int :=
  (153 * months + 2) / 5

/-- The day of a date in its year where years begin in March. -/
def marchDay (date : Date) : Int :=
  daysFromMarch (monthsFromMarch date.month) + date.day - 1

/-- The date of a day in a year that begins in March. -/
def ofMarchDay? (year day : Int) : Option Date :=
  let months := (5 * day + 2) / 153
  let month := if months < 10 then months + 3 else months - 9
  ofFields? (year + if month ≤ 2 then 1 else 0) month.toNat (day - daysFromMarch months + 1).toNat

theorem dayNumber_eq (date : Date) :
    date.dayNumber = daysBeforeMarch date.marchYear + date.marchDay - 719468 := by
  obtain ⟨year, month, day, _, _, first, last, _⟩ := date
  obtain ⟨leap, february, rule⟩ := exists_leap year
  simp only [dayNumber, marchYear, marchDay, monthsFromMarch, daysFromMarch, daysBeforeYear,
    daysBeforeMarch]
  interval_cases month <;> simp only [daysOfMonths, monthLength, february, Nat.reduceSub,
    Nat.reduceAdd, Nat.reduceLeDiff, ↓reduceIte] <;> omega

theorem isMarchDay (date : Date) : IsMarchDay date.marchYear date.marchDay := by
  obtain ⟨year, month, day, _, _, first, last, begun, inside⟩ := date
  obtain ⟨leap, february, rule⟩ := exists_leap year
  simp only [marchYear, marchDay, monthsFromMarch, daysFromMarch]
  interval_cases month <;> simp only [monthLength, february] at inside <;>
    simp only [Nat.reduceLeDiff, ↓reduceIte] <;> constructor <;> omega

/-- No month is longer than the time to the beginning of the next one. -/
theorem monthLength_le_daysFromMarch (year : Int) {month : Nat} (first : 1 ≤ month)
    (last : month ≤ 12) :
    (monthLength year month : Int) ≤
      daysFromMarch (monthsFromMarch month + 1) - daysFromMarch (monthsFromMarch month) := by
  obtain ⟨leap, february, rule⟩ := exists_leap year
  simp only [monthsFromMarch, daysFromMarch]
  interval_cases month <;> simp only [monthLength, february, Nat.reduceLeDiff, ↓reduceIte] <;> omega

theorem months_of_marchDay {months day : Int} (begun : 1 ≤ day)
    (inside : day ≤ daysFromMarch (months + 1) - daysFromMarch months) :
    (5 * (daysFromMarch months + day - 1) + 2) / 153 = months := by
  simp only [daysFromMarch] at *
  omega

theorem ofMarchDay?_of_date (date : Date) :
    ofMarchDay? date.marchYear date.marchDay = some date := by
  obtain ⟨_, _, first, last, begun, inside⟩ := date.isDate
  have short := monthLength_le_daysFromMarch date.year first last
  have months : (5 * date.marchDay + 2) / 153 = monthsFromMarch date.month :=
    months_of_marchDay (by omega) (by omega)
  rw [ofMarchDay?, months, ofFields?_eq_some_iff]
  refine ⟨?_, ?_, ?_⟩
  · simp only [marchYear, monthsFromMarch]
    split_ifs <;> omega
  · simp only [monthsFromMarch]
    split_ifs <;> omega
  · rw [marchDay]
    omega

theorem march_of_ofMarchDay? {year day : Int} (inside : IsMarchDay year day) {date : Date}
    (found : ofMarchDay? year day = some date) :
    date.marchYear = year ∧ date.marchDay = day := by
  obtain ⟨nonneg, within⟩ := inside
  rw [ofMarchDay?, ofFields?_eq_some_iff] at found
  obtain ⟨same_year, same_month, same_day⟩ := found
  have begun : daysFromMarch ((5 * day + 2) / 153) ≤ day := by
    simp only [daysFromMarch]
    omega
  have range : 0 ≤ (5 * day + 2) / 153 ∧ (5 * day + 2) / 153 < 12 := by omega
  generalize (5 * day + 2) / 153 = months at same_year same_month same_day begun range
  have month : monthsFromMarch date.month = months := by
    rw [monthsFromMarch, same_month]
    split_ifs at same_month ⊢ <;> omega
  constructor
  · rw [marchYear, same_year, same_month]
    split_ifs at same_month ⊢ <;> omega
  · rw [marchDay, month, same_day]
    omega

/-! ## The date of a number -/

/-- The year of a day in 400 years is found, though leap years make some years longer. -/
theorem yearOfEra_eq {year day dayOfEra : Int} (inside : IsMarchDay year day) (nonneg : 0 ≤ year)
    (lt : year < 400) (days : dayOfEra = 365 * year + year / 4 - year / 100 + day) :
    (dayOfEra - dayOfEra / 1460 + dayOfEra / 36524 - dayOfEra / 146096) / 365 = year := by
  obtain ⟨day_nonneg, within⟩ := inside
  obtain ⟨century, fourth, rest, rfl, _, _, _, _, _, _⟩ : ∃ century fourth rest : Int,
      year = 100 * century + 4 * fourth + rest ∧ 0 ≤ century ∧ century < 4 ∧ 0 ≤ fourth ∧
        fourth < 25 ∧ 0 ≤ rest ∧ rest < 4 :=
    ⟨year / 100, year % 100 / 4, year % 4, by omega, by omega, by omega, by omega, by omega,
      by omega, by omega⟩
  have day_le : day < 365 ∨ day = 365 ∧ rest = 3 ∧ (fourth ≠ 24 ∨ century = 3) := by omega
  have split : dayOfEra = 36524 * century + 1461 * fourth + 365 * rest + day := by omega
  clear within days nonneg lt
  have centuries : dayOfEra / 36524 - dayOfEra / 146096 = century := by
    -- Only the last century has a leap day at its end, and 400 years end with it.
    have last : dayOfEra < 36524 * century + 36524 ∨ century = 3 ∧ dayOfEra = 146096 := by omega
    rcases last with early | ⟨rfl, rfl⟩
    · have whole : dayOfEra / 36524 = century := by omega
      have none : dayOfEra / 146096 = 0 := by omega
      omega
    · decide
  have fourths : dayOfEra / 1460 =
      25 * century + fourth + (24 * century + fourth + 365 * rest + day) / 1460 := by
    omega
  omega

theorem ofDayNumber?_march {year day : Int} (inside : IsMarchDay year day) :
    ofDayNumber? (daysBeforeMarch year + day - 719468) = ofMarchDay? year day := by
  obtain ⟨nonneg, within⟩ := inside
  have inside : IsMarchDay (year % 400) day := ⟨nonneg, by omega⟩
  generalize days : 365 * (year % 400) + year % 400 / 4 - year % 400 / 100 + day = dayOfEra
  have shifted : daysBeforeMarch year + day - 719468 + 719468 =
      146097 * (year / 400) + dayOfEra := by
    simp only [daysBeforeMarch]
    omega
  have range : 0 ≤ dayOfEra ∧ dayOfEra < 146097 := by omega
  have era : (146097 * (year / 400) + dayOfEra) / 146097 = year / 400 := by omega
  have rest : (146097 * (year / 400) + dayOfEra) % 146097 = dayOfEra := by omega
  have yearOfEra := yearOfEra_eq inside (by omega) (by omega) days.symm
  have dayOfYear : dayOfEra - (365 * (year % 400) + year % 400 / 4 - year % 400 / 100) = day := by
    omega
  have whole : year % 400 + year / 400 * 400 = year := by omega
  simp only [ofDayNumber?, shifted, era, rest, yearOfEra, dayOfYear, whole]
  rfl

/-- Days divide into spans of one length, of which the last may be a day longer. -/
theorem exists_span (span count days : Int) (positive : 0 < span) (count_pos : 0 < count)
    (nonneg : 0 ≤ days) (inside : days ≤ span * count) :
    ∃ index day, days = span * index + day ∧ 0 ≤ index ∧ index < count ∧ 0 ≤ day ∧
      (day < span ∨ day = span ∧ index = count - 1) := by
  rcases inside.lt_or_eq with early | last
  · refine ⟨days / span, days % span, (Int.mul_ediv_add_emod days span).symm,
      Int.ediv_nonneg nonneg positive.le, ?_, Int.emod_nonneg days positive.ne',
      .inl (Int.emod_lt_of_pos days positive)⟩
    exact Int.ediv_lt_of_lt_mul positive (mul_comm span count ▸ early)
  · refine ⟨count - 1, span, ?_, Int.le_sub_one_of_lt count_pos, Int.sub_one_lt_of_le le_rfl,
      positive.le, .inr ⟨rfl, rfl⟩⟩
    rw [last, mul_sub_one, sub_add_cancel]

theorem exists_isMarchDay (days : Int) :
    ∃ year day, IsMarchDay year day ∧ days = daysBeforeMarch year + day - 719468 := by
  obtain ⟨era, dayOfEra, eras, _, _⟩ : ∃ era dayOfEra : Int,
      days + 719468 = 146097 * era + dayOfEra ∧ 0 ≤ dayOfEra ∧ dayOfEra < 146097 :=
    ⟨(days + 719468) / 146097, (days + 719468) % 146097, by omega, by omega, by omega⟩
  -- The fourth of the centuries has a leap day at its end, and so has the fourth of four years.
  obtain ⟨century, dayOfCentury, centuries, _, _, _, _⟩ :=
    exists_span 36524 4 dayOfEra (by decide) (by decide) (by omega) (by omega)
  obtain ⟨fourth, dayOfFourth, fourths, _, _, _, _⟩ : ∃ fourth dayOfFourth : Int,
      dayOfCentury = 1461 * fourth + dayOfFourth ∧ 0 ≤ fourth ∧ fourth < 25 ∧ 0 ≤ dayOfFourth ∧
        dayOfFourth < 1461 :=
    ⟨dayOfCentury / 1461, dayOfCentury % 1461, by omega, by omega, by omega, by omega, by omega⟩
  obtain ⟨rest, day, years, _, _, begun, _⟩ :=
    exists_span 365 4 dayOfFourth (by decide) (by decide) (by omega) (by omega)
  obtain ⟨year, same⟩ : ∃ year, year = 400 * era + 100 * century + 4 * fourth + rest := ⟨_, rfl⟩
  have leaps : year / 4 = 100 * era + 25 * century + fourth ∧ year / 100 = 4 * era + century ∧
      year / 400 = era := by
    omega
  refine ⟨year, day, ⟨begun, by omega⟩, ?_⟩
  simp only [daysBeforeMarch, leaps]
  omega

/-- A date is found from a number exactly if it has the number. -/
theorem ofDayNumber?_eq_some_iff {days : Int} {date : Date} :
    ofDayNumber? days = some date ↔ date.dayNumber = days := by
  constructor
  · intro found
    obtain ⟨year, day, inside, rfl⟩ := exists_isMarchDay days
    rw [ofDayNumber?_march inside] at found
    obtain ⟨rfl, rfl⟩ := march_of_ofMarchDay? inside found
    exact dayNumber_eq date
  · rintro rfl
    rw [dayNumber_eq, ofDayNumber?_march date.isMarchDay, ofMarchDay?_of_date]

end Date
end Calendar
end LearningIndex
