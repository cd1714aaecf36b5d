import LearningIndex.Proofs.Backend.Aggregation
import LearningIndex.Proofs.Calendar.Days
import Mathlib.Data.Prod.Lex

/-!
# Instants on the time line

An instant lies so many seconds after the beginning of 1970, and so many nanoseconds into a second.
In a leap second the seconds do not go on, but the nanoseconds do.  The order of instants is the one
of these numbers, although it compares years, months and days.

The bound of a stamp is read as the beginning of its second.  It is never later than the stamp, and
the bound of a later stamp is not earlier, so what was ingested at the stamp or later is within the
range, even if its time was noted to the second only.
-/

namespace LearningIndex
namespace Calendar
namespace Instant

/-- The seconds from the beginning of 1970 to an instant.  In a leap second they are those of the
second before it. -/
def unixSeconds (instant : Instant) : Int :=
  instant.date.dayNumber * 86400 +
    (instant.hour * 3600 + instant.minute * 60 + min instant.second 59 : Nat)

/-- The nanoseconds from the beginning of that second to the instant, which are a billion or more in
a leap second. -/
def unixNanoseconds (instant : Instant) : Nat :=
  (instant.second - 59) * 1000000000 + instant.nanosecond

/-- The place of an instant on the time line. -/
def moment (instant : Instant) : Int ×ₗ Nat :=
  toLex (instant.unixSeconds, instant.unixNanoseconds)

theorem isBefore_iff_moment_lt (left right : Instant) :
    left.isBefore right = true ↔ left.moment < right.moment := by
  have minute := left.minute_lt
  have minute' := right.minute_lt
  have second := left.second_le
  have second' := right.second_le
  have nanosecond := left.nanosecond_lt
  have nanosecond' := right.nanosecond_lt
  have hour := left.hour_lt
  have hour' := right.hour_lt
  simp only [moment, Prod.Lex.toLex_lt_toLex, unixSeconds, unixNanoseconds]
  simp only [isBefore, Bool.or_eq_true, Bool.and_eq_true, decide_eq_true_eq,
    Date.isBefore_iff_dayNumber_lt, ← Date.dayNumber_inj]
  omega

theorem isBefore_eq_false_iff_moment_le {left right : Instant} :
    left.isBefore right = false ↔ right.moment ≤ left.moment := by
  rw [← Bool.not_eq_true, isBefore_iff_moment_lt, not_lt]

theorem ofFields?_eq_some_iff {date : Date} {hour minute second nanosecond : Nat}
    {instant : Instant} :
    ofFields? date hour minute second nanosecond = some instant ↔
      instant.date = date ∧ instant.hour = hour ∧ instant.minute = minute ∧
        instant.second = second ∧ instant.nanosecond = nanosecond := by
  constructor
  · intro found
    rw [ofFields?] at found
    split_ifs at found with isTime
    obtain rfl := Option.some.inj found
    exact ⟨rfl, rfl, rfl, rfl, rfl⟩
  · rintro ⟨rfl, rfl, rfl, rfl, rfl⟩
    exact dif_pos ⟨instant.hour_lt, instant.minute_lt, instant.second_le, instant.nanosecond_lt⟩

/-- An instant is found from seconds and nanoseconds exactly if it has these, and is in no leap
second. -/
theorem ofUnix?_eq_some_iff {seconds : Int} {nanoseconds : Nat} {instant : Instant} :
    ofUnix? seconds nanoseconds = some instant ↔
      instant.second < 60 ∧ instant.unixSeconds = seconds ∧ instant.nanosecond = nanoseconds := by
  constructor
  · intro found
    rw [ofUnix?] at found
    split at found
    · next date dated =>
        obtain ⟨same, hour, minute, second, nanosecond⟩ := ofFields?_eq_some_iff.mp found
        have day := Date.ofDayNumber?_eq_some_iff.mp dated
        rw [← same] at day
        simp only [unixSeconds]
        omega
    · cases found
  · rintro ⟨ordinary, rfl, rfl⟩
    have hour := instant.hour_lt
    have minute := instant.minute_lt
    have day : instant.unixSeconds / 86400 = instant.date.dayNumber := by
      simp only [unixSeconds]
      omega
    have rest : (instant.unixSeconds % 86400).toNat =
        instant.hour * 3600 + instant.minute * 60 + instant.second := by
      simp only [unixSeconds]
      omega
    have dated := Date.ofDayNumber?_eq_some_iff.mpr (Eq.refl instant.date.dayNumber)
    simp only [ofUnix?, day, dated, rest]
    rw [ofFields?_eq_some_iff]
    refine ⟨rfl, ?_⟩
    omega

/-! ## Beginnings of seconds -/

/-- The beginning of a second lies in that second, and leap seconds are no other seconds. -/
theorem moment_wholeSecond (instant : Instant) :
    instant.wholeSecond.moment =
      toLex (instant.unixSeconds, if instant.second = 60 then 1000000000 else 0) := by
  have second := instant.second_le
  rw [moment]
  congr 2
  simp only [unixNanoseconds, wholeSecond]
  split_ifs <;> omega

theorem moment_wholeSecond_le (instant : Instant) :
    instant.wholeSecond.moment ≤ instant.moment := by
  rw [← isBefore_eq_false_iff_moment_le, isBefore_eq_false_iff, rank_wholeSecond]
  omega

theorem moment_wholeSecond_mono {earlier later : Instant} (order : earlier.moment ≤ later.moment) :
    earlier.wholeSecond.moment ≤ later.wholeSecond.moment := by
  rw [← isBefore_eq_false_iff_moment_le] at order ⊢
  exact wholeSecond_isBefore order

theorem ofUnix?_zero {seconds : Int} {nanoseconds : Nat} {instant : Instant}
    (found : ofUnix? seconds nanoseconds = some instant) :
    ofUnix? seconds 0 = some instant.wholeSecond := by
  obtain ⟨ordinary, same, -⟩ := ofUnix?_eq_some_iff.mp found
  exact ofUnix?_eq_some_iff.mpr ⟨ordinary, same, rfl⟩

end Instant

/-! ## Ranges -/

/-- A document is in the range of a stamp if its time of ingestion is the stamp or later, and also
if that time was noted to the second only. -/
theorem passes_of_moment_le {stamp time : Instant} (order : stamp.moment ≤ time.moment)
    {fields : Fields} {name text : String} (shown : fields.get? name = some (.string text))
    (noted : instant? text = some time ∨ text = time.bound) :
    fields.Passes (Query.sinceFilter name stamp) := by
  rw [Fields.passes_sinceFilter_iff]
  rcases noted with exactly | rfl
  · have late := stamp.moment_wholeSecond_le.trans order
    exact ⟨text, time, shown, exactly, Instant.isBefore_eq_false_iff_moment_le.mpr late⟩
  · have late := Instant.moment_wholeSecond_mono order
    exact ⟨time.bound, time.wholeSecond, shown, instant?_bound time,
      Instant.isBefore_eq_false_iff_moment_le.mpr late⟩

/-- The bound of a stamp is read as the beginning of the second of the stamp, by the fields of the
calendar as on the time line, where instants are ordered as they are compared.  Of a later stamp the
bound is not earlier, and what was ingested at the stamp or later is within its range. -/
theorem bound_admits_later (stamp : Instant) :
    instant? stamp.bound = some stamp.wholeSecond ∧
      stamp.wholeSecond.moment =
        toLex (stamp.unixSeconds, if stamp.second = 60 then 1000000000 else 0) ∧
      stamp.wholeSecond.moment ≤ stamp.moment ∧
      (∀ seconds nanoseconds, Instant.ofUnix? seconds nanoseconds = some stamp →
        Instant.ofUnix? seconds 0 = instant? stamp.bound) ∧
      ∀ time : Instant, (time.isBefore stamp = true ↔ time.moment < stamp.moment) ∧
        (stamp.moment ≤ time.moment →
          (∃ start, instant? time.bound = some start ∧ stamp.wholeSecond.moment ≤ start.moment) ∧
          (∀ (fields : Fields) (name text : String), fields.get? name = some (.string text) →
            instant? text = some time ∨ text = time.bound →
              fields.Passes (Query.sinceFilter name stamp)) ∧
          ∀ descriptor : MeshDescriptor, (descriptor.document time.bound).source.Passes
            (Query.sinceFilter MeshIndexer.ingestTimeField stamp)) := by
  refine ⟨instant?_bound stamp, stamp.moment_wholeSecond, stamp.moment_wholeSecond_le,
    fun seconds nanoseconds found => ?_,
    fun time => ⟨time.isBefore_iff_moment_lt stamp, fun order => ⟨?_, ?_, ?_⟩⟩⟩
  · rw [instant?_bound, Instant.ofUnix?_zero found]
  · exact ⟨time.wholeSecond, instant?_bound time, Instant.moment_wholeSecond_mono order⟩
  · exact fun fields name text shown noted => passes_of_moment_le order shown noted
  · exact fun descriptor =>
      passes_of_moment_le order (descriptor.get?_document_time time.bound) (.inr rfl)

namespace Sample

/-- The middle of a leap second at the end of the year before the year zero. -/
def leapSecond : Instant :=
  (Instant.ofFields? ⟨-1, 12, 31, by decide⟩ 23 59 60 500000000).get (by decide)

def newYear : Instant :=
  { Instant.epoch with date := ⟨0, 1, 1, by decide⟩ }

def march : Instant :=
  (Instant.ofFields? ⟨2024, 3, 1, by decide⟩ 10 0 0 700000000).get (by decide)

/-- A descriptor that is indexed when the year begins is in the range of the leap second before. -/
theorem bound_admits_new_year :
    leapSecond.bound = "-0001-12-31T23:59:60+00:00" ∧ leapSecond.moment ≤ newYear.moment ∧
      (({ id := "D1", name := "Heart" } : MeshDescriptor).document newYear.bound).source.Passes
        (Query.sinceFilter MeshIndexer.ingestTimeField leapSecond) ∧
      Instant.ofUnix? 1709287200 700000000 = some march ∧
      Instant.ofUnix? 1709287200 0 = instant? march.bound := by
  have order : leapSecond.moment ≤ newYear.moment :=
    Instant.isBefore_eq_false_iff_moment_le.mp (by decide)
  have found : Instant.ofUnix? 1709287200 700000000 = some march := by decide
  obtain ⟨-, -, -, -, admits⟩ := bound_admits_later leapSecond
  obtain ⟨-, -, -, began, -⟩ := bound_admits_later march
  obtain ⟨-, -, built⟩ := (admits newYear).2 order
  exact ⟨by decide +kernel, order, built _, found, began _ _ found⟩

end Sample

end Calendar
end LearningIndex
