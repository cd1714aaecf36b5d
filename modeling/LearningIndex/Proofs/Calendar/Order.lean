import LearningIndex.Proofs.Calendar.Bound
import Mathlib.Order.Basic

/-!
# The order of instants

Instants are compared field by field.  The fields are the digits of a number, so the comparison is
the one of numbers, and the beginning of a second is the number without its last digit.
-/

namespace LearningIndex
namespace Calendar

namespace Date

/-- The fields of a date as the digits of a number. -/
def rank (date : Date) : Int :=
  (date.year * 13 + date.month) * 32 + date.day

theorem bounds (date : Date) : date.month < 13 ∧ date.day < 32 := by
  obtain ⟨_, _, _, month, _, day⟩ := date.isDate
  have length := monthLength_le date.year date.month
  omega

theorem rank_inj {left right : Date} : left.rank = right.rank ↔ left = right := by
  constructor
  · intro same
    have bounds := left.bounds
    have bounds' := right.bounds
    obtain ⟨year, month, day, _⟩ := left
    obtain ⟨year', month', day', _⟩ := right
    simp only [rank, mk.injEq] at *
    omega
  · rintro rfl
    rfl

theorem isBefore_iff (left right : Date) : left.isBefore right = true ↔ left.rank < right.rank := by
  have bounds := left.bounds
  have bounds' := right.bounds
  simp only [isBefore, Bool.or_eq_true, Bool.and_eq_true, decide_eq_true_eq, rank]
  omega

end Date

namespace Instant

/-- The fields of an instant as the digits of a number. -/
def rank (instant : Instant) : Int :=
  (((instant.date.rank * 24 + instant.hour) * 60 + instant.minute) * 61 + instant.second) *
    1000000000 + instant.nanosecond

theorem isBefore_iff (left right : Instant) :
    left.isBefore right = true ↔ left.rank < right.rank := by
  have minute := left.minute_lt
  have minute' := right.minute_lt
  have second := left.second_le
  have second' := right.second_le
  have nanosecond := left.nanosecond_lt
  have nanosecond' := right.nanosecond_lt
  have hour := left.hour_lt
  have hour' := right.hour_lt
  simp only [isBefore, Bool.or_eq_true, Bool.and_eq_true, decide_eq_true_eq, Date.isBefore_iff,
    ← Date.rank_inj, rank]
  omega

theorem isBefore_eq_false_iff {left right : Instant} :
    left.isBefore right = false ↔ right.rank ≤ left.rank := by
  rw [← Bool.not_eq_true, isBefore_iff, not_lt]

theorem rank_wholeSecond (instant : Instant) :
    instant.wholeSecond.rank = instant.rank / 1000000000 * 1000000000 := by
  have bound := instant.nanosecond_lt
  simp only [rank, wholeSecond]
  omega

theorem wholeSecond_isBefore {left right : Instant} (late : left.isBefore right = false) :
    left.wholeSecond.isBefore right.wholeSecond = false := by
  rw [isBefore_eq_false_iff] at late ⊢
  rw [rank_wholeSecond, rank_wholeSecond]
  omega

theorem isBefore_eq_false_trans {first second third : Instant}
    (late : second.isBefore first = false) (later : third.isBefore second = false) :
    third.isBefore first = false := by
  rw [isBefore_eq_false_iff] at *
  exact late.trans later

end Instant
end Calendar
end LearningIndex
