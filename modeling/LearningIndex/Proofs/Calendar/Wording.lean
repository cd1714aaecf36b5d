import LearningIndex.Proofs.Calendar.Bound

/-!
# The text of an instant

An instant comes back from its text: with its fraction, which is written with as few of 0, 3, 6 and
9 digits as it needs, in a leap second, and in a year of any sign and length.
-/

namespace LearningIndex
namespace Calendar

open Text (isNumeral_paddedDecimal paddedDecimal)

theorem readFraction_padded {width number : Nat} (positive : 0 < width) (most : width ≤ 9)
    (small : number < 10 ^ width) {mark : Char} (ends : Text.isDigit mark = false)
    (rest : List Char) :
    readFraction ('.' :: (paddedDecimal width number ++ mark :: rest)) =
      some (number * 10 ^ (9 - width), mark :: rest) := by
  have numeral := isNumeral_paddedDecimal width number
  have length := Text.length_paddedDecimal positive small
  have digits : (paddedDecimal width number ++ mark :: rest).takeWhile Text.isDigit =
      paddedDecimal width number := by
    rw [List.takeWhile_append_of_pos numeral.digits, List.takeWhile_cons_of_neg (by simp [ends]),
      List.append_nil]
  have dropped : (paddedDecimal width number ++ mark :: rest).drop width = mark :: rest :=
    List.drop_left' length
  rw [readFraction, readUpTo_append numeral (length.le.trans most) ends,
    Text.readDigits_paddedDecimal]
  simp only [digits, length, dropped]
  rfl

theorem readFraction_fractionText {nanosecond : Nat} (range : nanosecond < 1000000000) :
    readFraction (Instant.fractionText nanosecond ++ ['Z']) = some (nanosecond, ['Z']) := by
  rw [Instant.fractionText]
  split_ifs with none millis micros
  · rw [none]
    rfl
  · rw [List.cons_append, readFraction_padded (by decide) (by decide) (by omega) (by decide)]
    simp only [Option.some.injEq, Prod.mk.injEq, and_true]
    omega
  · rw [List.cons_append, readFraction_padded (by decide) (by decide) (by omega) (by decide)]
    simp only [Option.some.injEq, Prod.mk.injEq, and_true]
    omega
  · rw [List.cons_append, readFraction_padded (by decide) (by decide) (by omega) (by decide),
      Nat.sub_self, Nat.pow_zero, Nat.mul_one]

/-- The fraction begins with a point, and without one comes the letter at once. -/
theorem exists_fractionText_eq_cons (nanosecond : Nat) :
    ∃ mark rest, Instant.fractionText nanosecond ++ ['Z'] = mark :: rest ∧
      Text.isDigit mark = false := by
  rw [Instant.fractionText]
  split_ifs
  · exact ⟨'Z', [], rfl, by decide⟩
  all_goals exact ⟨'.', _, rfl, by decide⟩

theorem instant?_text (instant : Instant) : instant? instant.text = some instant := by
  have fraction := readFraction_fractionText instant.nanosecond_lt
  have offset : readOffset (Text.trimStart ['Z']) = some (0, []) := by decide
  obtain ⟨mark, rest, text, ends⟩ := exists_fractionText_eq_cons instant.nanosecond
  rw [text] at fraction
  rw [instant?, Instant.text, String.toList_ofList, List.append_assoc, text,
    readInstant_secondText instant ends rest fraction offset, ofLocal?_universal]

end Calendar
end LearningIndex
