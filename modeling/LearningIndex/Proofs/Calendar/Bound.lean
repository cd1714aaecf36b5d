import LearningIndex.Calendar.Timestamp
import LearningIndex.Proofs.Document.Identity
import LearningIndex.Proofs.Text.Words

/-!
# The bound of a range in time

The text of an instant in a range has no fraction.  A reader takes it for the beginning of the
second in which the instant lies, so that everything in that second is within the range.
-/

namespace LearningIndex

namespace Text

/-- A text that consists of digits, of at least one. -/
structure IsNumeral (text : List Char) : Prop where
  nonempty : text ≠ []
  digits : ∀ character ∈ text, isDigit character = true

theorem isDigit_iff {character : Char} :
    isDigit character = true ↔ 48 ≤ character.toNat ∧ character.toNat < 58 := by
  rw [isDigit, decide_eq_true_eq, Char.le_def, Char.le_def, UInt32.le_iff_toNat_le,
    UInt32.le_iff_toNat_le, show '0'.val.toNat = 48 from rfl, show '9'.val.toNat = 57 from rfl]
  change 48 ≤ character.toNat ∧ character.toNat ≤ 57 ↔ _
  omega

theorem isBlank_of_isDigit {character : Char} (digit : isDigit character = true) :
    isBlank character = false := by
  have apart : ∀ range ∈ blankRanges, range.2 < 48 ∨ 58 ≤ range.1 := by decide
  by_contra blank
  obtain ⟨range, member, inside⟩ := exists_range_of_inRanges (by simpa [isBlank] using blank)
  have outside := apart range member
  rw [isDigit_iff] at digit
  rw [List.mem_range'_1] at inside
  omega

theorem decimal_ne_nil (number : Nat) : decimal number ≠ [] := by
  rw [decimal]
  split <;> simp

theorem length_decimal_le {number width : Nat} (positive : 0 < width)
    (small : number < 10 ^ width) : (decimal number).length ≤ width := by
  induction number using decimal.induct generalizing width with
  | case1 number one =>
      rw [decimal, if_pos one]
      exact positive
  | case2 number more ih =>
      obtain ⟨less, rfl⟩ : ∃ less, width = less + 1 := ⟨width - 1, by omega⟩
      have quotient : number / 10 < 10 ^ less := by
        rw [pow_succ] at small
        omega
      have positive : 0 < less := by
        by_contra zero
        obtain rfl : less = 0 := by omega
        omega
      rw [decimal, if_neg more, List.length_append]
      exact Nat.succ_le_succ (ih positive quotient)

theorem isNumeral_paddedDecimal (width number : Nat) : IsNumeral (paddedDecimal width number) where
  nonempty nothing := decimal_ne_nil number (List.append_eq_nil_iff.mp nothing).2
  digits character member := by
    rw [isDigit_iff]
    rcases List.mem_append.mp member with zero | own
    · rw [(List.mem_replicate.mp zero).2]
      decide
    · exact toNat_of_mem_decimal own

theorem readDigits_paddedDecimal (width number : Nat) :
    readDigits 0 (paddedDecimal width number) = number := by
  have zeros : ∀ count, readDigits 0 (List.replicate count '0') = 0 := by
    intro count
    induction count with
    | zero => rfl
    | succ count ih => exact ih
  rw [paddedDecimal, readDigits_append, zeros, readDigits_decimal]

theorem length_paddedDecimal {width number : Nat} (positive : 0 < width)
    (small : number < 10 ^ width) : (paddedDecimal width number).length = width := by
  have short := length_decimal_le positive small
  simp only [paddedDecimal, List.length_append, List.length_replicate]
  omega

theorem trimStart_cons {character : Char} (visible : isBlank character = false)
    (rest : List Char) : trimStart (character :: rest) = character :: rest :=
  List.dropWhile_cons_of_neg (by simp [visible])

theorem IsNumeral.trimStart_append {digits : List Char} (numeral : IsNumeral digits)
    (rest : List Char) : trimStart (digits ++ rest) = digits ++ rest := by
  obtain ⟨first, others, rfl⟩ := List.exists_cons_of_ne_nil numeral.nonempty
  exact trimStart_cons (isBlank_of_isDigit (numeral.digits first List.mem_cons_self)) _

end Text

namespace Calendar

open Text (IsNumeral isNumeral_paddedDecimal paddedDecimal readDigits)

section Numerals

variable {digits : List Char} {mark : Char} {most : Nat}

/-- A numeral that ends at a mark is read in full. -/
theorem readUpTo_append (numeral : IsNumeral digits) (short : digits.length ≤ most)
    (ends : Text.isDigit mark = false) (rest : List Char) :
    readUpTo most (digits ++ mark :: rest) = some (readDigits 0 digits, mark :: rest) := by
  have taken : ((digits ++ mark :: rest).take most).takeWhile Text.isDigit = digits := by
    obtain ⟨more, rfl⟩ := Nat.exists_eq_add_of_le short
    rw [List.take_length_add_append, List.takeWhile_append_of_pos numeral.digits]
    cases more with
    | zero => simp
    | succ more => simp [ends]
  rw [readUpTo]
  simp only [taken, List.isEmpty_iff, if_neg numeral.nonempty, List.drop_left]

theorem readField_append (numeral : IsNumeral digits) (short : digits.length ≤ most)
    (ends : Text.isDigit mark = false) (rest : List Char) :
    readField most (digits ++ mark :: rest) = some (readDigits 0 digits, mark :: rest) := by
  rw [readField, numeral.trimStart_append, readUpTo_append numeral short ends]

end Numerals

theorem readField_padded {number : Nat} (small : number < 100) {mark : Char}
    (ends : Text.isDigit mark = false) (rest : List Char) :
    readField 2 (paddedDecimal 2 number ++ mark :: rest) = some (number, mark :: rest) := by
  have short := Text.length_paddedDecimal Nat.two_pos small
  rw [readField_append (isNumeral_paddedDecimal 2 number) short.le ends,
    Text.readDigits_paddedDecimal]

theorem readMark_cons {mark : Char} (visible : Text.isBlank mark = false) (rest : List Char) :
    readMark mark (mark :: rest) = some rest := by
  rw [readMark, Text.trimStart_cons visible]
  exact if_pos rfl

theorem readYear_yearText (year : Int) {mark : Char} (ends : Text.isDigit mark = false)
    (rest : List Char) :
    readYear (yearText year ++ mark :: rest) = some (year, mark :: rest) := by
  have numeral := isNumeral_paddedDecimal 4 year.natAbs
  have value := Text.readDigits_paddedDecimal 4 year.natAbs
  have whole : (paddedDecimal 4 year.natAbs).length ≤
      (paddedDecimal 4 year.natAbs ++ mark :: rest).length := by
    simp
  rw [yearText]
  split_ifs with plain negative
  · have short := Text.length_paddedDecimal (Nat.zero_lt_succ 3)
      (show year.natAbs < 10 ^ 4 by omega)
    have read := readUpTo_append numeral short.le ends rest
    obtain ⟨first, others, same⟩ := List.exists_cons_of_ne_nil numeral.nonempty
    have digit := numeral.digits first (same ▸ List.mem_cons_self)
    rw [readYear, numeral.trimStart_append]
    rw [same] at read value ⊢
    -- A digit is no sign, so the first two cases of the reader are impossible.
    split
    · rename_i signed
      rw [(List.cons.inj signed).1] at digit
      cases digit
    · rename_i signed
      rw [(List.cons.inj signed).1] at digit
      cases digit
    · rw [read, value, Option.map_some]
      simp only [Option.some.injEq, Prod.mk.injEq, and_true]
      omega
  · rw [readYear, List.cons_append, Text.trimStart_cons (by decide)]
    simp only [readUpTo_append numeral whole ends rest, value, Option.map_some]
    congr 2
    omega
  · rw [readYear, List.cons_append, Text.trimStart_cons (by decide)]
    simp only [readUpTo_append numeral whole ends rest, value, Option.map_some]
    congr 2
    omega

theorem monthLength_le (year : Int) (month : Nat) : monthLength year month ≤ 31 := by
  unfold monthLength
  split <;> (try split) <;> omega

theorem readDate_text (date : Date) (rest : List Char) :
    readDate (date.text ++ 'T' :: rest) = some (date, rest) := by
  obtain ⟨_, _, _, month, _, day⟩ := date.isDate
  have length := monthLength_le date.year date.month
  have present : Date.ofFields? date.year date.month date.day = some date := dif_pos date.isDate
  simp only [readDate, Date.text, List.append_assoc, List.cons_append, Option.bind_eq_bind]
  rw [readYear_yearText _ (by decide), Option.bind_some, readMark_cons (by decide),
    Option.bind_some, readField_padded (by omega) (by decide), Option.bind_some,
    readMark_cons (by decide), Option.bind_some, readField_padded (by omega) (by decide),
    Option.bind_some, present, Option.bind_some]
  rfl

/-- In universal time an instant has its own fields. -/
theorem ofLocal?_universal (instant : Instant) :
    Instant.ofLocal? instant.date instant.hour instant.minute instant.second instant.nanosecond 0 =
      some instant := by
  have hour := instant.hour_lt
  have minute := instant.minute_lt
  have minuteOfDay : (instant.hour * 60 + instant.minute : Int) - 0 =
      ((instant.hour * 60 + instant.minute : Nat) : Int) := by
    omega
  have shifted : ((instant.hour * 60 + instant.minute : Nat) % 1440 : Int).toNat =
      instant.hour * 60 + instant.minute := by
    omega
  have early : ¬ (((instant.hour * 60 + instant.minute : Nat) : Int) < 0) := by omega
  have late : ((instant.hour * 60 + instant.minute : Nat) : Int) < 1440 := by omega
  have hours : (instant.hour * 60 + instant.minute) / 60 = instant.hour := by omega
  have minutes : (instant.hour * 60 + instant.minute) % 60 = instant.minute := by omega
  simp only [Instant.ofLocal?, minuteOfDay, shifted, if_neg early, if_pos late, hours, minutes]
  exact dif_pos ⟨hour, minute, instant.second_le, instant.nanosecond_lt⟩

/-- After the text of the second a reader expects the fraction and the offset. -/
theorem readInstant_secondText (instant : Instant) {mark : Char}
    (ends : Text.isDigit mark = false) (rest : List Char) {nanosecond : Nat}
    {later : List Char} (fraction : readFraction (mark :: rest) = some (nanosecond, later))
    (offset : readOffset (Text.trimStart later) = some (0, [])) :
    readInstant (instant.secondText ++ mark :: rest) =
      Instant.ofLocal? instant.date instant.hour instant.minute instant.second nanosecond 0 := by
  have hour := instant.hour_lt
  have minute := instant.minute_lt
  have second := instant.second_le
  simp only [Instant.secondText, List.append_assoc, List.cons_append, readInstant,
    Option.bind_eq_bind]
  rw [readDate_text, Option.bind_some, readField_padded (by omega) (by decide), Option.bind_some,
    readMark_cons (by decide), Option.bind_some, readField_padded (by omega) (by decide),
    Option.bind_some, readMark_cons (by decide), Option.bind_some,
    readField_padded (by omega) ends, Option.bind_some, fraction, Option.bind_some, offset,
    Option.bind_some]
  exact if_pos ⟨rfl, hour, minute⟩

/-- The beginning of the second in which an instant lies. -/
def Instant.wholeSecond (instant : Instant) : Instant :=
  { instant with nanosecond := 0, nanosecond_lt := Nat.zero_lt_succ 999999999 }

/-- The bound of an instant is read as the beginning of its second. -/
theorem instant?_bound (instant : Instant) :
    instant? instant.bound = some instant.wholeSecond := by
  have fraction : readFraction ['+', '0', '0', ':', '0', '0'] =
      some (0, ['+', '0', '0', ':', '0', '0']) := rfl
  have offset : readOffset (Text.trimStart ['+', '0', '0', ':', '0', '0']) = some (0, []) := by
    decide
  rw [instant?, Instant.bound, String.toList_ofList,
    readInstant_secondText instant (by decide) _ fraction offset]
  exact ofLocal?_universal instant.wholeSecond

end Calendar

/-- The time of ingestion in a field can be read, and it lies in the second of the stamp or
later. -/
def Fields.IngestedSince (fields : Fields) (field : String) (stamp : Calendar.Instant) : Prop :=
  ∃ text time, fields.get? field = some (.string text) ∧ Calendar.instant? text = some time ∧
    time.isBefore stamp.wholeSecond = false

/-- A document whose time of ingestion was noted to the second counts as ingested since a stamp,
unless that second is earlier than the one of the stamp. -/
theorem Fields.ingestedSince_insert_bound_iff (fields : Fields) (time stamp : Calendar.Instant) :
    IngestedSince (insert timeField (.string time.bound) fields) timeField stamp ↔
      time.wholeSecond.isBefore stamp.wholeSecond = false := by
  have noted := get?_insert_self timeField (.string time.bound) fields
  constructor
  · rintro ⟨text, read, shown, legible, late⟩
    rw [noted, Option.some.injEq, Json.string.injEq] at shown
    rw [← shown, Calendar.instant?_bound, Option.some.injEq] at legible
    rwa [legible]
  · intro late
    exact ⟨time.bound, time.wholeSecond, noted, Calendar.instant?_bound time, late⟩

end LearningIndex
