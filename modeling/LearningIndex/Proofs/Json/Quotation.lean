import Mathlib.Tactic.SplitIfs
import LearningIndex.Json.Printer
import LearningIndex.Json.Reader

/-!
# Quoted strings

A string is written with its quotes, its backslashes and its control characters escaped, so no
character below U+0020 stands raw in the text, and reading the text undoes each escape.  This holds
of every string, and of whatever follows the closing quote.
-/

namespace LearningIndex
namespace Json

/-! ## What is written -/

theorem escape_cases (character : Char) :
    (∃ letter, escape character = ['\\', letter] ∧ 0x20 ≤ letter.toNat ∧ letter ≠ 'u' ∧
      escaped? letter = some character) ∨
    (character.toNat < 0x20 ∧ escape character =
      ['\\', 'u', '0', '0', Hexadecimal.digit (character.toNat / 16),
        Hexadecimal.digit (character.toNat % 16)]) ∨
    (0x20 ≤ character.toNat ∧ character ≠ '\x22' ∧ character ≠ '\\' ∧
      escape character = [character]) := by
  unfold escape
  split_ifs with quote backslash backspace tab line page carriage control
  · exact .inl ⟨'\x22', rfl, by decide, by decide, by rw [quote]; rfl⟩
  · exact .inl ⟨'\\', rfl, by decide, by decide, by rw [backslash]; rfl⟩
  · exact .inl ⟨'b', rfl, by decide, by decide, by rw [backspace]; rfl⟩
  · exact .inl ⟨'t', rfl, by decide, by decide, by rw [tab]; rfl⟩
  · exact .inl ⟨'n', rfl, by decide, by decide, by rw [line]; rfl⟩
  · exact .inl ⟨'f', rfl, by decide, by decide, by rw [page]; rfl⟩
  · exact .inl ⟨'r', rfl, by decide, by decide, by rw [carriage]; rfl⟩
  · exact .inr (.inl ⟨control, rfl⟩)
  · exact .inr (.inr ⟨by omega, quote, backslash, rfl⟩)

theorem visible_digit {value : Nat} (small : value < 16) :
    0x20 ≤ (Hexadecimal.digit value).toNat := by
  decide +revert

theorem visible_of_mem_escape {character written : Char} (member : written ∈ escape character) :
    0x20 ≤ written.toNat := by
  obtain ⟨letter, text, visible, -⟩ | ⟨control, text⟩ | ⟨visible, -, -, text⟩ :=
    escape_cases character
  · simp only [text, List.mem_cons, List.not_mem_nil, or_false] at member
    rcases member with rfl | rfl
    · decide
    · exact visible
  · have high := visible_digit (show character.toNat / 16 < 16 by omega)
    have low := visible_digit (show character.toNat % 16 < 16 by omega)
    simp only [text, List.mem_cons, List.not_mem_nil, or_false] at member
    rcases member with rfl | rfl | rfl | rfl | rfl | rfl
    all_goals first | decide | assumption
  · rw [text, List.mem_singleton] at member
    rwa [member]

theorem visible_of_mem_quote {text : String} {written : Char} (member : written ∈ quote text) :
    0x20 ≤ written.toNat := by
  simp only [quote, List.mem_cons, List.mem_append, List.mem_flatMap, List.not_mem_nil,
    or_false] at member
  rcases member with rfl | ⟨character, _, inside⟩ | rfl
  · decide
  · exact visible_of_mem_escape inside
  · decide

/-! ## What is read -/

theorem hexUnit?_control {value : Nat} (small : value < 0x20) :
    hexUnit? '0' '0' (Hexadecimal.digit (value / 16)) (Hexadecimal.digit (value % 16)) =
      some value := by
  decide +revert

theorem joinParts_unit {character : Char} (control : character.toNat < 0x20)
    (parts : List StringPart) :
    joinParts (.unit character.toNat :: parts) = (joinParts parts).map (character :: ·) := by
  have high : isHighSurrogate character.toNat = false := by
    rw [isHighSurrogate, decide_eq_false (by omega), Bool.false_and]
  have low : isLowSurrogate character.toNat = false := by
    rw [isLowSurrogate, decide_eq_false (by omega), Bool.false_and]
  rcases parts with _ | ⟨_ | _, parts⟩ <;> simp [joinParts, high, low]

/-- The text of a character is read as one part, which stands for the character. -/
theorem exists_part (character : Char) :
    ∃ part,
      (∀ read rest, readParts read (escape character ++ rest) = readParts (part :: read) rest) ∧
      ∀ parts, joinParts (part :: parts) = (joinParts parts).map (character :: ·) := by
  obtain ⟨letter, text, -, other, escaped⟩ | ⟨control, text⟩ | ⟨visible, quote, backslash, text⟩ :=
    escape_cases character
  · refine ⟨.plain character, fun read rest => ?_, fun parts => rfl⟩
    rw [text]
    simp [readParts, other, escaped]
  · refine ⟨.unit character.toNat, fun read rest => ?_, joinParts_unit control⟩
    simp [text, readParts, hexUnit?_control control]
  · refine ⟨.plain character, fun read rest => ?_, fun parts => rfl⟩
    have raw : ¬character.toNat < 0x20 := by omega
    simp [text, readParts, quote, backslash, raw]

/-- The parts come in reverse, in front of the ones read before. -/
theorem exists_parts (text : List Char) :
    ∃ parts, joinParts parts = some text ∧
      ∀ read rest, readParts read (text.flatMap escape ++ '\x22' :: rest) =
        some (parts.reverse ++ read, rest) := by
  induction text with
  | nil => exact ⟨[], rfl, fun read rest => by simp [readParts]⟩
  | cons character text ih =>
      obtain ⟨part, reads, joins⟩ := exists_part character
      obtain ⟨parts, joined, readsAll⟩ := ih
      refine ⟨part :: parts, by rw [joins, joined, Option.map_some], fun read rest => ?_⟩
      rw [List.flatMap_cons, List.append_assoc, reads, readsAll, List.reverse_cons,
        List.append_assoc, List.singleton_append]

/-- Reading gives back the string that was written, and what follows it. -/
theorem readString_quoted (text : String) (rest : List Char) :
    readString (text.toList.flatMap escape ++ '\x22' :: rest) = some (some text, rest) := by
  obtain ⟨parts, joined, reads⟩ := exists_parts text.toList
  simp [readString, reads, joined]

end Json
end LearningIndex
