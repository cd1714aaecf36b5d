import LearningIndex.Text.Cleaning
import Mathlib.Data.String.Basic

/-!
# The words of a cleaned text

Cleaning keeps the letters and numbers of a text in their order and leaves nothing else but spaces
between them.  White space is no part of a word, so that it can be told from the words, and no
character becomes longer.
-/

namespace LearningIndex
namespace Text

theorem exists_range_of_inRanges {code : Nat} {ranges : List (Nat × Nat)}
    (inside : inRanges code ranges) :
    ∃ range ∈ ranges, code ∈ List.range' range.1 (range.2 + 1 - range.1) := by
  induction ranges with
  | nil => simp [inRanges] at inside
  | cons range rest ih =>
      obtain ⟨low, high⟩ := range
      by_cases here : low ≤ code ∧ code ≤ high
      · exact ⟨(low, high), List.mem_cons_self, List.mem_range'_1.mpr (by dsimp only; omega)⟩
      · have later : inRanges code rest := by
          rw [inRanges] at inside
          grind
        obtain ⟨range, member, found⟩ := ih later
        exact ⟨range, List.mem_cons_of_mem _ member, found⟩

theorem outside_of_mem_blankRanges : ∀ range ∈ blankRanges,
    ∀ code ∈ List.range' range.1 (range.2 + 1 - range.1),
      inRanges code letterRanges = false ∧ inRanges code numeralRanges = false := by
  decide +kernel

theorem isWordPart_of_isBlank {character : Char} (blank : isBlank character) :
    isWordPart character = false := by
  obtain ⟨range, member, inside⟩ := exists_range_of_inRanges blank
  obtain ⟨no_letter, no_numeral⟩ := outside_of_mem_blankRanges range member _ inside
  rw [isWordPart, isLetter, isNumeral, no_letter, no_numeral]
  rfl

/-! ## What cleaning keeps -/

theorem filter_trimStart {keep : Char → Bool}
    (visible : ∀ character, isBlank character → keep character = false) (text : List Char) :
    (trimStart text).filter keep = text.filter keep := by
  induction text with
  | nil => rfl
  | cons character rest ih =>
      rw [trimStart, List.dropWhile_cons]
      split
      · rename_i blank
        rw [List.filter_cons_of_neg (by simp [visible character blank])]
        exact ih
      · rfl

theorem filter_trim {keep : Char → Bool}
    (visible : ∀ character, isBlank character → keep character = false) (text : List Char) :
    (trim text).filter keep = text.filter keep := by
  rw [trim, List.filter_reverse, filter_trimStart visible, List.filter_reverse,
    List.reverse_reverse, filter_trimStart visible]

theorem filter_squeezeFrom {keep : Char → Bool}
    (visible : ∀ character, isBlank character → keep character = false) (within : Bool)
    (text : List Char) : (squeezeFrom within text).filter keep = text.filter keep := by
  have space : keep ' ' = false := visible ' ' (by decide)
  induction text generalizing within with
  | nil => rfl
  | cons character rest ih =>
      rw [squeezeFrom]
      split
      · rename_i blank
        have hidden := visible character blank
        split <;> simp [hidden, space, ih]
      · rw [List.filter_cons, List.filter_cons, ih]

/-- The letters and numbers of a cleaned text are those of the text, in the same order. -/
theorem filter_clean (text : List Char) :
    (clean text).filter isWordPart = text.filter isWordPart := by
  have visible (character : Char) := @isWordPart_of_isBlank character
  rw [clean, filter_trim visible, squeeze, filter_squeezeFrom visible, dropSymbols,
    List.filter_filter]
  congr 1
  funext character
  cases isWordPart character <;> simp

/-! ## What cleaning leaves -/

theorem mem_squeezeFrom {within : Bool} {text : List Char} {character : Char}
    (member : character ∈ squeezeFrom within text) :
    character = ' ' ∨ character ∈ text ∧ isBlank character = false := by
  induction text generalizing within with
  | nil => simp [squeezeFrom] at member
  | cons first rest ih => grind [squeezeFrom]

theorem trimStart_sublist (text : List Char) : (trimStart text).Sublist text :=
  List.dropWhile_sublist isBlank

theorem trim_sublist (text : List Char) : (trim text).Sublist text := by
  have start := (trimStart_sublist (trimStart text).reverse).reverse
  rw [List.reverse_reverse] at start
  exact start.trans (trimStart_sublist text)

/-- A character of a cleaned text is a space or belongs to a word. -/
theorem mem_clean {text : List Char} {character : Char} (member : character ∈ clean text) :
    character = ' ' ∨ isWordPart character := by
  rcases mem_squeezeFrom ((trim_sublist _).mem member) with space | ⟨kept, visible⟩
  · exact .inl space
  · have selected := List.of_mem_filter kept
    rw [visible, Bool.or_false] at selected
    exact .inr selected

theorem filter_ne_space_clean (text : List Char) :
    (clean text).filter (· ≠ ' ') = text.filter isWordPart := by
  rw [← filter_clean]
  refine List.filter_congr fun character member => ?_
  have space : isWordPart ' ' = false := isWordPart_of_isBlank (by decide)
  rcases mem_clean member with rfl | word
  · simp [space]
  · have other : character ≠ ' ' := by
      rintro rfl
      simp [space] at word
    simp [other, word]

/-! ## How long a cleaned text is -/

theorem utf8Len_squeezeFrom_le (within : Bool) (text : List Char) :
    String.utf8Len (squeezeFrom within text) ≤ String.utf8Len text := by
  induction text generalizing within with
  | nil => rfl
  | cons character rest ih =>
      have size_pos := character.utf8Size_pos
      have inside := ih true
      have outside := ih false
      rw [squeezeFrom, String.utf8Len_cons]
      split
      · split
        · omega
        · rw [String.utf8Len_cons, show ' '.utf8Size = 1 from rfl]
          omega
      · rw [String.utf8Len_cons]
        omega

theorem utf8Len_clean_le (text : List Char) :
    String.utf8Len (clean text) ≤ String.utf8Len (dropSymbols text) :=
  (String.utf8Len_le_of_sublist (trim_sublist _)).trans (utf8Len_squeezeFrom_le false _)

end Text
end LearningIndex
