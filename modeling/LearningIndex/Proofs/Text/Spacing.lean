import LearningIndex.Proofs.Bytes.Encoding
import LearningIndex.Proofs.Text.Words

/-!
# Words and single spaces

A cleaned text is the words of the text with single spaces between them.  The words are the runs
that white space leaves once everything else that is no letter or number is deleted, so deleting a
symbol may join letters, and white space around a symbol is one gap.  The order in which symbols are
deleted does not matter.
-/

namespace LearningIndex

namespace Utf8

theorem length_encodeChar (character : Char) :
    (encodeChar character).length = character.utf8Size := by
  rw [utf8Size_eq, encodeChar]
  split_ifs <;> rfl

theorem length_encode (text : List Char) : (encode text).length = String.utf8Len text := by
  induction text with
  | nil => rfl
  | cons character text ih =>
      rw [encode_cons, List.length_append, length_encodeChar, ih, String.utf8Len_cons, Nat.add_comm]

end Utf8

namespace Text

/-! ## Runs and words -/

/-- The runs between the white space of a text, those without characters left out. -/
def runs (text : List Char) : List (List Char) :=
  (text.splitOnP isBlank).filter (· ≠ [])

/-- The words of a text: its runs once everything is deleted that is neither a letter nor a number
nor white space. -/
def words (text : List Char) : List (List Char) :=
  runs (dropSymbols text)

/-- Some words with single spaces between them. -/
def spaced (words : List (List Char)) : List Char :=
  [' '].intercalate words

/-- Two cleaned texts with a space between them, if neither of them is empty. -/
def beside (first second : List Char) : List Char :=
  if first = [] then second else if second = [] then first else first ++ ' ' :: second

theorem runs_append_blank {separator : Char} (blank : isBlank separator)
    (first second : List Char) :
    runs (first ++ separator :: second) = runs first ++ runs second := by
  rw [runs, List.splitOnP_append_cons first second blank, List.filter_append]
  rfl

@[simp]
theorem runs_nil : runs [] = [] := by
  simp [runs, List.splitOnP_nil]

theorem runs_cons_blank {separator : Char} (blank : isBlank separator) (text : List Char) :
    runs (separator :: text) = runs text := by
  simpa using runs_append_blank blank [] text

theorem runs_of_visible {run : List Char} (filled : run ≠ [])
    (visible : ∀ character ∈ run, isBlank character = false) : runs run = [run] := by
  rw [runs, List.splitOnP_eq_singleton visible]
  simp [filled]

theorem runs_blank_append {gap : List Char} (blank : ∀ character ∈ gap, isBlank character)
    (text : List Char) : runs (gap ++ text) = runs text := by
  induction gap with
  | nil => rfl
  | cons separator gap ih =>
      obtain ⟨first, rest⟩ := List.forall_mem_cons.mp blank
      rw [List.cons_append, runs_cons_blank first, ih rest]

theorem exists_run (text : List Char) :
    ∃ run rest, text = run ++ rest ∧ (∀ character ∈ run, isBlank character = false) ∧
      (rest = [] ∨ ∃ separator later, rest = separator :: later ∧ isBlank separator) := by
  refine ⟨text.takeWhile (!isBlank ·), text.dropWhile (!isBlank ·),
    (List.takeWhile_append_dropWhile).symm, fun character member => ?_, ?_⟩
  · simpa using List.mem_takeWhile_imp member
  · cases rest : text.dropWhile (!isBlank ·) with
    | nil => exact .inl rfl
    | cons separator later =>
        have stopped := List.head?_dropWhile_not (!isBlank ·) text
        rw [rest, List.head?_cons] at stopped
        exact .inr ⟨separator, later, rfl, by simpa using stopped⟩

/-- A text is empty, begins with white space, is one run, or is a run before white space and
more. -/
@[elab_as_elim]
theorem induction_on_runs {motive : List Char → Prop} (empty : motive [])
    (gap : ∀ separator text, isBlank separator → motive text → motive (separator :: text))
    (last : ∀ run, run ≠ [] → (∀ character ∈ run, isBlank character = false) → motive run)
    (run : ∀ run separator text, run ≠ [] → (∀ character ∈ run, isBlank character = false) →
      isBlank separator → motive text → motive (run ++ separator :: text)) (text : List Char) :
    motive text := by
  induction size : text.length using Nat.strong_induction_on generalizing text with
  | _ count ih =>
      obtain ⟨first, rest, rfl, visible, ending⟩ := exists_run text
      rcases ending with rfl | ⟨separator, later, rfl, blank⟩
      · rw [List.append_nil]
        by_cases filled : first = []
        · exact filled ▸ empty
        · exact last first filled visible
      · rw [List.length_append, List.length_cons] at size
        have after := ih later.length (by omega) later rfl
        by_cases filled : first = []
        · rw [filled]
          exact gap separator later blank after
        · exact run first separator later filled visible blank after

theorem mem_runs {text part : List Char} (member : part ∈ runs text) :
    part ≠ [] ∧ ∀ character ∈ part, character ∈ text ∧ isBlank character = false := by
  induction text using induction_on_runs with
  | empty => simp at member
  | gap separator text blank ih =>
      rw [runs_cons_blank blank] at member
      obtain ⟨filled, inside⟩ := ih member
      exact ⟨filled, fun character own =>
        (inside character own).imp_left (List.mem_cons_of_mem separator)⟩
  | last run filled visible =>
      rw [runs_of_visible filled visible, List.mem_singleton] at member
      subst member
      exact ⟨filled, fun character own => ⟨own, visible character own⟩⟩
  | run run separator text filled visible blank ih =>
      rw [runs_append_blank blank, runs_of_visible filled visible, List.singleton_append,
        List.mem_cons] at member
      rcases member with rfl | later
      · exact ⟨filled, fun character own =>
          ⟨List.mem_append_left _ own, visible character own⟩⟩
      · obtain ⟨filled', inside⟩ := ih later
        refine ⟨filled', fun character own => (inside character own).imp_left fun within => ?_⟩
        exact List.mem_append_right _ (List.mem_cons_of_mem separator within)

theorem mem_words {text word : List Char} (member : word ∈ words text) :
    word ≠ [] ∧ ∀ character ∈ word, isWordPart character := by
  obtain ⟨filled, inside⟩ := mem_runs member
  refine ⟨filled, fun character part => ?_⟩
  obtain ⟨kept, visible⟩ := inside character part
  have selected := List.of_mem_filter kept
  rwa [visible, Bool.or_false] at selected

theorem isBlank_of_isWordPart {character : Char} (part : isWordPart character) :
    isBlank character = false := by
  by_contra blank
  rw [isWordPart_of_isBlank (Bool.eq_true_of_not_eq_false blank)] at part
  cases part

/-! ## Words with spaces between them -/

@[simp]
theorem spaced_nil : spaced [] = [] :=
  List.intercalate_nil

@[simp]
theorem spaced_singleton (word : List Char) : spaced [word] = word :=
  List.intercalate_singleton

theorem spaced_cons_cons (word next : List Char) (rest : List (List Char)) :
    spaced (word :: next :: rest) = word ++ ' ' :: spaced (next :: rest) := by
  simp [spaced, List.intercalate_cons_cons]

section Spaced

variable {phrase : List (List Char)}

theorem spaced_eq_nil_iff (filled : ∀ word ∈ phrase, word ≠ []) :
    spaced phrase = [] ↔ phrase = [] := by
  cases phrase with
  | nil => simp
  | cons word rest =>
      have first := filled word List.mem_cons_self
      cases rest with
      | nil => simpa using first
      | cons next rest => simp [spaced_cons_cons]

theorem spaced_cons (filled : ∀ word ∈ phrase, word ≠ []) {word : List Char} (first : word ≠ []) :
    spaced (word :: phrase) = beside word (spaced phrase) := by
  have blank := spaced_eq_nil_iff filled
  cases phrase with
  | nil => simp [beside]
  | cons next rest =>
      rw [spaced_cons_cons, beside, if_neg first, if_neg]
      exact mt blank.mp (List.cons_ne_nil next rest)

theorem spaced_append {other : List (List Char)} (filled : ∀ word ∈ phrase, word ≠ [])
    (filled' : ∀ word ∈ other, word ≠ []) :
    spaced (phrase ++ other) = beside (spaced phrase) (spaced other) := by
  induction phrase with
  | nil => simp [beside]
  | cons word phrase ih =>
      obtain ⟨first, rest⟩ := List.forall_mem_cons.mp filled
      have together : ∀ word ∈ phrase ++ other, word ≠ [] := by
        intro word member
        exact (List.mem_append.mp member).elim (rest word) (filled' word)
      rw [List.cons_append, spaced_cons together first, ih rest, spaced_cons rest first]
      unfold beside
      split_ifs <;> simp_all

/-- Every space between words stands between two of them. -/
theorem exists_parts_of_spaced (solid : ∀ word ∈ phrase, ' ' ∉ word) {before after : List Char}
    (apart : spaced phrase = before ++ ' ' :: after) :
    ∃ first second, phrase = first ++ second ∧ first ≠ [] ∧ second ≠ [] ∧
      before = spaced first ∧ after = spaced second := by
  induction phrase generalizing before with
  | nil => simp at apart
  | cons word phrase ih =>
      obtain ⟨own, others⟩ := List.forall_mem_cons.mp solid
      cases phrase with
      | nil =>
          rw [spaced_singleton] at apart
          exact absurd (apart ▸ by simp) own
      | cons next rest =>
          rw [spaced_cons_cons] at apart
          rcases List.append_eq_append_iff.mp apart with ⟨inside, rfl, tail⟩ | ⟨inside, rfl, tail⟩
          · cases inside with
            | nil =>
                refine ⟨[word], next :: rest, rfl, by simp, by simp, by simp, ?_⟩
                simpa using tail.symm
            | cons space inside =>
                obtain ⟨rfl, later⟩ := List.cons.inj tail
                obtain ⟨first, second, split, left, right, rfl, rfl⟩ := ih others later
                obtain ⟨front, first, rfl⟩ := List.exists_cons_of_ne_nil left
                exact ⟨word :: front :: first, second, by rw [split]; rfl, by simp, right,
                  (spaced_cons_cons word front first).symm, rfl⟩
          · cases inside with
            | nil =>
                refine ⟨[before], next :: rest, by simp, by simp, by simp, by simp, ?_⟩
                simpa using tail
            | cons space inside =>
                obtain ⟨rfl, -⟩ := List.cons.inj tail
                exact absurd (by simp) own

theorem exists_head_spaced (named : phrase ≠ []) (filled : ∀ word ∈ phrase, word ≠ []) :
    ∃ character rest, spaced phrase = character :: rest ∧ ∃ word ∈ phrase, character ∈ word := by
  obtain ⟨word, others, rfl⟩ := List.exists_cons_of_ne_nil named
  obtain ⟨character, letters, rfl⟩ :=
    List.exists_cons_of_ne_nil (filled word List.mem_cons_self)
  refine ⟨character, ?_⟩
  cases others with
  | nil => exact ⟨letters, by simp, _, List.mem_cons_self, List.mem_cons_self⟩
  | cons next others =>
      exact ⟨letters ++ ' ' :: spaced (next :: others), by simp [spaced_cons_cons], _,
        List.mem_cons_self, List.mem_cons_self⟩

theorem exists_last_spaced (named : phrase ≠ []) (filled : ∀ word ∈ phrase, word ≠ []) :
    ∃ rest character, spaced phrase = rest ++ [character] ∧ ∃ word ∈ phrase, character ∈ word := by
  induction phrase with
  | nil => exact absurd rfl named
  | cons word phrase ih =>
      obtain ⟨first, rest⟩ := List.forall_mem_cons.mp filled
      cases phrase with
      | nil =>
          obtain ⟨letters, character, rfl⟩ := List.eq_nil_or_concat word |>.resolve_left first
          exact ⟨letters, character, by simp, _, List.mem_cons_self, by simp⟩
      | cons next others =>
          obtain ⟨letters, character, ending, word', member, inside⟩ := ih (by simp) rest
          refine ⟨word ++ ' ' :: letters, character, ?_, word', List.mem_cons_of_mem word member,
            inside⟩
          rw [spaced_cons_cons, ending, List.append_assoc, List.cons_append]

theorem runs_spaced (filled : ∀ word ∈ phrase, word ≠ [])
    (visible : ∀ word ∈ phrase, ∀ character ∈ word, isBlank character = false) :
    runs (spaced phrase) = phrase := by
  induction phrase with
  | nil => simp
  | cons word phrase ih =>
      obtain ⟨first, rest⟩ := List.forall_mem_cons.mp filled
      obtain ⟨first', rest'⟩ := List.forall_mem_cons.mp visible
      have single := runs_of_visible first first'
      cases phrase with
      | nil => rw [spaced_singleton, single]
      | cons next others =>
          rw [spaced_cons_cons, runs_append_blank (by decide), single, ih rest rest']
          rfl

end Spaced

/-! ## Squeezing and trimming -/

/-- A text without the white space at its end. -/
def trimEnd (text : List Char) : List Char :=
  (trimStart text.reverse).reverse

theorem trimEnd_append (first second : List Char) :
    trimEnd (first ++ second) =
      if trimEnd second = [] then trimEnd first else first ++ trimEnd second := by
  simp only [trimEnd, trimStart, List.reverse_append, List.dropWhile_append, List.isEmpty_iff,
    List.reverse_eq_nil_iff]
  split_ifs <;> simp

theorem trimEnd_of_visible {run : List Char}
    (visible : ∀ character ∈ run, isBlank character = false) : trimEnd run = run := by
  induction run using List.reverseRecOn with
  | nil => rfl
  | append_singleton run character _ =>
      have last := visible character (by simp)
      simp [trimEnd, trimStart, last]

theorem trimEnd_append_space {run : List Char} (filled : run ≠ [])
    (visible : ∀ character ∈ run, isBlank character = false) (rest : List Char) :
    trimEnd (run ++ ' ' :: rest) = beside run (trimEnd rest) := by
  have space : trimEnd (' ' :: rest) =
      if trimEnd rest = [] then [] else ' ' :: trimEnd rest := trimEnd_append [' '] rest
  rw [trimEnd_append, space, trimEnd_of_visible visible, beside, if_neg filled]
  by_cases ended : trimEnd rest = [] <;> simp [ended]

theorem squeezeFrom_append_of_visible {run : List Char} (filled : run ≠ [])
    (visible : ∀ character ∈ run, isBlank character = false) (within : Bool) (rest : List Char) :
    squeezeFrom within (run ++ rest) = run ++ squeezeFrom false rest := by
  induction run generalizing within with
  | nil => exact absurd rfl filled
  | cons character run ih =>
      obtain ⟨first, others⟩ := List.forall_mem_cons.mp visible
      rw [List.cons_append, squeezeFrom, if_neg (by simp [first])]
      by_cases last : run = []
      · simp [last]
      · rw [ih last others, List.cons_append]

theorem trimStart_squeezeFrom_true (text : List Char) :
    trimStart (squeezeFrom true text) = squeezeFrom true text := by
  induction text with
  | nil => rfl
  | cons character rest ih =>
      rw [squeezeFrom]
      by_cases blank : isBlank character
      · rw [if_pos blank, if_pos rfl, ih]
      · rw [if_neg blank, trimStart, List.dropWhile_cons_of_neg blank]

theorem trimStart_squeeze (text : List Char) :
    trimStart (squeeze text) = squeezeFrom true text := by
  cases text with
  | nil => rfl
  | cons character rest =>
      rw [squeeze, squeezeFrom, squeezeFrom]
      by_cases blank : isBlank character
      · rw [if_pos blank, if_pos blank, if_neg Bool.false_ne_true, if_pos rfl, trimStart,
          List.dropWhile_cons_of_pos (by decide)]
        exact trimStart_squeezeFrom_true rest
      · rw [if_neg blank, if_neg blank, trimStart, List.dropWhile_cons_of_neg blank]

/-- Squeezed after white space and trimmed at its end, a text is its runs with single spaces between
them. -/
theorem trimEnd_squeezeFrom_true (text : List Char) :
    trimEnd (squeezeFrom true text) = spaced (runs text) := by
  induction text using induction_on_runs with
  | empty => simp [squeezeFrom, trimEnd, trimStart]
  | gap separator text blank ih =>
      rw [squeezeFrom, if_pos blank, if_pos rfl, runs_cons_blank blank, ih]
  | last run filled visible =>
      have squeezed := squeezeFrom_append_of_visible filled visible true []
      rw [squeezeFrom, List.append_nil] at squeezed
      rw [squeezed, trimEnd_of_visible visible, runs_of_visible filled visible, spaced_singleton]
  | run run separator text filled visible blank ih =>
      rw [squeezeFrom_append_of_visible filled visible, squeezeFrom, if_pos blank,
        if_neg Bool.false_ne_true, trimEnd_append_space filled visible, ih, runs_append_blank blank,
        runs_of_visible filled visible, List.singleton_append,
        spaced_cons (fun word member => (mem_runs member).1) filled]

/-! ## Cleaned texts -/

theorem clean_eq_spaced_words (text : List Char) : clean text = spaced (words text) := by
  rw [clean, trim, trimStart_squeeze]
  exact trimEnd_squeezeFrom_true (dropSymbols text)

theorem words_clean (text : List Char) : words (clean text) = words text := by
  have kept : dropSymbols (clean text) = clean text := by
    apply List.filter_eq_self.mpr
    intro character member
    rcases mem_clean member with rfl | part
    · decide
    · rw [part, Bool.true_or]
  rw [words, kept, clean_eq_spaced_words]
  apply runs_spaced fun word member => (mem_words member).1
  intro word member character inside
  exact isBlank_of_isWordPart ((mem_words member).2 character inside)

theorem words_append_gap {gap : List Char} (filled : gap ≠ [])
    (blank : ∀ character ∈ gap, isBlank character) (first second : List Char) :
    words (first ++ gap ++ second) = words first ++ words second := by
  have kept : dropSymbols gap = gap := by
    apply List.filter_eq_self.mpr
    intro character member
    rw [blank character member, Bool.or_true]
  obtain ⟨separator, rest, rfl⟩ := List.exists_cons_of_ne_nil filled
  obtain ⟨front, later⟩ := List.forall_mem_cons.mp blank
  have parts : dropSymbols (first ++ separator :: rest ++ second) =
      dropSymbols first ++ separator :: (rest ++ dropSymbols second) := by
    rw [dropSymbols, List.filter_append, List.filter_append]
    change dropSymbols first ++ dropSymbols (separator :: rest) ++ dropSymbols second = _
    rw [kept, List.append_assoc, List.cons_append]
  rw [words, parts, runs_append_blank front, runs_blank_append later]
  rfl

theorem clean_filter {symbol : Char → Bool} (apart : ∀ character, symbol character →
    isWordPart character = false ∧ isBlank character = false) (text : List Char) :
    clean (text.filter (!symbol ·)) = clean text := by
  have same : dropSymbols (text.filter (!symbol ·)) = dropSymbols text := by
    rw [dropSymbols, dropSymbols, List.filter_filter]
    congr 1
    funext character
    cases deleted : symbol character with
    | false => simp
    | true =>
        obtain ⟨no_part, visible⟩ := apart character deleted
        simp [no_part, visible]
  rw [clean, clean, same]

/-- A cleaned text is the words of the text with single spaces between them, also if punctuation is
deleted before.  So it holds letters and numbers and, between two of them, single spaces; it is not
longer than the text; it is clean itself; and texts around white space become their cleaned forms
around one space. -/
theorem clean_spaces_words (text : List Char) :
    clean text = spaced (words text) ∧
      (∀ isPunctuation : Char → Bool, (∀ character, isPunctuation character →
        isWordPart character = false ∧ isBlank character = false) →
          clean (text.filter (!isPunctuation ·)) = clean text) ∧
      (∀ character ∈ clean text, character = ' ' ∨ isLetter character ∨ isNumeral character) ∧
      (∀ before after, clean text = before ++ ' ' :: after →
        ∃ earlier last next later, before = earlier ++ [last] ∧ after = next :: later ∧
          isWordPart last ∧ isWordPart next) ∧
      (Utf8.encode (clean text)).length ≤ (Utf8.encode text).length ∧
      clean (clean text) = clean text ∧
      ∀ gap other, gap ≠ [] → (∀ character ∈ gap, isBlank character) →
        clean (text ++ gap ++ other) = beside (clean text) (clean other) := by
  refine ⟨clean_eq_spaced_words text, fun isPunctuation apart => clean_filter apart text,
    fun character member => ?_, fun before after apart => ?_, ?_, ?_,
    fun gap other filled blank => ?_⟩
  · exact (mem_clean member).imp_right fun part => by simpa [isWordPart] using part
  · have named {phrase : List (List Char)} (inside : ∀ word ∈ phrase, word ∈ words text) :
        ∀ word ∈ phrase, word ≠ [] := fun word member => (mem_words (inside word member)).1
    have solid : ∀ word ∈ words text, ' ' ∉ word := by
      intro word member space
      have part := (mem_words member).2 ' ' space
      rw [isWordPart_of_isBlank (by decide)] at part
      cases part
    rw [clean_eq_spaced_words] at apart
    obtain ⟨first, second, split, left, right, rfl, rfl⟩ := exists_parts_of_spaced solid apart
    have inFirst : ∀ word ∈ first, word ∈ words text :=
      fun word member => split ▸ List.mem_append_left second member
    have inSecond : ∀ word ∈ second, word ∈ words text :=
      fun word member => split ▸ List.mem_append_right first member
    obtain ⟨earlier, last, ending, word, member, inside⟩ :=
      exists_last_spaced left (named inFirst)
    obtain ⟨next, later, start, word', member', inside'⟩ :=
      exists_head_spaced right (named inSecond)
    exact ⟨earlier, last, next, later, ending, start,
      (mem_words (inFirst word member)).2 last inside,
      (mem_words (inSecond word' member')).2 next inside'⟩
  · rw [Utf8.length_encode, Utf8.length_encode]
    exact (utf8Len_clean_le text).trans (String.utf8Len_le_of_sublist List.filter_sublist)
  · rw [clean_eq_spaced_words (clean text), words_clean, ← clean_eq_spaced_words]
  · rw [clean_eq_spaced_words, words_append_gap filled blank, spaced_append,
      ← clean_eq_spaced_words, ← clean_eq_spaced_words]
    · exact fun word member => (mem_words member).1
    · exact fun word member => (mem_words member).1

namespace Sample

/-- A dash that stands alone, symbols inside words, and several kinds of white space. -/
def scattered : List Char :=
  ['\t', '¿', 'Q', 'u', 'é', '_', 's', ' ', '—', '\u2003', '東', '!', '\n']

/-- The words are told from the symbols in all alphabets, and no class of symbols disturbs them. -/
theorem clean_spaces_scattered :
    clean scattered = ['Q', 'u', 'é', 's', ' ', '東'] ∧
      clean (scattered.filter (· ≠ '—')) = ['Q', 'u', 'é', 's', ' ', '東'] ∧
      clean (scattered ++ [' ', '\t'] ++ scattered) =
        ['Q', 'u', 'é', 's', ' ', '東', ' ', 'Q', 'u', 'é', 's', ' ', '東'] := by
  have cleaned : clean scattered = ['Q', 'u', 'é', 's', ' ', '東'] := by decide +kernel
  obtain ⟨-, passes, -, -, -, -, joins⟩ := clean_spaces_words scattered
  have dash : ∀ character, (character == '—') = true →
      isWordPart character = false ∧ isBlank character = false := by
    intro character same
    obtain rfl := eq_of_beq same
    decide +kernel
  refine ⟨cleaned, ?_, ?_⟩
  · rw [← cleaned, ← passes (· == '—') dash]
    rfl
  · have blank : ∀ character ∈ [' ', '\t'], isBlank character = true :=
      List.forall_mem_cons.mpr ⟨rfl, List.forall_mem_singleton.mpr rfl⟩
    rw [joins [' ', '\t'] scattered (List.cons_ne_nil _ _) blank, cleaned]
    rfl

end Sample

end Text
end LearningIndex
