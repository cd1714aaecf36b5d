import LearningIndex.Proofs.Bytes.Encoding
import LearningIndex.Proofs.Bytes.Positions

/-!
# Packing characters

The bytes of a text are cut as its characters are packed: each piece takes as many whole characters
as fit into the limit, and a character that is wider than the limit has a piece of its own.  No
other division of the text into such parts has fewer parts, since each of its parts ends no later
than the run that began no earlier.
-/

namespace LearningIndex
namespace Chunk

open Utf8 (encode encodeChar)

/-! ## Runs of characters -/

/-- The characters may be one part of a divided text: they fit into the limit together, or there is
only one of them. -/
def Fits (limit : Nat) (part : List Char) : Prop :=
  (encode part).length ≤ limit ∨ ∃ character, part = [character]

/-- The run is the longest one at the front of the text that fits into the limit, or the first
character of the text if that is wider than the limit. -/
structure IsNextRun (limit : Nat) (text run : List Char) : Prop where
  front : run <+: text
  filled : run ≠ []
  greedy : ((encode run).length ≤ limit ∧
      ∀ other, other <+: text → (encode other).length ≤ limit → other.length ≤ run.length) ∨
    ∃ character, run = [character] ∧ limit < (encodeChar character).length

/-- The text is packed into the runs, one after the other. -/
inductive Packs (limit : Nat) : List Char → List (List Char) → Prop
  | nil : Packs limit [] []
  | cons {run later : List Char} {runs : List (List Char)} :
      IsNextRun limit (run ++ later) run → Packs limit later runs →
      Packs limit (run ++ later) (run :: runs)

theorem length_encodeChar_pos (character : Char) : 0 < (encodeChar character).length := by
  obtain ⟨lead, others, bytes, -⟩ := Utf8.exists_isCharacter character
  simp [bytes]

theorem length_encode_le_of_prefix {part text : List Char} (front : part <+: text) :
    (encode part).length ≤ (encode text).length := by
  obtain ⟨later, rfl⟩ := front
  simp

theorem Fits.of_append {limit : Nat} {before part : List Char} (fits : Fits limit (before ++ part))
    (filled : part ≠ []) : Fits limit part := by
  rcases fits with within | ⟨character, single⟩
  · left
    rw [Utf8.encode_append, List.length_append] at within
    omega
  · right
    rcases List.append_eq_singleton_iff.mp single with ⟨-, only⟩ | ⟨-, none⟩
    · exact ⟨character, only⟩
    · exact absurd none filled

/-- No part at the front of the text that may stand for itself is longer than the next run. -/
theorem IsNextRun.length_le {limit : Nat} {text run part : List Char}
    (next : IsNextRun limit text run) (front : part <+: text) (fits : Fits limit part) :
    part.length ≤ run.length := by
  have run_pos := List.length_pos_iff.mpr next.filled
  rcases fits with within | ⟨character, rfl⟩
  · rcases next.greedy with ⟨-, longest⟩ | ⟨character, rfl, wide⟩
    · exact longest part front within
    · -- A part with this character would not fit, and there is no other part.
      cases part with
      | nil => simp
      | cons first rest =>
          have same : first = character := by
            obtain ⟨later, text_eq⟩ := front
            obtain ⟨later', text_eq'⟩ := next.front
            rw [← text_eq'] at text_eq
            simpa using (List.cons.inj text_eq).1
          rw [Utf8.encode_cons, same, List.length_append] at within
          omega
  · exact run_pos

/-! ## No division has fewer parts -/

theorem Packs.eq_nil {limit : Nat} {runs : List (List Char)} (packs : Packs limit [] runs) :
    runs = [] := by
  generalize blank : [] = text at packs
  cases packs with
  | nil => rfl
  | cons next later => exact absurd (List.append_eq_nil_iff.mp blank.symm).1 next.filled

/-- Parts that together are some characters and then the packed text are not fewer than the runs. -/
theorem Packs.length_le {limit : Nat} {text : List Char} {runs parts : List (List Char)}
    (packs : Packs limit text runs) {extra : List Char} (joined : parts.flatten = extra ++ text)
    (fits : ∀ part ∈ parts, Fits limit part) : runs.length ≤ parts.length := by
  induction parts generalizing extra text runs with
  | nil =>
      obtain ⟨-, rfl⟩ : extra = [] ∧ text = [] := by simpa using joined.symm
      simp [packs.eq_nil]
  | cons part parts ih =>
      obtain ⟨part_fits, parts_fit⟩ := List.forall_mem_cons.mp fits
      rw [List.flatten_cons] at joined
      rcases List.append_eq_append_iff.mp joined with
        ⟨extra', rfl, later_eq⟩ | ⟨inside, rfl, text_eq⟩
      · -- The part ends before the text begins.
        exact (ih packs later_eq parts_fit).trans (Nat.le_succ _)
      · cases packs with
        | nil => simp
        | @cons run later runs next packs =>
            -- The part ends no later than the run, so the others are beyond the run together.
            have front : inside <+: run ++ later := ⟨parts.flatten, text_eq.symm⟩
            have shorter : inside.length ≤ run.length := by
              by_cases filled : inside = []
              · simp [filled]
              · exact next.length_le front (part_fits.of_append filled)
            obtain ⟨more, rfl⟩ :=
              List.prefix_of_prefix_length_le front (List.prefix_append run later) shorter
            rw [List.append_assoc, List.append_cancel_left_eq] at text_eq
            exact Nat.succ_le_succ (ih packs text_eq.symm parts_fit)

theorem IsNextRun.fits {limit : Nat} {text run : List Char} (next : IsNextRun limit text run) :
    Fits limit run :=
  next.greedy.imp And.left fun ⟨character, single, _⟩ => ⟨character, single⟩

theorem IsNextRun.unique {limit : Nat} {text run other : List Char}
    (next : IsNextRun limit text run) (next' : IsNextRun limit text other) : run = other := by
  have le := next'.length_le next.front next.fits
  have ge := next.length_le next'.front next'.fits
  exact (List.prefix_of_prefix_length_le next.front next'.front le).eq_of_length (le.antisymm ge)

theorem Packs.unique {limit : Nat} {text : List Char} {runs others : List (List Char)}
    (packs : Packs limit text runs) (packs' : Packs limit text others) : runs = others := by
  induction packs generalizing others with
  | nil => exact packs'.eq_nil.symm
  | @cons run later runs next packs ih =>
      generalize same : run ++ later = text at packs'
      cases packs' with
      | nil => exact absurd (List.append_eq_nil_iff.mp same).1 next.filled
      | @cons run' later' runs' next' packs' =>
          obtain rfl := next.unique (same ▸ next')
          obtain rfl := List.append_cancel_left same
          rw [ih packs']

/-! ## Where the first piece ends -/

theorem exists_crossing {limit : Nat} {text : List Char} (long : limit < (encode text).length) :
    ∃ before next after, text = before ++ next :: after ∧ (encode before).length ≤ limit ∧
      limit < (encode before).length + (encodeChar next).length := by
  induction text generalizing limit with
  | nil => simp at long
  | cons character text ih =>
      by_cases wide : limit < (encodeChar character).length
      · exact ⟨[], character, text, rfl, by simp, by simpa using wide⟩
      · rw [Utf8.encode_cons, List.length_append] at long
        obtain ⟨before, next, after, rfl, within, beyond⟩ :=
          ih (show limit - (encodeChar character).length < (encode text).length by omega)
        refine ⟨character :: before, next, after, rfl, ?_, ?_⟩ <;>
          rw [Utf8.encode_cons, List.length_append] <;> omega

section Character

variable {before after : List Char} {next : Char} {lead : UInt8} {others : ByteString}

theorem getElem?_encode_lead (before after : List Char) (bytes : encodeChar next = lead :: others) :
    (encode (before ++ next :: after))[(encode before).length]? = some lead := by
  rw [Utf8.encode_append, Utf8.encode_cons, bytes, List.getElem?_append_right le_rfl, Nat.sub_self]
  rfl

theorem isContinuation_of_inside (bytes : encodeChar next = lead :: others)
    (parts : Utf8.IsCharacter lead others) {index : Nat} {byte : UInt8}
    (above : (encode before).length < index)
    (below : index < (encode before).length + (encodeChar next).length)
    (at_index : (encode (before ++ next :: after))[index]? = some byte) :
    Utf8.isContinuation byte := by
  obtain ⟨offset, rfl⟩ : ∃ offset, index = (encode before).length + (offset + 1) :=
    ⟨index - (encode before).length - 1, by omega⟩
  have inside : offset < others.length := by
    rw [bytes, List.length_cons] at below
    omega
  rw [Utf8.encode_append, Utf8.encode_cons, bytes, List.getElem?_append_right (by omega),
    Nat.add_sub_cancel_left, List.cons_append, List.getElem?_cons_succ,
    List.getElem?_append_left inside] at at_index
  exact parts.continued byte (List.mem_of_getElem? at_index)

/-- The search from the limit finds where the character around the limit begins. -/
theorem leadBefore?_encode {limit : Nat} (bytes : encodeChar next = lead :: others)
    (parts : Utf8.IsCharacter lead others) (within : (encode before).length ≤ limit)
    (beyond : limit < (encode before).length + (encodeChar next).length) :
    leadBefore? (encode (before ++ next :: after)) limit = some ((encode before).length, lead) := by
  have width := Utf8.declaredWidth_cases lead
  have announced := parts.announced
  rw [bytes, List.length_cons] at beyond
  refine leadBefore?_of_fresh (getElem?_encode_lead before after bytes) parts.fresh within
    (by omega) fun index byte above below at_index => ?_
  apply isContinuation_of_inside bytes parts above _ at_index
  rw [bytes, List.length_cons]
  omega

end Character

/-- A piece ends before the character around the limit, or after it if it begins with it. -/
theorem pieceLength_encode {limit : Nat} {before : List Char} (after : List Char) {next : Char}
    (within : (encode before).length ≤ limit)
    (beyond : limit < (encode before).length + (encodeChar next).length) :
    pieceLength limit (encode (before ++ next :: after)) =
      if before = [] then (encodeChar next).length else (encode before).length := by
  obtain ⟨lead, others, bytes, parts⟩ := Utf8.exists_isCharacter next
  have announced : Utf8.declaredWidth lead = (encodeChar next).length := by
    rw [parts.announced, bytes, List.length_cons]
  have length_eq : (encode (before ++ next :: after)).length =
      (encode before).length + ((encodeChar next).length + (encode after).length) := by
    rw [Utf8.encode_append, Utf8.encode_cons, List.length_append, List.length_append]
  rw [pieceLength_of_lt_length (by omega), leadBefore?_encode bytes parts within beyond]
  dsimp only
  rw [if_neg (by omega), announced]
  by_cases blank : before = []
  · subst blank
    simp only [Utf8.encode_nil, List.length_nil, Nat.zero_add] at length_eq ⊢
    rw [if_neg (Nat.lt_irrefl 0), if_pos trivial]
    exact Nat.min_eq_left (by omega)
  · obtain ⟨first, rest, rfl⟩ := List.exists_cons_of_ne_nil blank
    have first_pos := length_encodeChar_pos first
    rw [if_pos, if_neg blank]
    rw [Utf8.encode_cons, List.length_append]
    omega

theorem exists_isNextRun (limit : Nat) {text : List Char} (filled : text ≠ []) :
    ∃ run later, text = run ++ later ∧ IsNextRun limit text run ∧
      pieceLength limit (encode text) = (encode run).length := by
  by_cases short : (encode text).length ≤ limit
  · exact ⟨text, [], (List.append_nil text).symm,
      ⟨List.prefix_rfl, filled, .inl ⟨short, fun _ front _ => front.length_le⟩⟩,
      pieceLength_of_length_le short⟩
  · obtain ⟨before, next, after, rfl, within, beyond⟩ :=
      exists_crossing (Nat.lt_of_not_le short)
    have ends := pieceLength_encode after within beyond
    by_cases blank : before = []
    · subst blank
      rw [if_pos rfl] at ends
      refine ⟨[next], after, rfl, ⟨⟨after, rfl⟩, List.cons_ne_nil next [], .inr ?_⟩, ?_⟩
      · exact ⟨next, rfl, by simpa using beyond⟩
      · simpa [Utf8.encode_cons] using ends
    · rw [if_neg blank] at ends
      refine ⟨before, next :: after, rfl, ⟨List.prefix_append _ _, blank, .inl ⟨within, ?_⟩⟩, ends⟩
      intro other front other_within
      -- A longer part would hold the character around the limit.
      by_contra longer
      have crossing : before ++ [next] <+: before ++ next :: after := ⟨after, by simp⟩
      have inside : before ++ [next] <+: other :=
        List.prefix_of_prefix_length_le crossing front (by simp; omega)
      have bound := length_encode_le_of_prefix inside
      rw [Utf8.encode_append, Utf8.encode_cons, Utf8.encode_nil, List.append_nil,
        List.length_append] at bound
      omega

theorem encode_eq_nil_iff {text : List Char} : encode text = [] ↔ text = [] := by
  cases text with
  | nil => simp
  | cons first rest =>
      have first_pos := length_encodeChar_pos first
      simp [Utf8.encode_cons, List.ne_nil_of_length_pos first_pos]

/-- The pieces of the bytes of a text are the bytes of the runs that it is packed into. -/
theorem exists_packs {limit : Nat} (limit_pos : 1 ≤ limit) (text : List Char) :
    ∃ runs, pieces limit (encode text) = runs.map encode ∧ Packs limit text runs := by
  induction size : text.length using Nat.strong_induction_on generalizing text with
  | _ count ih =>
      by_cases filled : text = []
      · subst filled
        exact ⟨[], by simp [pieces], .nil⟩
      · obtain ⟨run, later, rfl, next, length_eq⟩ := exists_isNextRun limit filled
        have run_pos := List.length_pos_iff.mpr next.filled
        have shorter : later.length < count := by
          rw [← size, List.length_append]
          omega
        obtain ⟨runs, pieces_eq, packs⟩ := ih later.length shorter later rfl
        refine ⟨run :: runs, ?_, .cons next packs⟩
        rw [pieces_eq_cons (mt encode_eq_nil_iff.mp filled), Nat.max_eq_left limit_pos, length_eq,
          Utf8.encode_append, List.take_left, List.drop_left, pieces_eq, List.map_cons]

/-- The bytes of a text that is not empty are cut into the bytes of the runs that its characters are
packed into.  So every piece can be decoded, it is the longest run of the following characters that
fits into the limit or one character that does not fit, and no division of the text into parts that
fit, or are single characters, has fewer parts. -/
theorem split_packs {limit : Nat} {bytes : ByteString} {text : List Char} (limit_pos : 1 ≤ limit)
    (valid : Utf8.decode? bytes = some text) (filled : bytes ≠ []) :
    (∃ runs, Packs limit text runs ∧ split limit bytes = runs.map encode) ∧
      (∀ runs, Packs limit text runs → split limit bytes = runs.map encode) ∧
      (∀ piece ∈ split limit bytes, ∃ run, Utf8.decode? piece = some run) ∧
      ∀ parts : List (List Char), parts.flatten = text → (∀ part ∈ parts, Fits limit part) →
        (split limit bytes).length ≤ parts.length := by
  obtain rfl := Utf8.decode?_eq_some_iff.mp valid
  obtain ⟨runs, pieces_eq, packs⟩ := exists_packs limit_pos text
  have split_eq : split limit (encode text) = runs.map encode := by
    rw [split, if_neg (by simpa using filled), pieces_eq]
  refine ⟨⟨runs, packs, split_eq⟩, fun others packs' => packs.unique packs' ▸ split_eq,
    fun piece member => ?_, fun parts joined fits => ?_⟩
  · rw [split_eq] at member
    obtain ⟨run, -, rfl⟩ := List.mem_map.mp member
    exact ⟨run, Utf8.decode?_encode run⟩
  · rw [split_eq, List.length_map]
    exact packs.length_le (joined.trans (List.nil_append text).symm) fits

namespace Sample

/-- Characters of one, two, three and four bytes. -/
def widening : List Char := ['a', 'é', '東', '🎻']

/-- With a limit of three bytes the widest character has a piece of its own, and three parts are too
few. -/
theorem split_packs_widening :
    split 3 (encode widening) =
        [[0x61, 0xc3, 0xa9], [0xe6, 0x9d, 0xb1], [0xf0, 0x9f, 0x8e, 0xbb]] ∧
      ∀ parts : List (List Char), parts.flatten = widening →
        (∀ part ∈ parts, Fits 3 part) → 3 ≤ parts.length := by
  have cut : split 3 (encode widening) =
      [[0x61, 0xc3, 0xa9], [0xe6, 0x9d, 0xb1], [0xf0, 0x9f, 0x8e, 0xbb]] :=
    Except.ok.inj ((splitByPosition_eq (by decide) (by decide)).symm.trans (by decide))
  have packed := split_packs (show 1 ≤ 3 by decide) (Utf8.decode?_encode widening) (by decide)
  refine ⟨cut, fun parts joined fits => ?_⟩
  simpa [cut] using packed.2.2.2 parts joined fits

end Sample

end Chunk
end LearningIndex
