import LearningIndex.Bytes.Chunk
import Mathlib.Data.List.TakeWhile
import Mathlib.Data.String.Basic

/-!
# Decoding in pieces

Decoding looks at a first byte and at the continuation bytes that follow it, and at no more of them
than the first byte announces.  So bytes may be cut in front of every byte that continues no
character, and behind the last byte that a first byte announces.  If a piece may have four bytes, a
file is cut at such places only, and its pieces show together what the file shows.  Without the
characters that stand for broken bytes, what a piece shows is not longer than the piece.
-/

namespace LearningIndex
namespace Utf8

/-! ## What the front depends on -/

theorem isContinuation_of_isSecond {lead second : UInt8} (fits : isSecond lead second) :
    isContinuation second := by
  simp only [isSecond, isContinuation] at fits ⊢
  grind

theorem declaredWidth_cases (lead : UInt8) :
    declaredWidth lead = 1 ∨ declaredWidth lead = 2 ∨ declaredWidth lead = 3 ∨
      declaredWidth lead = 4 := by
  unfold declaredWidth
  grind

theorem declaredWidth_of_isContinuation {byte : UInt8} (continues : isContinuation byte) :
    declaredWidth byte = 1 := by
  simp only [isContinuation, declaredWidth] at continues ⊢
  grind

theorem front_takeWhile (lead : UInt8) (rest : ByteString) :
    front lead (rest.takeWhile isContinuation) = front lead rest := by
  have second_continues (second : UInt8) := @isContinuation_of_isSecond lead second
  rcases declaredWidth_cases lead with width | width | width | width <;>
    rcases rest with _ | ⟨second, _ | ⟨third, _ | ⟨fourth, rest⟩⟩⟩ <;>
      simp only [front, width, List.takeWhile] <;> grind

theorem front_take (lead : UInt8) (rest : ByteString) :
    front lead (rest.take (declaredWidth lead - 1)) = front lead rest := by
  rcases declaredWidth_cases lead with width | width | width | width <;>
    rcases rest with _ | ⟨second, _ | ⟨third, _ | ⟨fourth, rest⟩⟩⟩ <;>
      simp [front, width]

theorem width_front_le (lead : UInt8) (rest : ByteString) :
    (front lead rest).width ≤ rest.length + 1 := by
  rcases declaredWidth_cases lead with width | width | width | width <;>
    rcases rest with _ | ⟨second, _ | ⟨third, _ | ⟨fourth, rest⟩⟩⟩ <;>
      simp only [front, width, List.length_cons] <;> grind [Front.width]

/-! ## Where bytes may be cut -/

/-- Bytes may be cut between the first part and the second: the second part begins with a byte that
continues no character, or each character begun in the first part is announced to end there. -/
def Seam (first second : ByteString) : Prop :=
  (∀ byte ∈ second.head?, isContinuation byte = false) ∨
    ∀ before lead after, first = before ++ lead :: after → after.all isContinuation →
      declaredWidth lead ≤ after.length + 1

theorem Seam.of_append (before : ByteString) {first second : ByteString}
    (seam : Seam (before ++ first) second) : Seam first second := by
  rcases seam with fresh | announced
  · exact .inl fresh
  · refine .inr fun earlier lead after same => announced (before ++ earlier) lead after ?_
    rw [same, List.append_assoc]

theorem takeWhile_append_of_fresh {first second : ByteString}
    (fresh : ∀ byte ∈ second.head?, isContinuation byte = false) :
    (first ++ second).takeWhile isContinuation = first.takeWhile isContinuation := by
  have stops : second.takeWhile isContinuation = [] := by
    cases second with
    | nil => rfl
    | cons byte rest => simp [fresh byte rfl]
  rw [List.takeWhile_append, stops, List.append_nil]
  split
  · exact (List.IsPrefix.eq_of_length (List.takeWhile_prefix _) ‹_›).symm
  · rfl

theorem Seam.front_append {lead : UInt8} {rest second : ByteString}
    (seam : Seam (lead :: rest) second) : front lead (rest ++ second) = front lead rest := by
  rcases seam with fresh | announced
  · rw [← front_takeWhile, takeWhile_append_of_fresh fresh, front_takeWhile]
  · by_cases continued : rest.all isContinuation
    · have inside := announced [] lead rest rfl continued
      rw [← front_take, List.take_append_of_le_length (by omega), front_take]
    · rw [← front_takeWhile, List.takeWhile_append, if_neg, front_takeWhile]
      intro same
      have whole := List.IsPrefix.eq_of_length (List.takeWhile_prefix isContinuation) same
      exact continued (List.all_eq_true.mpr (List.takeWhile_eq_self_iff.mp whole))

/-- At a seam the two parts can be decoded on their own. -/
theorem Seam.lossy_append {first second : ByteString} (seam : Seam first second) :
    lossy (first ++ second) = lossy first ++ lossy second := by
  induction first using lossy.induct with
  | case1 => simp [lossy]
  | case2 lead rest found ih =>
      have inside : found.width - 1 ≤ rest.length := by
        exact Nat.sub_le_of_le_add (width_front_le lead rest)
      have later : Seam (rest.drop (found.width - 1)) second := by
        refine Seam.of_append (lead :: rest.take (found.width - 1)) ?_
        rwa [List.cons_append, List.take_append_drop]
      rw [List.cons_append, lossy, lossy, seam.front_append, List.cons_append,
        List.drop_append_of_le_length inside, ih later]

/-! ## How long the text is -/

theorem front_eq_whole {lead : UInt8} {rest : ByteString} {character : Char} {width : Nat}
    (whole : front lead rest = .whole character width) :
    width = declaredWidth lead ∧
      (lead < 0x80 ∧ character = Char.ofNat lead.toNat ∨
        (∃ second, isContinuation second ∧ character = join2 lead second ∧ width = 2) ∨
        (∃ second third, isContinuation second ∧ isContinuation third ∧
          character = join3 lead second third ∧ width = 3) ∨
        width = 4) := by
  have second_continues (second : UInt8) := @isContinuation_of_isSecond lead second
  rcases declaredWidth_cases lead with announced | announced | announced | announced <;>
    rcases rest with _ | ⟨second, _ | ⟨third, _ | ⟨fourth, rest⟩⟩⟩ <;>
      simp only [front, announced] at whole <;> grind

theorem toNat_ofNat_le (code : Nat) : (Char.ofNat code).toNat ≤ code := by
  by_cases valid : code.isValidChar
  · rw [Char.ofNat, dif_pos valid]
    exact le_rfl
  · rw [Char.ofNat, dif_neg valid]
    exact Nat.zero_le code

theorem utf8Size_eq (character : Char) :
    character.utf8Size = if character.toNat < 0x80 then 1 else if character.toNat < 0x800 then 2
      else if character.toNat < 0x10000 then 3 else 4 := by
  simp only [Char.utf8Size, UInt32.le_iff_toNat_le, Char.toNat]
  grind

theorem payload_of_isContinuation {byte : UInt8} (continues : isContinuation byte) :
    payload 0x80 byte < 0x40 := by
  simp [isContinuation, UInt8.le_iff_toNat_le] at continues
  unfold payload
  omega

theorem payload_of_declaredWidth_two {lead : UInt8} (announced : declaredWidth lead = 2) :
    payload 0xc0 lead < 0x20 := by
  simp [declaredWidth, UInt8.le_iff_toNat_le] at announced
  unfold payload
  grind

theorem payload_of_declaredWidth_three {lead : UInt8} (announced : declaredWidth lead = 3) :
    payload 0xe0 lead < 0x10 := by
  simp [declaredWidth, UInt8.le_iff_toNat_le] at announced
  unfold payload
  grind

theorem utf8Size_le_of_front {lead : UInt8} {rest : ByteString} {character : Char} {width : Nat}
    (whole : front lead rest = .whole character width) : character.utf8Size ≤ width := by
  obtain ⟨width_eq, parts⟩ := front_eq_whole whole
  have width_pos := Chunk.declaredWidth_pos lead
  rcases parts with ⟨low, made⟩ | ⟨second, continues, made, two⟩ |
    ⟨second, third, continues, continues', made, three⟩ | four
  · have bound := toNat_ofNat_le lead.toNat
    have small : lead.toNat < 0x80 := by simpa [UInt8.lt_iff_toNat_lt] using low
    rw [utf8Size_eq, made, if_pos (by omega)]
    omega
  · have bound := toNat_ofNat_le (payload 0xc0 lead * 0x40 + payload 0x80 second)
    have high := payload_of_declaredWidth_two (width_eq.symm.trans two)
    have low := payload_of_isContinuation continues
    rw [utf8Size_eq, made, join2]
    grind
  · have bound := toNat_ofNat_le
      (payload 0xe0 lead * 0x1000 + payload 0x80 second * 0x40 + payload 0x80 third)
    have high := payload_of_declaredWidth_three (width_eq.symm.trans three)
    have middle := payload_of_isContinuation continues
    have low := payload_of_isContinuation continues'
    rw [utf8Size_eq, made, join3]
    grind
  · rw [four]
    exact character.utf8Size_le_four

/-- What decoding shows, without the characters that it puts for broken bytes, is not longer than
the bytes. -/
theorem utf8Len_filter_lossy_le {keep : Char → Bool} (unbroken : keep replacement = false)
    (bytes : ByteString) : String.utf8Len ((lossy bytes).filter keep) ≤ bytes.length := by
  induction bytes using lossy.induct with
  | case1 => simp [lossy]
  | case2 lead rest found ih =>
      have width_le := width_front_le lead rest
      simp only [List.length_drop, found] at ih
      rw [lossy, List.filter_cons, List.length_cons]
      split
      · rename_i kept
        rw [String.utf8Len_cons]
        have shown_le : (front lead rest).shown.utf8Size ≤ (front lead rest).width := by
          cases at_front : front lead rest with
          | whole character width => exact utf8Size_le_of_front at_front
          | broken width =>
              rw [at_front, Front.shown, unbroken] at kept
              contradiction
        have shown_pos := (front lead rest).shown.utf8Size_pos
        omega
      · omega

end Utf8

namespace Chunk

/-! ## Where pieces end -/

theorem exists_first_of_findSome?_range {α : Type} {choose : Nat → Option α} {count : Nat}
    {found : α} (hit : (List.range count).findSome? choose = some found) :
    ∃ step < count, choose step = some found ∧ ∀ earlier < step, choose earlier = none := by
  induction count with
  | zero => simp at hit
  | succ count ih =>
      rw [List.range_succ, List.findSome?_append] at hit
      cases before : (List.range count).findSome? choose with
      | some first =>
          rw [before, Option.some_or] at hit
          obtain ⟨step, bound, result⟩ := ih (before.trans hit)
          exact ⟨step, by omega, result⟩
      | none =>
          rw [before, Option.none_or, List.findSome?_singleton] at hit
          refine ⟨count, by omega, hit, fun earlier bound => ?_⟩
          exact List.findSome?_eq_none_iff.mp before earlier (List.mem_range.mpr bound)

/-- The position found is at most three before the one asked for, and every byte after it up to
there continues a character. -/
theorem leadBefore?_eq_some {bytes : ByteString} {stop position : Nat} {lead : UInt8}
    (found : leadBefore? bytes stop = some (position, lead)) :
    bytes[position]? = some lead ∧ Utf8.isContinuation lead = false ∧ position ≤ stop ∧
      stop < position + 4 ∧
        ∀ index byte, position < index → index ≤ stop → bytes[index]? = some byte →
          Utf8.isContinuation byte := by
  rw [leadBefore?, lookBack, List.findSome?_map] at found
  obtain ⟨step, bound, hit, missed⟩ := exists_first_of_findSome?_range found
  cases at_step : bytes[stop - step]? with
  | none => simp [at_step] at hit
  | some byte =>
      obtain ⟨fresh, rfl, rfl⟩ : Utf8.isContinuation byte = false ∧ stop - step = position ∧
          byte = lead := by
        simpa [at_step, ite_eq_iff] using hit
      refine ⟨at_step, fresh, by omega, by omega, ?_⟩
      intro index byte above below at_index
      have missed := missed (stop - index) (by omega)
      rw [Function.comp_apply, Nat.sub_sub_self below, at_index] at missed
      simpa [ite_eq_iff] using missed

/-- If no position is found, the bytes up to three before the one asked for all continue a
character. -/
theorem leadBefore?_eq_none {bytes : ByteString} {stop : Nat}
    (missing : leadBefore? bytes stop = none) {index : Nat} {byte : UInt8} (low : stop < index + 4)
    (high : index ≤ stop) (at_index : bytes[index]? = some byte) : Utf8.isContinuation byte := by
  have listed : index ∈ lookBack stop := by
    refine List.mem_map.mpr ⟨stop - index, List.mem_range.mpr (by omega), by omega⟩
  have missed := List.findSome?_eq_none_iff.mp missing index listed
  simp only [at_index] at missed
  grind

theorem leadBefore?_of_fresh {bytes : ByteString} {stop position : Nat} {lead : UInt8}
    (at_position : bytes[position]? = some lead) (fresh : Utf8.isContinuation lead = false)
    (low : position ≤ stop) (near : stop < position + 4)
    (continued : ∀ index byte, position < index → index ≤ stop → bytes[index]? = some byte →
      Utf8.isContinuation byte) : leadBefore? bytes stop = some (position, lead) := by
  cases found : leadBefore? bytes stop with
  | none =>
      have continues := leadBefore?_eq_none found near low at_position
      simp [fresh] at continues
  | some hit =>
      obtain ⟨position', byte⟩ := hit
      obtain ⟨at_position', fresh', low', -, continued'⟩ := leadBefore?_eq_some found
      rcases Nat.lt_trichotomy position' position with earlier | rfl | later
      · have continues := continued' position lead earlier low at_position
        simp [fresh] at continues
      · obtain rfl := Option.some.inj (at_position'.symm.trans at_position)
        rfl
      · have continues := continued position' byte later low' at_position'
        simp [fresh'] at continues

/-- A place is a seam if every character begun before it, and continued up to it, is announced to
end there. -/
theorem seam_of_announced {bytes : ByteString} {cut : Nat} (inside : cut < bytes.length)
    (announced : ∀ index lead, index < cut → bytes[index]? = some lead →
      (∀ later byte, index < later → later < cut → bytes[later]? = some byte →
        Utf8.isContinuation byte) → index + Utf8.declaredWidth lead ≤ cut) :
    Utf8.Seam (bytes.take cut) (bytes.drop cut) := by
  refine .inr fun before lead after same continued => ?_
  have cut_eq : cut = before.length + (after.length + 1) := by
    simpa [inside.le] using congrArg List.length same
  have within {index : Nat} (low : index < cut) :
      bytes[index]? = (before ++ lead :: after)[index]? := by
    rw [← same, List.getElem?_take_of_lt low]
  have width := announced before.length lead (by omega) (by rw [within (by omega)]; simp) ?_
  · omega
  · intro later byte above below at_later
    obtain ⟨offset, rfl⟩ : ∃ offset, later = before.length + (offset + 1) :=
      ⟨later - before.length - 1, by omega⟩
    rw [within below, List.getElem?_append_right (by omega), Nat.add_sub_cancel_left,
      List.getElem?_cons_succ] at at_later
    exact List.all_eq_true.mp continued byte (List.mem_of_getElem? at_later)

theorem seam_pieceLength {limit : Nat} (four : 4 ≤ limit) (bytes : ByteString) :
    Utf8.Seam (bytes.take (pieceLength limit bytes)) (bytes.drop (pieceLength limit bytes)) := by
  unfold pieceLength
  split
  · left
    simp
  · rename_i longer
    have inside : limit < bytes.length := by
      simpa using longer
    split
    · rename_i position lead found
      obtain ⟨at_position, fresh, low, near, continued⟩ := leadBefore?_eq_some found
      dsimp only
      split
      · rename_i finished
        refine seam_of_announced inside fun index begun below at_index continued' => ?_
        rcases Nat.lt_trichotomy index position with earlier | rfl | later
        · have width_pos := declaredWidth_pos lead
          have broken := continued' position lead earlier (by omega) at_position
          simp [fresh] at broken
        · obtain rfl := Option.some.inj (at_position.symm.trans at_index)
          exact finished
        · have continues := continued index begun later (by omega) at_index
          rw [Utf8.declaredWidth_of_isContinuation continues]
          exact below
      · -- The piece ends in front of the first byte that was found.
        rw [if_pos (by omega)]
        left
        simpa [List.head?_drop, at_position] using fresh
    · rename_i missing
      refine seam_of_announced inside fun index begun below at_index continued => ?_
      by_cases near : limit < index + 4
      · have continues := leadBefore?_eq_none missing near (by omega) at_index
        rw [Utf8.declaredWidth_of_isContinuation continues]
        exact below
      · have width := Utf8.declaredWidth_cases begun
        omega

theorem pieceLength_le {limit : Nat} (four : 4 ≤ limit) (bytes : ByteString) :
    pieceLength limit bytes ≤ limit := by
  unfold pieceLength
  split
  · rename_i short
    simpa using short
  · split
    · rename_i position lead found
      obtain ⟨_, _, low, near, _⟩ := leadBefore?_eq_some found
      dsimp only
      split
      · exact le_rfl
      · rw [if_pos (by omega)]
        exact low
    · exact le_rfl

/-- The pieces show together what the file shows. -/
theorem flatMap_lossy_pieces {limit : Nat} (four : 4 ≤ limit) (bytes : ByteString) :
    (pieces limit bytes).flatMap Utf8.lossy = Utf8.lossy bytes := by
  induction bytes using pieces.induct limit with
  | case1 => simp [pieces, Utf8.lossy]
  | case2 first rest length ih =>
      have seam := seam_pieceLength (four.trans (Nat.le_max_left limit 1)) (first :: rest)
      rw [pieces, List.flatMap_cons, ih, ← seam.lossy_append, List.take_append_drop]

theorem length_le_of_mem_pieces {limit : Nat} (four : 4 ≤ limit) {bytes piece : ByteString}
    (member : piece ∈ pieces limit bytes) : piece.length ≤ limit := by
  induction bytes using pieces.induct limit with
  | case1 => simp [pieces] at member
  | case2 first rest length ih =>
      rw [pieces] at member
      rcases List.mem_cons.mp member with rfl | later
      · have bound := pieceLength_le (four.trans (Nat.le_max_left limit 1)) (first :: rest)
        exact (List.length_take_le _ _).trans (bound.trans (Nat.max_le.mpr ⟨le_rfl, by omega⟩))
      · exact ih later

theorem flatMap_lossy_split {limit : Nat} (four : 4 ≤ limit) (bytes : ByteString) :
    (split limit bytes).flatMap Utf8.lossy = Utf8.lossy bytes := by
  cases bytes with
  | nil => simp [split, Utf8.lossy]
  | cons first rest => exact flatMap_lossy_pieces four (first :: rest)

theorem length_le_of_mem_split {limit : Nat} (four : 4 ≤ limit) {bytes piece : ByteString}
    (member : piece ∈ split limit bytes) : piece.length ≤ limit := by
  cases bytes with
  | nil =>
      obtain rfl : piece = [] := by simpa [split] using member
      simp
  | cons first rest => exact length_le_of_mem_pieces four member

end Chunk
end LearningIndex
