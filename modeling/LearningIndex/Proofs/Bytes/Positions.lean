import LearningIndex.Proofs.Bytes.Decoding

/-!
# Splitting by positions

Whatever the bytes and the limit are, splitting ends, and its pieces are the bytes, cut into parts
that are not empty and keep to the limit, except where one character is announced to be wider.  The
split is made by positions of 64 bits in one array.  The positional form below checks every position
before it is used, and no check ever fails.
-/

namespace LearningIndex
namespace Chunk

/-! ## The first piece and the rest -/

theorem pieceLength_of_length_le {limit : Nat} {bytes : ByteString} (short : bytes.length ≤ limit) :
    pieceLength limit bytes = bytes.length := by
  rw [pieceLength, if_pos (by simpa using short)]

theorem pieceLength_of_lt_length {limit : Nat} {bytes : ByteString} (long : limit < bytes.length) :
    pieceLength limit bytes =
      match leadBefore? bytes limit with
      | some (position, lead) =>
        let finish := position + Utf8.declaredWidth lead
        if finish ≤ limit then limit
        else if 0 < position then position
        else min finish bytes.length
      | none => limit := by
  rw [pieceLength]
  exact if_neg (by simpa using long)

theorem pieceLength_le_length (limit : Nat) (bytes : ByteString) :
    pieceLength limit bytes ≤ bytes.length := by
  by_cases short : bytes.length ≤ limit
  · exact (pieceLength_of_length_le short).le
  · rw [pieceLength_of_lt_length (by omega)]
    dsimp only
    split
    · rename_i position lead found
      obtain ⟨-, -, low, -, -⟩ := leadBefore?_eq_some found
      split_ifs
      · omega
      · omega
      · exact Nat.min_le_right _ _
    · omega

theorem pieces_eq_cons {limit : Nat} {bytes : ByteString} (filled : bytes ≠ []) :
    pieces limit bytes = bytes.take (pieceLength (max limit 1) bytes) ::
      pieces limit (bytes.drop (pieceLength (max limit 1) bytes)) := by
  cases bytes with
  | nil => exact absurd rfl filled
  | cons first rest => rw [pieces]

theorem pieces_max (limit : Nat) (bytes : ByteString) :
    pieces (max limit 1) bytes = pieces limit bytes := by
  induction bytes using pieces.induct limit with
  | case1 => simp [pieces]
  | case2 first rest length ih =>
      rw [pieces, pieces, max_eq_left (Nat.le_max_right limit 1), ih]

theorem split_max (limit : Nat) (bytes : ByteString) :
    split (max limit 1) bytes = split limit bytes := by
  rw [split, split, pieces_max]

/-! ## What the pieces are -/

/-- The pieces divide the bytes, and keep to the limit as far as announced characters let them. -/
structure Divides (limit : Nat) (bytes : ByteString) (pieces : List ByteString) : Prop where
  joined : pieces.flatten = bytes
  /-- No bytes give one piece without bytes. -/
  blank : bytes = [] → pieces = [[]]
  filled : bytes ≠ [] → ∀ piece ∈ pieces, piece ≠ []
  /-- A piece beyond the limit begins a character that is announced to be beyond it, and is no
  longer than announced. -/
  bounded : ∀ piece ∈ pieces, max limit 1 < piece.length →
    ∃ lead rest, piece = lead :: rest ∧ max limit 1 < Utf8.declaredWidth lead ∧
      piece.length ≤ Utf8.declaredWidth lead ∧ piece.length ≤ 4

theorem flatten_pieces (limit : Nat) (bytes : ByteString) :
    (pieces limit bytes).flatten = bytes := by
  induction bytes using pieces.induct limit with
  | case1 => simp [pieces]
  | case2 first rest length ih => rw [pieces, List.flatten_cons, ih, List.take_append_drop]

theorem forall_mem_pieces {limit : Nat} {claim : ByteString → Prop}
    (front : ∀ bytes, bytes ≠ [] → claim (bytes.take (pieceLength (max limit 1) bytes)))
    (bytes : ByteString) : ∀ piece ∈ pieces limit bytes, claim piece := by
  induction bytes using pieces.induct limit with
  | case1 => simp [pieces]
  | case2 first rest length ih =>
      rw [pieces, List.forall_mem_cons]
      exact ⟨front (first :: rest) (List.cons_ne_nil first rest), ih⟩

/-- A first piece keeps to the limit, or to the width that its first byte announces. -/
theorem pieceLength_le_or (limit : Nat) (bytes : ByteString) :
    pieceLength limit bytes ≤ limit ∨
      ∃ lead rest, bytes = lead :: rest ∧ limit < Utf8.declaredWidth lead ∧
        pieceLength limit bytes ≤ Utf8.declaredWidth lead := by
  unfold pieceLength
  split
  · rename_i short
    exact .inl (by simpa using short)
  · split
    · rename_i position lead found
      obtain ⟨at_position, -, low, -, -⟩ := leadBefore?_eq_some found
      dsimp only
      split
      · exact .inl le_rfl
      · split
        · exact .inl low
        · obtain rfl : position = 0 := by omega
          obtain ⟨rest, rfl⟩ : ∃ rest, bytes = lead :: rest := by
            cases bytes with
            | nil => simp at at_position
            | cons first rest => exact ⟨rest, by simpa using at_position⟩
          exact .inr ⟨lead, rest, rfl, by omega, by omega⟩
    · exact .inl le_rfl

theorem bounded_take_pieceLength (limit : Nat) (bytes : ByteString)
    (longer : limit < (bytes.take (pieceLength limit bytes)).length) :
    ∃ lead rest, bytes.take (pieceLength limit bytes) = lead :: rest ∧
      limit < Utf8.declaredWidth lead ∧
        (bytes.take (pieceLength limit bytes)).length ≤ Utf8.declaredWidth lead ∧
          (bytes.take (pieceLength limit bytes)).length ≤ 4 := by
  have taken := List.length_take_le (pieceLength limit bytes) bytes
  rcases pieceLength_le_or limit bytes with within | ⟨lead, rest, rfl, wide, announced⟩
  · omega
  · have four := Utf8.declaredWidth_cases lead
    obtain ⟨shorter, length_eq⟩ : ∃ shorter, pieceLength limit (lead :: rest) = shorter + 1 :=
      Nat.exists_eq_add_one.mpr (by omega)
    refine ⟨lead, rest.take shorter, ?_, wide, by omega, by omega⟩
    rw [length_eq, List.take_succ_cons]

theorem divides_split (limit : Nat) (bytes : ByteString) :
    Divides limit bytes (split limit bytes) := by
  cases bytes with
  | nil =>
      refine ⟨by simp [split], fun _ => rfl, fun filled => absurd rfl filled, ?_⟩
      intro piece member
      obtain rfl : piece = [] := by simpa [split] using member
      simp
  | cons first rest =>
      refine ⟨flatten_pieces limit _, fun blank => absurd blank (List.cons_ne_nil first rest),
        fun _ => ?_, ?_⟩
      · refine forall_mem_pieces (fun bytes filled => ?_) (first :: rest)
        have piece_pos := pieceLength_pos (show 0 < max limit 1 by omega) filled
        simpa [List.take_eq_nil_iff, filled] using piece_pos.ne'
      · exact forall_mem_pieces (fun bytes _ => bounded_take_pieceLength (max limit 1) bytes)
          (first :: rest)

/-! ## Positions -/

/-- What can go wrong with a position. -/
inductive PositionFault where
  | overflow
  /-- There is no byte, or no slice, at the positions asked for. -/
  | outOfRange
  /-- The rounds that were allowed are used up. -/
  | endless
deriving DecidableEq, Repr

def addPosition (left right : Nat) : Except PositionFault Nat :=
  if left + right < 2 ^ 64 then .ok (left + right) else .error .overflow

def byteAt (bytes : ByteString) (position : Nat) : Except PositionFault UInt8 :=
  match bytes[position]? with
  | some byte => .ok byte
  | none => .error .outOfRange

def slice (bytes : ByteString) (start stop : Nat) : Except PositionFault ByteString :=
  if start ≤ stop ∧ stop ≤ bytes.length then .ok ((bytes.drop start).take (stop - start))
  else .error .outOfRange

/-- The nearest position at or before `position`, and not before `start`, with a byte that continues
no character; it reads at most `looks` bytes. -/
def findLead (bytes : ByteString) (start : Nat) :
    Nat → Nat → Except PositionFault (Option (Nat × UInt8))
  | 0, _ => .ok none
  | looks + 1, position => do
    let byte ← byteAt bytes position
    if !Utf8.isContinuation byte then return some (position, byte)
    else if position ≤ start then return none
    else findLead bytes start looks (position - 1)

/-- The position after the piece that begins at `start`. -/
def pieceStop (limit : Nat) (bytes : ByteString) (start : Nat) : Except PositionFault Nat := do
  let stop ← addPosition start limit
  if bytes.length ≤ stop then return bytes.length
  match ← findLead bytes start 4 stop with
  | none => return stop
  | some (position, lead) =>
    let finish ← addPosition position (Utf8.declaredWidth lead)
    if finish ≤ stop then return stop
    else if start < position then return position
    else return min finish bytes.length

/-- The pieces from a position on, cut in at most the given number of rounds. -/
def walk (limit : Nat) (bytes : ByteString) :
    Nat → Nat → Except PositionFault (List ByteString)
  | 0, start => if bytes.length ≤ start then .ok [] else .error .endless
  | rounds + 1, start =>
    if bytes.length ≤ start then .ok []
    else do
      let stop ← pieceStop limit bytes start
      let piece ← slice bytes start stop
      let later ← walk limit bytes rounds stop
      return piece :: later

/-- The pieces of some bytes, cut by positions, in at most one round for each byte.  Room for the
expected number of pieces is made before. -/
def splitByPosition (limit : Nat) (bytes : ByteString) : Except PositionFault (List ByteString) :=
  if bytes.isEmpty then return [← slice bytes 0 0]
  else do
    let _room ← addPosition (bytes.length / max limit 1) 1
    walk (max limit 1) bytes bytes.length 0

/-! ## Why no position fails -/

/-- The result is the value, or a position is too large, and that only if the numbers are not
small. -/
def Computes {α : Type} (small : Prop) (result : Except PositionFault α) (value : α) : Prop :=
  result = .ok value ∨ (result = .error .overflow ∧ ¬ small)

theorem Computes.bind {α β : Type} {small : Prop} {first : Except PositionFault α} {value : α}
    {next : α → Except PositionFault β} {result : β} (computes : Computes small first value)
    (later : Computes small (next value) result) : Computes small (first >>= next) result := by
  rcases computes with rfl | ⟨rfl, large⟩
  · exact later
  · exact .inr ⟨rfl, large⟩

theorem computes_addPosition {small : Prop} {left right : Nat}
    (fits : small → left + right < 2 ^ 64) :
    Computes small (addPosition left right) (left + right) := by
  unfold addPosition
  split
  · exact .inl rfl
  · rename_i large
    exact .inr ⟨rfl, mt fits large⟩

theorem byteAt_eq {bytes : ByteString} {position : Nat} {byte : UInt8}
    (there : bytes[position]? = some byte) : byteAt bytes position = .ok byte := by
  rw [byteAt, there]

theorem slice_eq {bytes : ByteString} {start stop : Nat} (ordered : start ≤ stop)
    (inside : stop ≤ bytes.length) :
    slice bytes start stop = .ok ((bytes.drop start).take (stop - start)) :=
  if_pos ⟨ordered, inside⟩

/-- The byte at a position, with the position, if it continues no character. -/
def freshAt? (bytes : ByteString) (position : Nat) : Option (Nat × UInt8) :=
  match bytes[position]? with
  | some byte => if Utf8.isContinuation byte then none else some (position, byte)
  | none => none

/-- The nearest position at or before `stop` with a byte that continues no character, if it is one
of the `looks` nearest positions. -/
def leadWithin? (bytes : ByteString) (looks stop : Nat) : Option (Nat × UInt8) :=
  ((List.range (min looks (stop + 1))).map (stop - ·)).findSome? (freshAt? bytes)

theorem leadBefore?_eq_leadWithin? (bytes : ByteString) (stop : Nat) :
    leadBefore? bytes stop = leadWithin? bytes 4 stop := rfl

theorem leadWithin?_zero (bytes : ByteString) (looks : Nat) :
    leadWithin? bytes (looks + 1) 0 = freshAt? bytes 0 := by
  simp [leadWithin?]

theorem leadWithin?_succ (bytes : ByteString) (looks stop : Nat) :
    leadWithin? bytes (looks + 1) (stop + 1) =
      (freshAt? bytes (stop + 1)).or (leadWithin? bytes looks stop) := by
  have nearest : (stop + 1 - ·) ∘ Nat.succ = (stop - ·) := by
    funext step
    exact Nat.succ_sub_succ stop step
  rw [leadWithin?, Nat.add_min_add_right, List.range_succ_eq_map, List.map_cons, List.map_map,
    nearest, List.findSome?_cons, Nat.sub_zero, leadWithin?]
  cases freshAt? bytes (stop + 1) <;> rfl

/-- The search from a position in all bytes is the one in the bytes from the start on. -/
theorem findLead_eq (bytes : ByteString) (start looks : Nat) {gap : Nat}
    (inside : start + gap < bytes.length) :
    findLead bytes start looks (start + gap) =
      .ok ((leadWithin? (bytes.drop start) looks gap).map fun found =>
        (start + found.1, found.2)) := by
  induction looks generalizing gap with
  | zero => simp [findLead, leadWithin?]
  | succ looks ih =>
      obtain ⟨byte, there⟩ : ∃ byte, bytes[start + gap]? = some byte :=
        ⟨_, List.getElem?_eq_getElem inside⟩
      have there' : (bytes.drop start)[gap]? = some byte := by rw [List.getElem?_drop, there]
      rw [findLead, byteAt_eq there]
      change (if !Utf8.isContinuation byte then _ else _) = _
      cases gap with
      | zero =>
          rw [leadWithin?_zero, freshAt?, there']
          cases continues : Utf8.isContinuation byte <;> simp [continues, pure, Except.pure]
      | succ gap =>
          have back : start + (gap + 1) - 1 = start + gap := rfl
          rw [leadWithin?_succ, freshAt?, there', back, ih (by omega)]
          cases continues : Utf8.isContinuation byte <;> simp [continues, pure, Except.pure]

section Walk

variable {small : Prop} {limit : Nat} {bytes : ByteString}

theorem computes_pieceStop (short : small → bytes.length < 2 ^ 63) {start : Nat}
    (inside : start ≤ bytes.length) (fits : small → start + limit < 2 ^ 64) :
    Computes small (pieceStop limit bytes start)
      (start + pieceLength limit (bytes.drop start)) := by
  have length_eq : (bytes.drop start).length = bytes.length - start := List.length_drop
  rw [pieceStop]
  refine (computes_addPosition fits).bind ?_
  by_cases last : bytes.length ≤ start + limit
  · rw [if_pos last, pieceLength_of_length_le (by omega), length_eq, Nat.add_sub_cancel' inside]
    exact .inl rfl
  · rw [if_neg last, pieceLength_of_lt_length (by omega), findLead_eq bytes start 4 (by omega),
      leadBefore?_eq_leadWithin?, length_eq]
    cases found : leadWithin? (bytes.drop start) 4 limit with
    | none => exact .inl rfl
    | some lead =>
        obtain ⟨position, lead⟩ := lead
        obtain ⟨-, -, low, -, -⟩ := leadBefore?_eq_some found
        have width := Utf8.declaredWidth_cases lead
        have near : small → start + position + Utf8.declaredWidth lead < 2 ^ 64 := by
          intro holds
          have bound := short holds
          omega
        refine (computes_addPosition near).bind (.inl ?_)
        dsimp only
        by_cases finished : position + Utf8.declaredWidth lead ≤ limit
        · rw [if_pos finished, if_pos (by omega)]
          rfl
        · rw [if_neg finished, if_neg (by omega)]
          by_cases moved : 0 < position
          · rw [if_pos moved, if_pos (by omega)]
            rfl
          · have ends : min (start + position + Utf8.declaredWidth lead) bytes.length =
                start + min (position + Utf8.declaredWidth lead) (bytes.length - start) := by
              omega
            rw [if_neg moved, if_neg (by omega), ends]
            rfl

/-- Each round takes at least one byte, so there are rounds enough. -/
theorem computes_walk (limit_pos : 0 < limit) (short : small → bytes.length < 2 ^ 63)
    (rounds : Nat) {start : Nat} (inside : start ≤ bytes.length)
    (enough : bytes.length ≤ start + rounds)
    (fits : small → start < bytes.length → start + limit < 2 ^ 64) :
    Computes small (walk limit bytes rounds start) (pieces limit (bytes.drop start)) := by
  induction rounds generalizing start with
  | zero =>
      have ended : bytes.length ≤ start := enough
      rw [walk, if_pos ended, List.drop_eq_nil_of_le ended, pieces]
      exact .inl rfl
  | succ rounds ih =>
      rw [walk]
      by_cases last : bytes.length ≤ start
      · rw [if_pos last, List.drop_eq_nil_of_le last, pieces]
        exact .inl rfl
      · have length_eq : (bytes.drop start).length = bytes.length - start := List.length_drop
        have filled : bytes.drop start ≠ [] := by
          rw [← List.length_pos_iff]
          omega
        have piece_pos := pieceLength_pos limit_pos filled
        have piece_le := pieceLength_le_length limit (bytes.drop start)
        -- A next round begins within the bytes, so this piece was not cut at their end.
        have fits' : small → start + pieceLength limit (bytes.drop start) < bytes.length →
            start + pieceLength limit (bytes.drop start) + limit < 2 ^ 64 := by
          intro holds more
          have bound := short holds
          by_cases ended : (bytes.drop start).length ≤ limit
          · have whole := pieceLength_of_length_le ended
            omega
          · omega
        rw [if_neg last, pieces_eq_cons filled, Nat.max_eq_left limit_pos, List.drop_drop]
        refine (computes_pieceStop short inside fun holds => fits holds (by omega)).bind ?_
        rw [slice_eq (by omega) (by omega), Nat.add_sub_cancel_left]
        exact (ih (by omega) (by omega) fits').bind (.inl rfl)

end Walk

theorem computes_splitByPosition (limit : Nat) (bytes : ByteString) :
    Computes (limit < 2 ^ 64 ∧ bytes.length < 2 ^ 63) (splitByPosition limit bytes)
      (split limit bytes) := by
  cases bytes with
  | nil => exact .inl rfl
  | cons first rest =>
      have room := Nat.div_le_self (first :: rest).length (max limit 1)
      have walked := computes_walk (Nat.lt_of_lt_of_le Nat.zero_lt_one (Nat.le_max_right limit 1))
        And.right (first :: rest).length (Nat.zero_le _) (Nat.zero_add _).ge
        fun (holds : limit < 2 ^ 64 ∧ (first :: rest).length < 2 ^ 63) _ => by omega
      rw [List.drop_zero, pieces_max] at walked
      exact (computes_addPosition fun holds => by omega).bind walked

theorem splitByPosition_eq {limit : Nat} {bytes : ByteString} (representable : limit < 2 ^ 64)
    (short : bytes.length < 2 ^ 63) : splitByPosition limit bytes = .ok (split limit bytes) :=
  (computes_splitByPosition limit bytes).resolve_right fun large => large.2 ⟨representable, short⟩

/-- Whatever the bytes and the limit are, a limit of zero counts as one, and the pieces divide the
bytes.  They are cut by positions in at most one round for each byte, and no byte or slice is out of
range.  If the limit is a number of 64 bits and the bytes are fewer than half of what 64 bits can
count, no position is too large for 64 bits. -/
theorem split_divides (limit : Nat) (bytes : ByteString) :
    split limit bytes = split (max limit 1) bytes ∧
      Divides limit bytes (split limit bytes) ∧
        (splitByPosition limit bytes = .ok (split limit bytes) ∨
          splitByPosition limit bytes = .error .overflow) ∧
        (limit < 2 ^ 64 → bytes.length < 2 ^ 63 →
          splitByPosition limit bytes = .ok (split limit bytes)) :=
  ⟨(split_max limit bytes).symm, divides_split limit bytes,
    (computes_splitByPosition limit bytes).imp_right And.left, splitByPosition_eq⟩

namespace Sample

/-- A character of three bytes, a byte that begins none, and one more beginning. -/
def jagged : ByteString := [0xe6, 0x9d, 0xb1, 0xff, 0xe6]

/-- With the greatest limit the bytes are one piece, and with the least the first character is
beyond it. -/
theorem split_divides_jagged :
    split (2 ^ 64 - 1) jagged = [jagged] ∧
      split 1 jagged = [[0xe6, 0x9d, 0xb1], [0xff], [0xe6]] := by
  constructor
  · have same := (split_divides (2 ^ 64 - 1) jagged).2.2.2 (by decide) (by decide)
    exact Except.ok.inj (same.symm.trans (by decide))
  · have same := (split_divides 1 jagged).2.2.2 (by decide) (by decide)
    exact Except.ok.inj (same.symm.trans (by decide))

end Sample

end Chunk
end LearningIndex
