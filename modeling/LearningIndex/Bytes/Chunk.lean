import LearningIndex.Bytes.Utf8

/-!
# Splitting file text into pieces

File text is uploaded in pieces of at most a given number of bytes.  A piece ends at the limit,
unless the limit falls inside a character: then it ends before that character, or after it when the
piece begins with it.  The character around the limit is recognised by the width that its first
byte announces.
-/

namespace LearningIndex
namespace Chunk

/-- The positions at which the character around `stop` may begin, nearest first: `stop` itself and
up to three before it. -/
def lookBack (stop : Nat) : List Nat :=
  (List.range (min 4 (stop + 1))).map (stop - ·)

/-- The nearest position at or before `stop` with a byte that continues no character. -/
def leadBefore? (bytes : ByteString) (stop : Nat) : Option (Nat × UInt8) :=
  (lookBack stop).findSome? fun position =>
    match bytes[position]? with
    | some byte => if Utf8.isContinuation byte then none else some (position, byte)
    | none => none

/-- The length of the first piece of some bytes. -/
def pieceLength (limit : Nat) (bytes : ByteString) : Nat :=
  if (bytes.drop limit).isEmpty then bytes.length
  else
    match leadBefore? bytes limit with
    | some (position, lead) =>
      let finish := position + Utf8.declaredWidth lead
      if finish ≤ limit then limit
      else if 0 < position then position
      else min finish bytes.length
    | none => limit

theorem declaredWidth_pos (lead : UInt8) : 0 < Utf8.declaredWidth lead := by
  unfold Utf8.declaredWidth
  repeat' split
  all_goals omega

theorem pieceLength_pos {limit : Nat} {bytes : ByteString} (limit_pos : 0 < limit)
    (bytes_nonempty : bytes ≠ []) : 0 < pieceLength limit bytes := by
  have length_pos : 0 < bytes.length := List.length_pos_iff.mpr bytes_nonempty
  unfold pieceLength
  split
  · exact length_pos
  · split
    · rename_i position lead found
      have width_pos := declaredWidth_pos lead
      dsimp only
      split
      · exact limit_pos
      · split
        · assumption
        · omega
    · exact limit_pos

/-- The pieces of some bytes, none of them empty. -/
def pieces (limit : Nat) : ByteString → List ByteString
  | [] => []
  | first :: rest =>
    let length := pieceLength (max limit 1) (first :: rest)
    (first :: rest).take length :: pieces limit ((first :: rest).drop length)
termination_by bytes => bytes.length
decreasing_by
  have piece_pos := pieceLength_pos (show 0 < max limit 1 by omega) (List.cons_ne_nil first rest)
  simp only [List.length_drop, List.length_cons]
  omega

/-- The pieces of a file; an empty file has one empty piece.  A limit of zero counts as one. -/
def split (limit : Nat) (bytes : ByteString) : List ByteString :=
  if bytes.isEmpty then [[]] else pieces limit bytes

end Chunk
end LearningIndex
