/-!
# Texts as lists of characters

Sets of characters are given by ranges of code points.  White space has the Unicode property
White_Space; letters have cases here in ASCII only.
-/

namespace LearningIndex
namespace Text

/-- Whether a code point lies in one of the ranges, which ascend. -/
def inRanges (code : Nat) : List (Nat × Nat) → Bool
  | [] => false
  | (low, high) :: rest =>
    if code < low then false else if code ≤ high then true else inRanges code rest

def isAsciiLetter (character : Char) : Bool :=
  ('a' ≤ character && character ≤ 'z') || ('A' ≤ character && character ≤ 'Z')

/-- A text with its ASCII capitals in lower case. -/
def lowerAscii (text : List Char) : List Char :=
  text.map fun character =>
    if 'A' ≤ character ∧ character ≤ 'Z' then Char.ofNat (character.toNat + 32) else character

/-- The code points with the property White_Space, in ascending ranges. -/
def blankRanges : List (Nat × Nat) :=
  [(0x9, 0xd), (0x20, 0x20), (0x85, 0x85), (0xa0, 0xa0), (0x1680, 0x1680), (0x2000, 0x200a),
   (0x2028, 0x2029), (0x202f, 0x202f), (0x205f, 0x205f), (0x3000, 0x3000)]

def isBlank (character : Char) : Bool :=
  inRanges character.toNat blankRanges

/-- A text without the white space at its start. -/
def trimStart (text : List Char) : List Char :=
  text.dropWhile isBlank

/-- A text without the white space at its two ends. -/
def trim (text : List Char) : List Char :=
  (trimStart (trimStart text).reverse).reverse

def isAllBlank (text : List Char) : Bool :=
  text.all isBlank

/-- The parts of a text between the marks. -/
def splitAtMark (mark : Char) : List Char → List (List Char)
  | [] => [[]]
  | character :: rest =>
    if character = mark then [] :: splitAtMark mark rest
    else
      match splitAtMark mark rest with
      | [] => [[character]]
      | part :: parts => (character :: part) :: parts

end Text
end LearningIndex
