import LearningIndex.Text.Basic
import LearningIndex.Text.Letter
import LearningIndex.Text.Numeral

/-!
# Cleaning of file text

File text is indexed without punctuation and symbols.  Every character that is not a letter, a
number or white space is deleted, each run of white space becomes one space, and the ends are
trimmed.  What remains are the words of the text, separated by single spaces.
-/

namespace LearningIndex
namespace Text

def isLetter (character : Char) : Bool :=
  inRanges character.toNat letterRanges

def isNumeral (character : Char) : Bool :=
  inRanges character.toNat numeralRanges

/-- Whether a character belongs to a word. -/
def isWordPart (character : Char) : Bool :=
  isLetter character || isNumeral character

/-- Replaces each run of white space by one space; the flag says that a run is under way. -/
def squeezeFrom (within : Bool) : List Char → List Char
  | [] => []
  | character :: rest =>
    if isBlank character then
      if within then squeezeFrom true rest else ' ' :: squeezeFrom true rest
    else character :: squeezeFrom false rest

/-- Replaces each run of white space by one space. -/
def squeeze (text : List Char) : List Char :=
  squeezeFrom false text

/-- Deletes the characters that are neither part of a word nor white space. -/
def dropSymbols (text : List Char) : List Char :=
  text.filter fun character => isWordPart character || isBlank character

/-- The text as it is indexed: letters and numbers, with single spaces between the words. -/
def clean (text : List Char) : List Char :=
  trim (squeeze (dropSymbols text))

end Text
end LearningIndex
