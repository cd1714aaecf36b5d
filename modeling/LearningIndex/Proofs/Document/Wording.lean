import LearningIndex.Proofs.Bytes.Decoding
import LearningIndex.Proofs.Document.Pieces
import LearningIndex.Proofs.Text.Words

/-!
# The words of a material

The documents of a material are numbered without gaps, and their contents spell the words of the
file, however the file is encoded: the pieces are cut between characters, cleaning a piece changes
no letter and no number, and no piece grows by being decoded and cleaned.
-/

namespace LearningIndex
namespace LearningMaterialIndexer

def contentsField : String := "contents"

@[simp]
theorem get?_chunkDocument_contents (material : LearningMaterial) (ordinal : Nat)
    (chunk : ByteString) :
    (chunkDocument material ordinal chunk).get? contentsField =
      some (.string (contentsOf chunk)) :=
  Document.get?_setAll_of_mem (by simp [idField]) (by simp [contentsField]) _

theorem utf8ByteSize_contentsOf_le (chunk : ByteString) :
    (contentsOf chunk).utf8ByteSize ≤ chunk.length := by
  let keep (character : Char) := Text.isWordPart character || Text.isBlank character
  have unbroken : keep Utf8.replacement = false := by
    decide +kernel
  have kept : String.utf8Len (Text.dropSymbols (Utf8.lossy chunk)) ≤ chunk.length :=
    Utf8.utf8Len_filter_lossy_le unbroken chunk
  rw [contentsOf, String.utf8ByteSize_ofList]
  exact (Text.utf8Len_clean_le _).trans kept

/-- The texts of some pieces, put together, have the words that the pieces show together. -/
theorem filter_join_contentsOf (chunks : List ByteString) :
    (String.join (chunks.map contentsOf)).toList.filter (· ≠ ' ') =
      (chunks.flatMap Utf8.lossy).filter Text.isWordPart := by
  induction chunks with
  | nil => rfl
  | cons chunk rest ih =>
      rw [String.toList_join] at ih ⊢
      rw [List.map_cons, List.flatMap_cons, List.flatMap_cons, List.filter_append,
        List.filter_append, ih, contentsOf, String.toList_ofList, Text.filter_ne_space_clean]

/-- The documents of a material are numbered without gaps.  Their texts keep to the chunk size, and
without the spaces they are the letters and numbers of the file. -/
theorem documents_spell_file {indexer : LearningMaterialIndexer} (four : 4 ≤ indexer.maxChunkSize)
    (material : LearningMaterial) (text : ByteString) :
    (indexer.documents material text).map (·.id) =
        (List.range (indexer.documents material text).length).map (documentId · material.id) ∧
      ∃ contents : List String,
        (indexer.documents material text).map (·.get? contentsField) =
            contents.map (fun words => some (.string words)) ∧
          (∀ words ∈ contents, words.utf8ByteSize ≤ indexer.maxChunkSize) ∧
            (String.join contents).toList.filter (· ≠ ' ') =
              (Utf8.lossy text).filter Text.isWordPart := by
  refine ⟨map_id_documents indexer material text,
    (Chunk.split indexer.maxChunkSize text).map contentsOf, ?_, ?_, ?_⟩
  · refine List.ext_getElem (by simp [documents]) fun ordinal inside _ => ?_
    simp [documents]
  · intro words member
    obtain ⟨chunk, cut, rfl⟩ := List.mem_map.mp member
    exact (utf8ByteSize_contentsOf_le chunk).trans (Chunk.length_le_of_mem_split four cut)
  · rw [filter_join_contentsOf, Chunk.flatMap_lossy_split four]

namespace Sample

/-- An indexer with the least chunk size that a character of any width fits into. -/
def narrow : LearningMaterialIndexer where
  catalog := ⟨indexName, "1m", true⟩
  maxChunkSize := 4

/-- A lecture with a file. -/
def lecture : LearningMaterial where
  id := 7
  title := "Lecture"
  description := none
  filename := some "lecture.txt"
  relativePath := some "lecture"

/-- A text in which a character crosses the first limit, another is broken off, and stray
continuation bytes lie around a third limit. -/
def damaged : ByteString :=
  [0x61, 0x62, 0x63, 0xc3, 0xa9, 0x2d, 0xe2, 0x82, 0x64, 0x80, 0x80, 0x80, 0x80, 0x80, 0x65]

theorem damaged_documents_spell_file :
    4 ≤ narrow.maxChunkSize ∧
      (narrow.documents lecture damaged).map (·.id) =
          (List.range (narrow.documents lecture damaged).length).map (documentId · lecture.id) ∧
        ∃ contents : List String,
          (narrow.documents lecture damaged).map (·.get? contentsField) =
              contents.map (fun words => some (.string words)) ∧
            (∀ words ∈ contents, words.utf8ByteSize ≤ 4) ∧
              (String.join contents).toList.filter (· ≠ ' ') = ['a', 'b', 'c', 'é', 'd', 'e'] := by
  have shown : (Utf8.lossy damaged).filter Text.isWordPart = ['a', 'b', 'c', 'é', 'd', 'e'] := by
    decide +kernel
  obtain ⟨numbered, contents, held, short, spelled⟩ :=
    @documents_spell_file narrow (by decide) lecture damaged
  exact ⟨by decide, numbered, contents, held, short, spelled.trans shown⟩

end Sample
end LearningMaterialIndexer
end LearningIndex
