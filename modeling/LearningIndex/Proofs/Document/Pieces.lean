import LearningIndex.Proofs.Document.Identity
import Mathlib.Data.List.Nodup

/-!
# The documents of learning materials

Which documents a material has depends on the material and on the text of its file only.  Each
material has a document, also one without a text, and no two documents have the same id.
-/

namespace LearningIndex
namespace LearningMaterialIndexer

variable (files : String → Except IndexingError (Option ByteString))

/-- The file text of a material, given the texts of files. -/
def textOf (material : LearningMaterial) : Except IndexingError ByteString :=
  match material.relativePath with
  | none => .ok []
  | some path => (files (textPath path)).map (·.getD [])

/-- The documents of some materials, given the texts of files. -/
def documentsWith (indexer : LearningMaterialIndexer) :
    List LearningMaterial → Except IndexingError (List Document)
  | [] => .ok []
  | material :: rest => do
    let text ← textOf files material
    let others ← documentsWith indexer rest
    return indexer.documents material text ++ others

theorem documents_ne_nil (indexer : LearningMaterialIndexer) (material : LearningMaterial)
    (text : ByteString) : indexer.documents material text ≠ [] := by
  rw [documents, Ne, List.mapIdx_eq_nil_iff]
  unfold Chunk.split
  cases text with
  | nil => simp
  | cons first rest => simp [Chunk.pieces]

theorem mem_documents {indexer : LearningMaterialIndexer} {material : LearningMaterial}
    {text : ByteString} {document : Document}
    (member : document ∈ indexer.documents material text) :
    ∃ ordinal chunk, document = chunkDocument material ordinal chunk := by
  obtain ⟨ordinal, inside, rfl⟩ := List.mem_mapIdx.mp member
  exact ⟨ordinal, _, rfl⟩

theorem map_id_documents (indexer : LearningMaterialIndexer) (material : LearningMaterial)
    (text : ByteString) :
    (indexer.documents material text).map (·.id) =
      (List.range (indexer.documents material text).length).map (documentId · material.id) := by
  refine List.ext_getElem (by simp) fun ordinal inside _ => ?_
  simp [documents]

theorem nodup_documents (indexer : LearningMaterialIndexer) (material : LearningMaterial)
    (text : ByteString) : ((indexer.documents material text).map (·.id)).Nodup := by
  rw [documents, List.nodup_iff_injective_getElem]
  intro first second same
  simp only [List.getElem_map, List.getElem_mapIdx, id_chunkDocument, documentId_inj] at same
  exact Fin.ext same.1

variable {files}

theorem documentsWith_cons {indexer : LearningMaterialIndexer} {material : LearningMaterial}
    {rest : List LearningMaterial} {documents : List Document}
    (built : documentsWith files indexer (material :: rest) = .ok documents) :
    ∃ text others, textOf files material = .ok text ∧
      documentsWith files indexer rest = .ok others ∧
        documents = indexer.documents material text ++ others := by
  rw [documentsWith] at built
  cases read : textOf files material with
  | error error => simp [read, bind, Except.bind] at built
  | ok text =>
      cases later : documentsWith files indexer rest with
      | error error => simp [read, later, bind, Except.bind] at built
      | ok others =>
          rw [read, later] at built
          exact ⟨text, others, rfl, rfl, (Except.ok.inj built).symm⟩

theorem documentsWith_isOk (readable : ∀ path, ∃ text, files path = .ok text)
    (indexer : LearningMaterialIndexer) (materials : List LearningMaterial) :
    ∃ documents, documentsWith files indexer materials = .ok documents := by
  induction materials with
  | nil => exact ⟨[], rfl⟩
  | cons material rest ih =>
      obtain ⟨others, later⟩ := ih
      have read : ∃ text, textOf files material = .ok text := by
        unfold textOf
        cases material.relativePath with
        | none => exact ⟨[], rfl⟩
        | some path =>
            obtain ⟨text, success⟩ := readable (textPath path)
            exact ⟨text.getD [], by simp only [success, Except.map]⟩
      obtain ⟨text, success⟩ := read
      exact ⟨indexer.documents material text ++ others, by rw [documentsWith, success, later]; rfl⟩

theorem mem_documentsWith {indexer : LearningMaterialIndexer} {materials : List LearningMaterial}
    {documents : List Document} (built : documentsWith files indexer materials = .ok documents)
    {document : Document} (member : document ∈ documents) :
    ∃ material ∈ materials, ∃ ordinal chunk, document = chunkDocument material ordinal chunk := by
  induction materials generalizing documents with
  | nil =>
      obtain rfl := Except.ok.inj built
      simp at member
  | cons material rest ih =>
      obtain ⟨text, others, _, later, rfl⟩ := documentsWith_cons built
      rcases List.mem_append.mp member with own | other
      · exact ⟨material, List.mem_cons_self, mem_documents own⟩
      · obtain ⟨source, inside, found⟩ := ih later other
        exact ⟨source, List.mem_cons_of_mem material inside, found⟩

/-- The text of each material was read, and its documents are there. -/
theorem exists_documents_subset_documentsWith {indexer : LearningMaterialIndexer}
    {materials : List LearningMaterial} {documents : List Document}
    (built : documentsWith files indexer materials = .ok documents) {material : LearningMaterial}
    (member : material ∈ materials) :
    ∃ text, textOf files material = .ok text ∧ indexer.documents material text ⊆ documents := by
  induction materials generalizing documents with
  | nil => simp at member
  | cons first rest ih =>
      obtain ⟨text, others, read, later, rfl⟩ := documentsWith_cons built
      rcases List.mem_cons.mp member with rfl | member
      · exact ⟨text, read, List.subset_append_left _ _⟩
      · obtain ⟨text', read', inside⟩ := ih later member
        exact ⟨text', read', List.subset_append_of_subset_right _ inside⟩

theorem exists_mem_documentsWith {indexer : LearningMaterialIndexer}
    {materials : List LearningMaterial} {documents : List Document}
    (built : documentsWith files indexer materials = .ok documents) {material : LearningMaterial}
    (member : material ∈ materials) :
    ∃ document ∈ documents, ∃ ordinal chunk, document = chunkDocument material ordinal chunk := by
  obtain ⟨text, _, inside⟩ := exists_documents_subset_documentsWith built member
  obtain ⟨document, own⟩ :=
    List.exists_mem_of_ne_nil _ (documents_ne_nil indexer material text)
  exact ⟨document, inside own, mem_documents own⟩

theorem nodup_documentsWith {indexer : LearningMaterialIndexer}
    {materials : List LearningMaterial} (distinct : (materials.map (·.id)).Nodup)
    {documents : List Document} (built : documentsWith files indexer materials = .ok documents) :
    (documents.map (·.id)).Nodup := by
  induction materials generalizing documents with
  | nil =>
      obtain rfl := Except.ok.inj built
      simp
  | cons material rest ih =>
      obtain ⟨absent, distinct⟩ := List.nodup_cons.mp distinct
      obtain ⟨text, others, _, later, rfl⟩ := documentsWith_cons built
      rw [List.map_append, List.nodup_append]
      refine ⟨nodup_documents indexer material text, ih distinct later, ?_⟩
      rintro _ own _ other rfl
      obtain ⟨first, inside, rfl⟩ := List.mem_map.mp own
      obtain ⟨ordinal, chunk, rfl⟩ := mem_documents inside
      obtain ⟨second, outside, same⟩ := List.mem_map.mp other
      obtain ⟨source, member, ordinal', chunk', rfl⟩ := mem_documentsWith later outside
      simp only [id_chunkDocument, documentId_inj] at same
      exact absent (List.mem_map.mpr ⟨source, member, same.2⟩)

end LearningMaterialIndexer
end LearningIndex
