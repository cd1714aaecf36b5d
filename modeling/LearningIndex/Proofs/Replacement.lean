import LearningIndex.Proofs.Document.Wording
import LearningIndex.Proofs.Reconciliation.Succession

/-!
# Indexing a material again

Indexing writes each piece of a material in the place of the piece with the same number, and deletes
nothing.  What the index then holds of the material are its present pieces, and of the earlier ones
those whose number the present pieces do not reach: a text that has become shorter leaves its former
end behind.
-/

namespace LearningIndex
namespace LearningMaterialIndexer

variable {σ : Type} {backend : Backend σ}

/-- The index holds a document of the material with the id, and with the fields up to the time of
ingestion. -/
def HoldsPiece (backend : Backend σ) (state : σ) (material : Int) (id : String)
    (fields : Fields) : Prop :=
  ∃ document ∈ backend.documents state indexName, document.id = id ∧
    document.get? idField = some (.integer material) ∧ document.source.lasting = fields

/-- One of the documents has the id, and the fields up to the time of ingestion. -/
def IsAmong (documents : List Document) (id : String) (fields : Fields) : Prop :=
  ∃ document ∈ documents, document.id = id ∧ document.source.lasting = fields

theorem holdsPiece_iff (exact : backend.Exact) {state : σ} {material : Int} {id : String}
    {fields : Fields} :
    HoldsPiece backend state material id fields ↔
      backend.lasting state indexName id = some fields ∧
        Fields.get? idField fields = some (.integer material) := by
  constructor
  · rintro ⟨document, member, rfl, field, rfl⟩
    rw [Backend.lasting, (Backend.mem_documents_iff exact).mp member,
      Fields.get?_lasting (by decide)]
    exact ⟨rfl, field⟩
  · rintro ⟨present, field⟩
    obtain ⟨source, stored, rfl⟩ := Option.map_eq_some_iff.mp present
    rw [Fields.get?_lasting (by decide)] at field
    exact ⟨⟨id, source⟩, Backend.mem_documents_of_stored exact stored, rfl, field, rfl⟩

theorem HoldsPiece.exists_ordinal {state : σ} (orderly : Orderly backend state) {material : Int}
    {id : String} {fields : Fields} (held : HoldsPiece backend state material id fields) :
    ∃ ordinal, id = documentId ordinal material := by
  obtain ⟨document, member, rfl, field, rfl⟩ := held
  obtain ⟨other, _, piece⟩ := (orderly indexName document member).piece rfl
  obtain rfl := Document.integer_unique field piece.field
  exact piece.named

section Pieces

variable {indexer : LearningMaterialIndexer} {material : LearningMaterial} {text : ByteString}

theorem exists_mem_documents_iff {id : String} :
    (∃ piece ∈ indexer.documents material text, piece.id = id) ↔
      ∃ ordinal < (indexer.documents material text).length,
        documentId ordinal material.id = id := by
  rw [← List.mem_map (f := Document.id), map_id_documents]
  simp

theorem not_isAmong {ordinal : Nat} (beyond : (indexer.documents material text).length ≤ ordinal)
    (fields : Fields) :
    ¬IsAmong (indexer.documents material text) (documentId ordinal material.id) fields := by
  rintro ⟨piece, member, same, _⟩
  obtain ⟨other, bound, equal⟩ := exists_mem_documents_iff.mp ⟨piece, member, same⟩
  have equal := (documentId_inj.mp equal).1
  omega

/-- Once the pieces of a material are written, the index holds of the material these pieces and the
earlier ones with higher numbers. -/
theorem holdsPiece_after_iff (exact : backend.Exact) {state after : σ}
    (orderly : Orderly backend state)
    (applied : (Effect.write indexName (indexer.documents material text)).Applied backend state
      after) {id : String} {fields : Fields} :
    HoldsPiece backend after material.id id fields ↔
      IsAmong (indexer.documents material text) id fields ∨
        ∃ ordinal, (indexer.documents material text).length ≤ ordinal ∧
          id = documentId ordinal material.id ∧
            HoldsPiece backend state material.id id fields := by
  by_cases written : ∃ piece ∈ indexer.documents material text, piece.id = id
  · obtain ⟨present, bound, same⟩ := exists_mem_documents_iff.mp written
    constructor
    · intro held
      obtain ⟨piece, member, rfl⟩ := written
      have lasting := applied.written indexName _ rfl piece member
      rw [((holdsPiece_iff exact).mp held).1] at lasting
      exact .inl ⟨piece, member, rfl, (Option.some.inj lasting).symm⟩
    · rintro (⟨piece, member, rfl, rfl⟩ | ⟨ordinal, beyond, named, _⟩)
      · obtain ⟨ordinal, chunk, rfl⟩ := mem_documents member
        refine (holdsPiece_iff exact).mpr ⟨applied.written indexName _ rfl _ member, ?_⟩
        rw [Fields.get?_lasting (by decide)]
        exact get?_chunkDocument material ordinal chunk
      · have twice := (documentId_inj.mp (same.trans named)).1
        omega
  · have kept : backend.lasting after indexName id = backend.lasting state indexName id := by
      refine Backend.lasting_eq_of_stored_eq (applied.kept indexName id ?_ fun _ _ => (·))
      exact fun writes => written writes.2
    have same : HoldsPiece backend after material.id id fields ↔
        HoldsPiece backend state material.id id fields := by
      rw [holdsPiece_iff exact, holdsPiece_iff exact, kept]
    rw [same]
    constructor
    · intro held
      obtain ⟨ordinal, named⟩ := held.exists_ordinal orderly
      refine .inr ⟨ordinal, ?_, named, held⟩
      by_contra below
      exact written (exists_mem_documents_iff.mpr ⟨ordinal, Nat.lt_of_not_le below, named.symm⟩)
    · rintro (⟨piece, member, named, _⟩ | ⟨_, _, _, held⟩)
      · exact absurd ⟨piece, member, named⟩ written
      · exact held

theorem holdsPiece_after_iff_isAmong (exact : backend.Exact) {state after : σ}
    (orderly : Orderly backend state)
    (applied : (Effect.write indexName (indexer.documents material text)).Applied backend state
      after) :
    (∀ id fields, HoldsPiece backend after material.id id fields ↔
        IsAmong (indexer.documents material text) id fields) ↔
      ∀ ordinal, (indexer.documents material text).length ≤ ordinal → ∀ fields,
        ¬HoldsPiece backend state material.id (documentId ordinal material.id) fields := by
  constructor
  · intro replaced ordinal beyond fields held
    have left := (holdsPiece_after_iff exact orderly applied).mpr
      (.inr ⟨ordinal, beyond, rfl, held⟩)
    exact not_isAmong beyond fields ((replaced _ fields).mp left)
  · intro nothing id fields
    rw [holdsPiece_after_iff exact orderly applied, or_iff_left]
    rintro ⟨ordinal, beyond, rfl, held⟩
    exact nothing ordinal beyond fields held

end Pieces

/-- Indexing a material alone and by force writes its present pieces. -/
theorem applied_of_index_forced (exact : backend.Exact) {state after : σ} {keepAlive : String}
    {uploadLimit : Nat} {material : LearningMaterial}
    (success : ((LearningMaterialIndexer.new true keepAlive uploadLimit).index
      [.learningMaterial material] true).run backend.serve state = (.ok true, after)) :
    ∃ text, textOf backend.files material = .ok text ∧
      (Effect.write indexName ((LearningMaterialIndexer.new true keepAlive uploadLimit).documents
        material text)).Applied backend state after := by
  have ends := (index_forced_ensures exact (.new true keepAlive uploadLimit) rfl [material]
    state).run backend.sameDocuments_refl
  rw [List.map_singleton, success] at ends
  obtain ⟨documents, built, applied⟩ := ends rfl
  have written := applied (List.nodup_singleton material.id)
  obtain ⟨text, others, read, nothing, rfl⟩ := documentsWith_cons built
  obtain rfl := Except.ok.inj nothing
  rw [List.append_nil] at written
  exact ⟨text, read, written⟩

/-- Indexing a material alone and by force leaves its present pieces and the earlier ones with
higher numbers, hence nothing but its present pieces exactly if there are no such earlier ones. -/
theorem index_forced_leaves (exact : backend.Exact) {state after : σ}
    (reachable : Reachable backend state) {keepAlive : String} {uploadLimit : Nat}
    {material : LearningMaterial}
    (success : ((LearningMaterialIndexer.new true keepAlive uploadLimit).index
      [.learningMaterial material] true).run backend.serve state = (.ok true, after)) :
    ∃ text pieces, textOf backend.files material = .ok text ∧
      pieces = (LearningMaterialIndexer.new true keepAlive uploadLimit).documents material text ∧
        (∀ id fields, HoldsPiece backend after material.id id fields ↔
          IsAmong pieces id fields ∨
            ∃ ordinal, pieces.length ≤ ordinal ∧ id = documentId ordinal material.id ∧
              HoldsPiece backend state material.id id fields) ∧
          ((∀ id fields, HoldsPiece backend after material.id id fields ↔
              IsAmong pieces id fields) ↔
            ∀ ordinal, pieces.length ≤ ordinal → ∀ fields,
              ¬HoldsPiece backend state material.id (documentId ordinal material.id) fields) := by
  obtain ⟨text, read, applied⟩ := applied_of_index_forced exact success
  have orderly := reachable.orderly exact
  exact ⟨text, _, read, rfl, fun id fields => holdsPiece_after_iff exact orderly applied,
    holdsPiece_after_iff_isAmong exact orderly applied⟩

namespace Sample

/-- An indexer whose pieces have at most six bytes. -/
def short : LearningMaterialIndexer := .new true "1m" 10

/-- The text of the lecture at first: two pieces. -/
def formerText : ByteString := [0x61, 0x62, 0x63, 0x64, 0x65, 0x66, 0x67]

/-- The text of the lecture now: one piece. -/
def presentText : ByteString := [0x61, 0x62, 0x63]

def everywhere (text : ByteString) : String → Except IndexingError (Option ByteString) :=
  fun _ => .ok (some text)

/-- The engine in memory once it has the lecture with its former text. -/
noncomputable def filled (files : String → Except IndexingError (Option ByteString)) : Memory :=
  ((Memory.backend files).serve
    (.engine (.bulk ((short.documents lecture formerText).map (.index indexName))))
      (.blank .epoch)).2

theorem reachable_filled (files : String → Except IndexingError (Option ByteString)) :
    Reachable (Memory.backend files) (filled files) := by
  have nothing : Reachable (Memory.backend files) (.blank .epoch) := .empty fun _ => rfl
  have fits : Snapshot.Fits { learningMaterials := [lecture] } := ⟨by decide, by decide, by decide⟩
  have built : documentsWith (everywhere formerText) short [lecture] =
      .ok (short.documents lecture formerText ++ []) := rfl
  rw [List.append_nil] at built
  exact nothing.handling fits "1m" 10 (.indexLearningMaterials [7] true)
    (asks_bulk "1m" 10 built (documents_ne_nil short lecture formerText))

theorem holdsPiece_filled (files : String → Except IndexingError (Option ByteString)) :
    ∃ fields, HoldsPiece (Memory.backend files) (filled files) lecture.id
      (documentId 1 lecture.id) fields := by
  have pieces : Chunk.split short.maxChunkSize formerText =
      [[0x61, 0x62, 0x63, 0x64, 0x65, 0x66], [0x67]] := by
    decide +kernel
  have applied : (Effect.write indexName (short.documents lecture formerText)).Applied
      (Memory.backend files) (.blank .epoch) (filled files) :=
    Effect.applied_bulk (Memory.exact_backend files) (nodup_documents short lecture formerText)
      rfl rfl
  have member : chunkDocument lecture 1 [0x67] ∈ short.documents lecture formerText := by
    simp [documents, pieces]
  have present := applied.written indexName _ rfl _ member
  rw [id_chunkDocument] at present
  refine ⟨_, (holdsPiece_iff (Memory.exact_backend files)).mpr ⟨present, ?_⟩⟩
  rw [Fields.get?_lasting (by decide)]
  exact get?_chunkDocument lecture 1 [0x67]

theorem index_filled (text : ByteString) :
    (short.index [.learningMaterial lecture] true).run (Memory.backend (everywhere text)).serve
      (filled (everywhere text)) = (.ok true,
        ((short.index [.learningMaterial lecture] true).run (Memory.backend (everywhere text)).serve
          (filled (everywhere text))).2) := by
  have fits : ∀ material ∈ [lecture], Json.isSigned64 material.id = true := by decide
  have ends := (index_ensures (Memory.exact_backend (everywhere text)) short rfl fits true
    (filled (everywhere text))).run (Memory.backend (everywhere text)).sameDocuments_refl
  exact Prod.ext (ends.succeeds (Memory.neverFails_backend _) fun _ => ⟨_, rfl⟩) rfl

theorem length_presentPieces : (short.documents lecture presentText).length = 1 := by
  decide +kernel

/-- What the index holds of the lecture after it was indexed with a shorter text. -/
theorem index_forced_leaves_lecture :
    Reachable (Memory.backend (everywhere presentText)) (filled (everywhere presentText)) ∧
      ∃ after : Memory, (short.index [.learningMaterial lecture] true).run
          (Memory.backend (everywhere presentText)).serve (filled (everywhere presentText)) =
            (.ok true, after) ∧
        ∀ id fields,
          HoldsPiece (Memory.backend (everywhere presentText)) after lecture.id id fields ↔
            IsAmong (short.documents lecture presentText) id fields ∨
              ∃ ordinal, 1 ≤ ordinal ∧ id = documentId ordinal lecture.id ∧
                HoldsPiece (Memory.backend (everywhere presentText))
                  (filled (everywhere presentText)) lecture.id id fields := by
  have reachable := reachable_filled (everywhere presentText)
  obtain ⟨text, pieces, read, rfl, leaves, _⟩ := index_forced_leaves
    (Memory.exact_backend (everywhere presentText)) reachable (index_filled presentText)
  obtain rfl : presentText = text := Except.ok.inj read
  rw [show ((LearningMaterialIndexer.new true "1m" 10).documents lecture presentText).length = 1
    from length_presentPieces] at leaves
  exact ⟨reachable, _, index_filled presentText, leaves⟩

/-- After the lecture was indexed with a shorter text, the index still holds the end of the longer
one. -/
theorem exists_leftover :
    ∃ state after : Memory, Reachable (Memory.backend (everywhere presentText)) state ∧
      (short.index [.learningMaterial lecture] true).run
          (Memory.backend (everywhere presentText)).serve state = (.ok true, after) ∧
        textOf (everywhere presentText) lecture = .ok presentText ∧
          ¬∀ id fields, HoldsPiece (Memory.backend (everywhere presentText)) after lecture.id id
            fields ↔ IsAmong (short.documents lecture presentText) id fields := by
  have exact := Memory.exact_backend (everywhere presentText)
  have reachable := reachable_filled (everywhere presentText)
  refine ⟨_, _, reachable, index_filled presentText, rfl, fun replaced => ?_⟩
  obtain ⟨text, read, applied⟩ := applied_of_index_forced exact (index_filled presentText)
  obtain rfl := Except.ok.inj read
  obtain ⟨fields, held⟩ := holdsPiece_filled (everywhere presentText)
  exact (holdsPiece_after_iff_isAmong exact (reachable.orderly exact) applied).mp replaced 1
    length_presentPieces.le fields held

end Sample

end LearningMaterialIndexer
end LearningIndex
