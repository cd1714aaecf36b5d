import LearningIndex.Bytes.Chunk
import LearningIndex.Engine.Mapping
import LearningIndex.Indexing.Catalog
import LearningIndex.Text.Cleaning

/-!
# The index of learning materials

The extracted text of a material's file is split into pieces that are small enough to upload.  Each
piece is cleaned and becomes a document, which repeats the title, the description and the file name.
A material without a file text still has one document.
-/

namespace LearningIndex

structure LearningMaterialIndexer where
  catalog : Catalog
  /-- The largest number of bytes of file text in one document. -/
  maxChunkSize : Nat

namespace LearningMaterialIndexer

def indexName : String := "lms-learning-materials"

def idField : String := "learningMaterialId"

/-- The share of the upload limit that the file text of one document may take. -/
def chunkShare : Binary64 :=
  (Binary64.ofRatio? false 6 10).getD (Binary64.zero false)

/-- The chunk size for an upload limit; at least one byte. -/
def chunkSizeFor (uploadLimit : Nat) : Nat :=
  match (Binary64.ofNat uploadLimit).mul? chunkShare with
  | some size => max size.floor 1
  | none => 1

def new (enabled : Bool) (keepAlive : String) (uploadLimit : Nat) : LearningMaterialIndexer :=
  ⟨⟨indexName, keepAlive, enabled⟩, chunkSizeFor uploadLimit⟩

/-- The id of the document of one piece. -/
def documentId (chunk : Nat) (materialId : Int) : String :=
  "lm_" ++ Text.decimalString chunk ++ "_" ++ Text.signedDecimalString materialId

/-- The text of a piece as it is indexed. -/
def contentsOf (chunk : ByteString) : String :=
  String.ofList (Text.clean (Utf8.lossy chunk))

def chunkDocument (material : LearningMaterial) (ordinal : Nat) (chunk : ByteString) : Document :=
  (Document.new (documentId ordinal material.id)).setAll [
    (idField, .integer material.id),
    ("title", .string material.title),
    ("description", .optionalString material.description),
    ("filename", .optionalString material.filename),
    ("contents", .string (contentsOf chunk))]

/-- The documents of a material with the given file text. -/
def documents (indexer : LearningMaterialIndexer) (material : LearningMaterial)
    (fileText : ByteString) : List Document :=
  (Chunk.split indexer.maxChunkSize fileText).mapIdx (chunkDocument material)

/-- The storage path of the extracted text for the path of a file. -/
def textPath (relativePath : String) : String :=
  "learning_material_texts/" ++ relativePath

/-- The file text of a material; without a path nothing is read. -/
def fileText (material : LearningMaterial) : Task ByteString :=
  match material.relativePath with
  | none => .done (.ok [])
  | some path => do
    let found ← Task.file (textPath path)
    return found.getD []

/-- The documents of some materials, whose files are read one after the other. -/
def documentsOf (indexer : LearningMaterialIndexer) : List LearningMaterial → Task (List Document)
  | [] => .done (.ok [])
  | material :: rest => do
    let text ← fileText material
    let others ← indexer.documentsOf rest
    return indexer.documents material text ++ others

/-- The materials that need no indexing: none if forced, else those that the index holds. -/
def skipped (indexer : LearningMaterialIndexer) (materials : List LearningMaterial)
    (force : Bool) : Task (SkipSet Int) :=
  if force then .done (.ok .empty)
  else indexer.catalog.skipSet idField (materials.map (·.id)) none

/-- Indexes learning materials, the present ones only if forced.  Says whether the engine accepted
every document. -/
def index (indexer : LearningMaterialIndexer) (entities : List Entity) (force : Bool) :
    Task Bool := do
  indexer.catalog.requireEngine
  let materials ← Program.ofExcept (expectAll .learningMaterial Entity.learningMaterial? entities)
  let skip ← indexer.skipped materials force
  let documents ← indexer.documentsOf (materials.filter fun material => !skip.contains material.id)
  indexer.catalog.write documents

def allIds (indexer : LearningMaterialIndexer) : Task (List Int) :=
  indexer.catalog.distinctIds idField

/-- Removes all documents of a material. -/
def delete (indexer : LearningMaterialIndexer) (id : Int) : Task Bool :=
  indexer.catalog.deleteWhere idField (.integer id)

def definition : IndexDefinition where
  name := indexName
  mapping := {
    version := "2"
    properties := [
      ("id", Mapping.keyword),
      (idField, Mapping.integer),
      ("title", Mapping.multilingualText),
      ("description", Mapping.multilingualText),
      ("filename", Mapping.keywordText),
      ("contents", Mapping.multilingualText)] }

end LearningMaterialIndexer
end LearningIndex
