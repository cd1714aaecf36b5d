import LearningIndex.Batch
import LearningIndex.Indexing.Service

/-!
# Catalogs

A catalog is the view of one index that the indexers share: which of some entities it holds, the ids
of all its documents, writing many documents, searching, and deleting by the value of a field.  A
catalog without an engine is disabled, and each of its operations fails before anything is asked.

The ids of all documents come in pages.  The pages are fetched until one is empty, and the context
that the engine keeps for them is released whatever happens.
-/

namespace LearningIndex

open Calendar (Instant)

/-- The view of one index. -/
structure Catalog where
  index : String
  keepAlive : String
  enabled : Bool

/-- What a visitor of ids wants after an id. -/
inductive Visit (σ : Type) where
  /-- To see the next one. -/
  | proceed (state : σ)
  /-- To see no more. -/
  | halt (state : σ)

/-- How a walk over all ids ended. -/
structure Walk (σ : Type) where
  state : σ
  /-- The id of the scroll context that the engine gave last. -/
  scrollId : Option String
  outcome : Except IndexingError Unit

namespace Catalog

/-- The largest number of pages that are followed, far more than an index can have. -/
def pageLimit : Nat := 0x10000000000000000

/-- Fails if there is no engine. -/
def requireEngine (catalog : Catalog) : Task Unit :=
  if catalog.enabled then .done (.ok ()) else .fail .searchUnavailable

/-- The ids that the answers to searches for batches of candidates list. -/
def foundIn {κ : Type} [Key κ] (catalog : Catalog) (field : String)
    (since : Option (String × Instant)) : List (List κ) → Task (List κ)
  | [] => .done (.ok [])
  | batch :: rest => do
    let query := Query.indexed field (batch.map Key.toJson) since
    let answer ← Task.engine (.search ⟨catalog.index, query, none⟩)
    let found ← Program.ofExcept ((aggregationKeys answer field).mapError .engine)
    let others ← foundIn catalog field since rest
    return found ++ others

/-- The candidates that the index holds, under `field`.  With a stamp and the name of its field,
only documents ingested at or after it count. -/
def skipSet {κ : Type} [DecidableEq κ] [Key κ] (catalog : Catalog) (field : String)
    (candidates : List κ) (since : Option (String × Instant)) : Task (SkipSet κ) := do
  catalog.requireEngine
  let found ← catalog.foundIn field since (batches Query.answerLimit candidates)
  return SkipSet.ofCandidates candidates found

/-- The bulk operations that write documents to the index. -/
def operations (catalog : Catalog) (documents : List Document) : List BulkOperation :=
  documents.map (BulkOperation.index catalog.index)

/-- Writes documents by one request; says whether every item was accepted.  Nothing is asked for an
empty list. -/
def write (catalog : Catalog) (documents : List Document) : Task Bool := do
  catalog.requireEngine
  if documents.isEmpty then return true
  let reply ← Task.engine (.bulk (catalog.operations documents))
  return !reply.errors

/-- Shows the readable ids of some sources to a visitor. -/
def visitSources {κ σ : Type} [Key κ] (field : String) (visit : σ → κ → Visit σ) :
    σ → List Json → Visit σ
  | state, [] => .proceed state
  | state, source :: rest =>
    match sourceField? source field with
    | some id =>
      match visit state id with
      | .proceed state => visitSources field visit state rest
      | .halt state => .halt state
    | none => visitSources field visit state rest

/-- Shows the ids of a page and of the pages after it to a visitor, following a bounded number of
pages. -/
def walkPages {κ σ : Type} [Key κ] (catalog : Catalog) (field : String)
    (visit : σ → κ → Visit σ) :
    Nat → ScrollPage → Option String → σ → Program services IndexingError (Walk σ)
  | 0, _, scrollId, state =>
    .done (.ok ⟨state, scrollId, .error (.engine (.scroll "Too many pages"))⟩)
  | pages + 1, page, scrollId, state =>
    if page.isEmpty then .done (.ok ⟨state, scrollId, .ok ()⟩)
    else
      match visitSources field visit state page.sources with
      | .halt state => .done (.ok ⟨state, scrollId, .ok ()⟩)
      | .proceed state =>
        match scrollId with
        | none => .done (.ok ⟨state, none, .ok ()⟩)
        | some current =>
          .ask (.engine (.scroll current catalog.keepAlive))
            fun (reply : Except EngineError Json) =>
              match reply with
              | .error error => .done (.ok ⟨state, some current, .error (.engine error)⟩)
              | .ok answer =>
                let next := ScrollPage.ofAnswer answer
                walkPages catalog field visit pages next (next.scrollId <|> some current) state

/-- Releases the scroll context of a walk, if there is one; a failure of this is of no account. -/
def release {σ : Type} (walk : Walk σ) : Program services IndexingError (Walk σ) :=
  match walk.scrollId with
  | none => .done (.ok walk)
  | some scrollId => .ask (.engine (.clearScroll scrollId)) fun _ => .done (.ok walk)

/-- Shows the `field` value of every document of the index to a visitor, until it halts, following
a bounded number of pages. -/
def visitWithin {κ σ : Type} [Key κ] (catalog : Catalog) (pages : Nat) (field : String)
    (visit : σ → κ → Visit σ) (start : σ) : Program services IndexingError (Walk σ) :=
  if catalog.enabled then
    .ask (.engine (.search ⟨catalog.index, .everything field, some catalog.keepAlive⟩))
      fun (reply : Except EngineError Json) =>
        match reply with
        | .error error => .done (.ok ⟨start, none, .error (.engine error)⟩)
        | .ok answer =>
          let page := ScrollPage.ofAnswer answer
          (catalog.walkPages field visit pages page page.scrollId start).andThen release
  else .done (.ok ⟨start, none, .error .searchUnavailable⟩)

/-- Shows the `field` value of every document of the index to a visitor, until it halts. -/
def visitIds {κ σ : Type} [Key κ] (catalog : Catalog) (field : String)
    (visit : σ → κ → Visit σ) (start : σ) : Program services IndexingError (Walk σ) :=
  catalog.visitWithin pageLimit field visit start

/-- Keeps the ids that it sees, and halts when it has as many as the limit says, if there is one. -/
def keep {κ : Type} (limit : Option Nat) (ids : List κ) (id : κ) : Visit (List κ) :=
  let kept := ids ++ [id]
  if limit = some kept.length then .halt kept else .proceed kept

/-- The `field` values of all documents of the index, in the order in which the engine lists
them. -/
def allIds {κ : Type} [Key κ] (catalog : Catalog) (field : String) : Task (List κ) := do
  let collect (ids : List κ) (id : κ) : Visit (List κ) := .proceed (id :: ids)
  let walk ← catalog.visitIds field collect []
  Program.ofExcept walk.outcome
  return walk.state.reverse

/-- Integers in ascending order, each once. -/
def ascending (ids : List Int) : List Int :=
  (ids.mergeSort fun left right => left ≤ right).eraseReps

/-- The integers in a field of the documents of the index, ascending, each once. -/
def distinctIds (catalog : Catalog) (field : String) : Task (List Int) := do
  let ids ← catalog.allIds field
  return ascending ids

def search (catalog : Catalog) (query : Query) : Task Json := do
  catalog.requireEngine
  Task.engine (.search ⟨catalog.index, query, none⟩)

/-- Deletes the documents with a value in a field; says whether all of them went. -/
def deleteWhere (catalog : Catalog) (field : String) (value : Json) : Task Bool := do
  catalog.requireEngine
  let reply ← Task.engine (.deleteByQuery catalog.index (.term field value))
  return reply.isClean

end Catalog
end LearningIndex
