import LearningIndex.Engine.Error
import LearningIndex.Entity.Kind

/-!
# Errors of indexing

What can go wrong while documents are built, written or brought up to date.
-/

namespace LearningIndex

/-- An error of indexing. -/
inductive IndexingError where
  | searchUnavailable
  | invalidInput (expected found : EntityKind)
  | textNormalization (entityId text : String)
  | engine (error : EngineError)
  | content (text : String)
  | repository (text : String)
  | dispatch (text : String)
  | messageTooLarge (most provided : Nat)
deriving DecidableEq, Repr

namespace IndexingError

def message : IndexingError → String
  | searchUnavailable => "Search is not configured, there is nothing to index into"
  | invalidInput expected found =>
    "Expected " ++ expected.label ++ ", found " ++ found.label
  | textNormalization entityId text =>
    "Unable to normalize text for " ++ entityId ++ ": " ++ text
  | engine error => "Search error: " ++ error.message
  | content text => "Content provider error: " ++ text
  | repository text => "Repository error: " ++ text
  | dispatch text => "Dispatch error: " ++ text
  | messageTooLarge most provided =>
    "Message carries " ++ Text.decimalString provided ++ " ids, at most "
      ++ Text.decimalString most ++ " are allowed"

/-- The label of an error's kind, by which reports name it. -/
def label : IndexingError → String
  | searchUnavailable => "SearchUnavailable"
  | invalidInput _ _ => "InvalidInput"
  | textNormalization _ _ => "TextNormalization"
  | engine _ => "EngineRequest"
  | content _ => "ContentProviderError"
  | repository _ => "RepositoryError"
  | dispatch _ => "DispatchError"
  | messageTooLarge _ _ => "MessageTooLarge"

end IndexingError

/-- The entities as what an indexer of one kind accepts; `accept` takes those of the expected kind.
The first of another kind makes the whole call fail. -/
def expectAll {α : Type} (expected : EntityKind) (accept : Entity → Option α) :
    List Entity → Except IndexingError (List α)
  | [] => .ok []
  | entity :: rest =>
    match accept entity with
    | some accepted => (expectAll expected accept rest).map (accepted :: ·)
    | none => .error (.invalidInput expected entity.kind)

end LearningIndex
