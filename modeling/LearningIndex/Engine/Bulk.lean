import LearningIndex.Entity.Document
import LearningIndex.Json.Printer

/-!
# Bulk requests

Many documents are written by one request.  Each is announced by an action that names its index and
its id.  The body of the request has a line for each action and, after it, a line for the document.
-/

namespace LearningIndex

/-- The announcement of a document. -/
structure BulkAction where
  index : String
  id : String
deriving DecidableEq, Repr

/-- The action as a value. -/
def BulkAction.toJson (action : BulkAction) : Json :=
  .singleton "index" (.ofFields [("_index", .string action.index), ("_id", .string action.id)])

/-- An action and its document. -/
structure BulkOperation where
  action : BulkAction
  document : Fields

namespace BulkOperation

/-- The operation that writes a document to an index. -/
def index (name : String) (document : Document) : BulkOperation :=
  ⟨⟨name, document.id⟩, document.source⟩

/-- The two values of an operation, the action first. -/
def lines (operation : BulkOperation) : List Json :=
  [operation.action.toJson, .object operation.document]

/-- The body of a bulk request: each value on a line of its own. -/
def body (operations : List BulkOperation) : List Char :=
  (operations.flatMap lines).flatMap fun line => line.render ++ ['\n']

end BulkOperation
end LearningIndex
