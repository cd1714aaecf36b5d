import LearningIndex.Engine.Bulk
import LearningIndex.Engine.Query
import LearningIndex.Engine.Reply

/-!
# Calls to the engine

The operations that the program uses, and what each of them answers when it succeeds.
-/

namespace LearningIndex

/-- An operation of the search engine. -/
inductive EngineCall where
  | search (request : SearchRequest)
  | scroll (scrollId keepAlive : String)
  | clearScroll (scrollId : String)
  | bulk (operations : List BulkOperation)
  | deleteByQuery (index : String) (query : Query)
  | indexExists (index : String)
  | createIndex (index : String) (body : Json)
  | deleteIndex (index : String)
  | putPipeline (id : String) (body : Json)
  | health

/-- What an operation answers when it succeeds. -/
@[reducible]
def EngineCall.Answer : EngineCall → Type
  | search _ => Json
  | scroll _ _ => Json
  | clearScroll _ => Unit
  | bulk _ => BulkReply
  | deleteByQuery _ _ => DeleteReply
  | indexExists _ => Bool
  | createIndex _ _ => Unit
  | deleteIndex _ => Unit
  | putPipeline _ _ => Unit
  | health => Bool

end LearningIndex
