/-!
# Errors of the engine

What can go wrong while the program talks to the search engine.  None of it is retried; the kind
names the operation that failed.
-/

namespace LearningIndex

/-- An error of an engine operation. -/
inductive EngineError where
  | unavailable
  /-- The engine cannot be reached, or did not tell whether it is there. -/
  | connection (text : String)
  | query (text : String)
  | scroll (text : String)
  | bulkIndex (text : String)
  | delete (text : String)
  | indexCreation (text : String)
  | pipeline (text : String)
  | parse (text : String)
  | serialization (text : String)
deriving DecidableEq, Repr

namespace EngineError

def message : EngineError → String
  | unavailable => "Search is not configured"
  | connection text => "Connection error: " ++ text
  | query text => "Query error: " ++ text
  | scroll text => "Scroll error: " ++ text
  | bulkIndex text => "Bulk index error: " ++ text
  | delete text => "Delete error: " ++ text
  | indexCreation text => "Index creation error: " ++ text
  | pipeline text => "Pipeline error: " ++ text
  | parse text => "Parse error: " ++ text
  | serialization text => "Serialization error: " ++ text

/-- The label of an error's kind, by which reports name it. -/
def label : EngineError → String
  | unavailable => "Unavailable"
  | connection _ => "ConnectionError"
  | query _ => "QueryError"
  | scroll _ => "ScrollError"
  | bulkIndex _ => "BulkIndexError"
  | delete _ => "DeleteError"
  | indexCreation _ => "IndexCreationError"
  | pipeline _ => "PipelineError"
  | parse _ => "ParseError"
  | serialization _ => "SerializationError"

/-- The error of a label; an unknown label is taken for that of a search. -/
def ofLabel (label text : String) : EngineError :=
  match label with
  | "Unavailable" => unavailable
  | "ConnectionError" => connection text
  | "ScrollError" => scroll text
  | "BulkIndexError" => bulkIndex text
  | "DeleteError" => delete text
  | "IndexCreationError" => indexCreation text
  | "PipelineError" => pipeline text
  | "ParseError" => parse text
  | "SerializationError" => serialization text
  | _ => query text

end EngineError
end LearningIndex
