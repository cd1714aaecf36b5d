import LearningIndex.Indexing.Error

/-!
# Errors of a run

Why a command ends without success, and the exit status of the process.
-/

namespace LearningIndex

/-- Why a command failed. -/
inductive RunError where
  | config (text : String)
  | indexing (error : IndexingError)
  | engine (error : EngineError)
  /-- Input or output failed. -/
  | system (text : String)
  /-- Some messages failed or were never handled. -/
  | incomplete (failed abandoned total : Nat)
  /-- Every message was handled, but the engine rejected some items. -/
  | degraded (rejected total : Nat)
deriving DecidableEq, Repr

namespace RunError

def message : RunError → String
  | config text => "Configuration error: " ++ text
  | indexing error => "Pipeline error: " ++ error.message
  | engine error => "Search error: " ++ error.message
  | system text => "IO error: " ++ text
  | incomplete failed abandoned total =>
    Text.decimalString failed ++ " failed and " ++ Text.decimalString abandoned
      ++ " abandoned of " ++ Text.decimalString total ++ " messages"
  | degraded rejected total =>
    Text.decimalString rejected ++ " of " ++ Text.decimalString total
      ++ " messages had item failures"

/-- The label of an error's kind, by which reports name it. -/
def label : RunError → String
  | config _ => "ConfigError"
  | indexing _ => "PipelineError"
  | engine _ => "SearchError"
  | system _ => "IoError"
  | incomplete _ _ _ => "IncompleteRun"
  | degraded _ _ => "DegradedRun"

def exitCode : RunError → Nat
  | degraded _ _ => 2
  | _ => 1

end RunError
end LearningIndex
