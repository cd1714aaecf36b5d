import LearningIndex.Command.Error
import LearningIndex.Engine.Settings
import LearningIndex.Number.Word
import LearningIndex.Text.Basic

/-!
# Settings

What the environment says about the search engine and the data.  A variable that is blank counts as
one that is not set.
-/

namespace LearningIndex

/-- What a command works with. -/
structure Settings where
  search : SearchSettings := {}
  /-- The directory of the snapshots and the extracted texts. -/
  dataDirectory : String := "./data"
  jsonLog : Bool := false
deriving DecidableEq, Repr

namespace Settings

def uploadLimitOf (raw : String) : Except RunError Nat :=
  match Word.unsigned64 (Text.trim raw.toList) with
  | .error fault =>
    .error (.config ("Invalid SEARCH_UPLOAD_LIMIT '" ++ raw ++ "': " ++ fault.message))
  | .ok 0 => .error (.config "SEARCH_UPLOAD_LIMIT must be positive")
  | .ok limit => .ok limit

/-- Whether a log format is that of JSON, in upper or lower case. -/
def isJsonFormat (format : String) : Bool :=
  Text.lowerAscii format.toList == "json".toList

/-- The settings in an environment, which is given by the values of its variables. -/
def ofEnvironment (value? : String → Option String) : Except RunError Settings := do
  let given (name : String) : Option String :=
    (value? name).filter fun text => !Text.isAllBlank text.toList
  let default : SearchSettings := {}
  let uploadLimit ←
    match given "SEARCH_UPLOAD_LIMIT" with
    | some raw => uploadLimitOf raw
    | none => .ok default.uploadLimit
  return {
    search := {
      url := given "OPENSEARCH_URL"
      username := given "OPENSEARCH_USERNAME"
      password := given "OPENSEARCH_PASSWORD"
      uploadLimit
      scrollKeepAlive := (given "SEARCH_SCROLL_KEEP_ALIVE").getD default.scrollKeepAlive }
    dataDirectory := (given "LMS_DATA_DIR").getD "./data"
    jsonLog := (given "LOG_FORMAT").any isJsonFormat }

end Settings
end LearningIndex
