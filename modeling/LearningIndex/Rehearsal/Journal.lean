import LearningIndex.Indexing.Curriculum
import LearningIndex.Indexing.MessageJson
import LearningIndex.Rehearsal.Script

/-!
# Journals in JSON

What was asked of the services in a rehearsal, as values, and the scripts of answers.  A script is
an object with a list of answers for each part; the names of the indexes that exist stand beside
them.
-/

namespace LearningIndex
namespace Rehearsal

def callFields : EngineCall → List (String × Json)
  | .search request =>
    [("call", .string "search"), ("index", .string request.index), ("body", request.query.body),
      ("scroll", .optionalString request.scroll)]
  | .scroll scrollId keepAlive =>
    [("call", .string "scroll"), ("scroll_id", .string scrollId),
      ("keep_alive", .string keepAlive)]
  | .clearScroll scrollId => [("call", .string "clear_scroll"), ("scroll_id", .string scrollId)]
  | .bulk operations =>
    [("call", .string "bulk"),
      ("operations", .array (operations.map fun operation => .array operation.lines))]
  | .deleteByQuery index query =>
    [("call", .string "delete_by_query"), ("index", .string index), ("body", query.body)]
  | .indexExists index => [("call", .string "index_exists"), ("index", .string index)]
  | .createIndex index body =>
    [("call", .string "create_index"), ("index", .string index), ("body", body)]
  | .deleteIndex index => [("call", .string "delete_index"), ("index", .string index)]
  | .putPipeline id body => [("call", .string "put_pipeline"), ("id", .string id), ("body", body)]
  | .health => [("call", .string "health_check")]

def Entry.toJson : Entry → Json
  | engine call => .ofFields (callFields call)
  | file path => .ofFields [("call", .string "read"), ("path", .string path)]
  | expand courseId => .ofFields [("call", .string "expand"), ("course", .integer courseId)]
  | dispatch message => .ofFields [("call", .string "dispatch"), ("message", message.toJson)]

def part? : String → Option Part
  | "search" => some .search
  | "scroll" => some .scroll
  | "clear_scroll" => some .clearScroll
  | "bulk" => some .bulk
  | "delete_by_query" => some .deleteByQuery
  | "index_exists" => some .indexExists
  | "create_index" => some .createIndex
  | "delete_index" => some .deleteIndex
  | "put_pipeline" => some .putPipeline
  | "health_check" => some .health
  | _ => none

/-- The line that a value stands for: an error by its label, or the answer. -/
def Line.ofJson (value : Json) : Line :=
  match (value.get? "fail").bind Json.string? with
  | some label => failure (.ofLabel label (((value.get? "message").bind Json.string?).getD ""))
  | none => .value ((value.get? "reply").getD .null)

def linesOf (script : Json) : List (Part × Line) :=
  ((script.object?).getD []).flatMap fun (name, answers) =>
    match part? name with
    | some part => ((answers.array?).getD []).map fun answer => (part, Line.ofJson answer)
    | none => []

def existingIndexes (script : Json) : List String :=
  (((script.get? "existing").bind Json.array?).getD []).filterMap Json.string?

/-- The stage with a script after its own and with more indexes. -/
def Stage.extend (stage : Stage) (script : Json) : Stage :=
  { stage with
    script := stage.script ++ linesOf script
    indexes := stage.indexes ++ existingIndexes script }

/-- Indexes courses, and notes each course of which documents are built. -/
def Stage.indexCourses (stage : Stage) (indexer : CurriculumIndexer) (entities : List Entity)
    (stamp : Calendar.Instant) : Except IndexingError Bool × Stage :=
  match stage.perform (indexer.outdated entities stamp) with
  | (.error error, stage) => (.error error, stage)
  | (.ok courses, stage) =>
    let noted := courses.foldl
      (fun stage composite => stage.note (.expand composite.course.id)) stage
    noted.perform (indexer.write courses)

end Rehearsal
end LearningIndex
