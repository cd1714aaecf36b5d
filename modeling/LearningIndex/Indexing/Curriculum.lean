import LearningIndex.Engine.Mapping
import LearningIndex.Indexing.Catalog

/-!
# The curriculum index

The index holds one document per session.  An ingest pipeline of the engine records when each of
them was ingested, so that a run can pass over the courses that it has indexed already.  Hits of a
search are grouped by course.
-/

namespace LearningIndex

open Calendar (Instant)

/-- A course that a search found, with the sessions that matched. -/
structure CourseHit where
  courseId : Int
  title : String
  school : String
  year : Option Int
  score : Binary64
  sessionIds : List Int
deriving DecidableEq, Repr

/-- The course as a value, with its fields in the order in which results are shown. -/
def CourseHit.toJson (hit : CourseHit) : Json :=
  let year : Json :=
    match hit.year with
    | some year => .integer year
    | none => .null
  .object [
    ("courseId", .integer hit.courseId),
    ("title", .string hit.title),
    ("school", .string hit.school),
    ("year", year),
    ("score", .float hit.score),
    ("sessionIds", .integers hit.sessionIds)]

structure CurriculumIndexer where
  catalog : Catalog

namespace CurriculumIndexer

def indexName : String := "lms-curriculum"

def pipelineName : String := "curriculum"

def courseIdField : String := "courseId"

def sessionIdField : String := "sessionId"

/-- The field that holds the time of ingestion. -/
def ingestTimeField : String := "ingestTime"

def new (enabled : Bool) (keepAlive : String) : CurriculumIndexer :=
  ⟨⟨indexName, keepAlive, enabled⟩⟩

/-- The courses among some entities that were not ingested since the stamp. -/
def outdated (indexer : CurriculumIndexer) (entities : List Entity) (stamp : Instant) :
    Task (List CompositeCourse) := do
  let courses ← Program.ofExcept (expectAll .course Entity.course? entities)
  let skip ← indexer.catalog.skipSet courseIdField (courses.map (·.course.id))
    (some (ingestTimeField, stamp))
  return courses.filter fun composite => !skip.contains composite.course.id

def write (indexer : CurriculumIndexer) (courses : List CompositeCourse) : Task Bool :=
  indexer.catalog.write (courses.flatMap (·.documents))

/-- Indexes the courses that were not ingested since the stamp.  Says whether the engine accepted
every document. -/
def index (indexer : CurriculumIndexer) (entities : List Entity) (stamp : Instant) :
    Task Bool := do
  let courses ← indexer.outdated entities stamp
  indexer.write courses

/-- The ids of all courses in the index, ascending. -/
def allCourseIds (indexer : CurriculumIndexer) : Task (List Int) :=
  indexer.catalog.distinctIds courseIdField

/-- The ids of all sessions in the index, ascending. -/
def allSessionIds (indexer : CurriculumIndexer) : Task (List Int) :=
  indexer.catalog.distinctIds sessionIdField

/-- Removes the documents of all sessions of a course. -/
def deleteCourse (indexer : CurriculumIndexer) (id : Int) : Task Bool :=
  indexer.catalog.deleteWhere courseIdField (.integer id)

/-- Removes the document of a session. -/
def deleteSession (indexer : CurriculumIndexer) (id : Int) : Task Bool :=
  indexer.catalog.deleteWhere sessionIdField (.integer id)

/-- The fields that a search looks at, with their weights. -/
def searchedFields : List String :=
  ["courseTitle^3", "sessionTitle^3", "courseExternalId^2", "courseDirectors", "courseTerms",
    "courseObjectives", "courseMeshDescriptorNames", "sessionDescription", "sessionTerms",
    "sessionObjectives"]

/-- The query for the best matches of a text. -/
def searchQuery (text : String) (size : Nat) : Query :=
  .match_ text searchedFields
    [courseIdField, sessionIdField, "courseTitle", "school", "courseYear"] size

/-- The text of a field, empty where it is none. -/
def textField (source : Json) (field : String) : String :=
  ((source.get? field).bind Json.string?).getD ""

def integerField? (source : Json) (field : String) : Option Int :=
  (source.get? field).bind Json.signed64?

/-- One hit of a search that names its course. -/
structure SessionHit where
  courseId : Int
  source : Json
  /-- The score; zero where there is none. -/
  score : Binary64

/-- The hit that a value stands for, if its course can be read. -/
def sessionHit? (hit : Json) : Option SessionHit := do
  let source ← hit.get? "_source"
  let courseId ← integerField? source courseIdField
  let score := ((hit.get? "_score").bind Json.float?).getD (Binary64.zero false)
  return ⟨courseId, source, score⟩

/-- The entry of a course whose first hit is given, without its session. -/
def firstHit (hit : SessionHit) : CourseHit where
  courseId := hit.courseId
  title := textField hit.source "courseTitle"
  school := textField hit.source "school"
  year := integerField? hit.source "courseYear"
  score := hit.score
  sessionIds := []

/-- The entry of a course with one more hit. -/
def addHit (entry : CourseHit) (hit : SessionHit) : CourseHit :=
  { entry with
    score := entry.score.max hit.score
    sessionIds := entry.sessionIds ++ (integerField? hit.source sessionIdField).toList }

/-- The entries with one more hit: in the entry of its course, or in a new one at the end. -/
def insertHit : List CourseHit → SessionHit → List CourseHit
  | [], hit => [addHit (firstHit hit) hit]
  | entry :: rest, hit =>
    if entry.courseId = hit.courseId then addHit entry hit :: rest
    else entry :: insertHit rest hit

/-- The courses of the hits of an answer, in the order of their first hits. -/
def groupByCourse (answer : Json) : List CourseHit :=
  ((hitsOf answer).filterMap sessionHit?).foldl insertHit []

/-- The courses whose sessions match a text best. -/
def search (indexer : CurriculumIndexer) (text : String) (size : Nat) : Task (List CourseHit) := do
  let answer ← indexer.catalog.search (searchQuery text size)
  return groupByCourse answer

/-- The pipeline that records when a document was ingested. -/
def pipeline : Pipeline where
  id := pipelineName
  body :=
    let processor := Json.ofFields [
      ("field", .string ingestTimeField),
      ("value", .string "\x7b\x7b_ingest.timestamp\x7d\x7d")]
    .ofFields [
      ("description", .string "Records when a curriculum document was ingested"),
      ("processors", .array [.singleton "set" processor])]

def definition : IndexDefinition where
  name := indexName
  mapping := {
    version := "2"
    settings := [("default_pipeline", .string pipelineName)]
    properties := [
      ("id", Mapping.keyword),
      (courseIdField, Mapping.integer),
      ("school", Mapping.keywordText),
      ("schoolId", Mapping.integer),
      ("courseYear", Mapping.integer),
      ("courseTitle", Mapping.multilingualText),
      ("courseExternalId", Mapping.keywordText),
      ("clerkshipType", Mapping.keywordText),
      ("courseDirectors", Mapping.multilingualText),
      ("courseAdministrators", Mapping.multilingualText),
      ("courseTerms", Mapping.multilingualText),
      ("courseObjectives", Mapping.multilingualText),
      ("courseMeshDescriptorIds", Mapping.keyword),
      ("courseMeshDescriptorNames", Mapping.multilingualText),
      ("courseLearningMaterialTitles", Mapping.multilingualText),
      ("courseLearningMaterialDescriptions", Mapping.multilingualText),
      ("courseFileLearningMaterialIds", Mapping.integer),
      (sessionIdField, Mapping.integer),
      ("sessionTitle", Mapping.multilingualText),
      ("sessionType", Mapping.keywordText),
      ("sessionDescription", Mapping.multilingualText),
      ("sessionObjectives", Mapping.multilingualText),
      ("sessionTerms", Mapping.multilingualText),
      ("sessionMeshDescriptorIds", Mapping.keyword),
      ("sessionMeshDescriptorNames", Mapping.multilingualText),
      ("sessionLearningMaterialTitles", Mapping.multilingualText),
      ("sessionLearningMaterialDescriptions", Mapping.multilingualText),
      ("sessionFileLearningMaterialIds", Mapping.integer),
      (ingestTimeField, Mapping.date)] }
  pipeline := some pipeline

end CurriculumIndexer
end LearningIndex
