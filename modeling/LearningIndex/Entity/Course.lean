import LearningIndex.Entity.Document
import LearningIndex.Json.Record

/-!
# Courses and sessions

A course comes with its sessions.  It is indexed as one document per session, each of which repeats
the fields of the course, so that a hit on a session leads back to its course.
-/

namespace LearningIndex

/-- What is known of a course without its sessions. -/
structure Course where
  id : Int := 0
  title : String := ""
  schoolId : Int := 0
  schoolTitle : String := ""
  year : Int := 0
  externalId : Option String := none
  /-- The kind of clerkship, if it is one. -/
  clerkshipType : Option String := none
  directors : List String := []
  administrators : List String := []
  terms : List String := []
  objectives : List String := []
  meshDescriptorIds : List String := []
  meshDescriptorNames : List String := []
  learningMaterialTitles : List String := []
  learningMaterialDescriptions : List String := []
  /-- The ids of the learning materials that have a file. -/
  fileLearningMaterialIds : List Int := []
deriving DecidableEq, Repr

namespace Course

/-- The names of the fields in JSON, in their declared order. -/
def fieldNames : List String :=
  ["id", "title", "schoolId", "schoolTitle", "year", "externalId", "clerkshipType", "directors",
    "administrators", "terms", "objectives", "meshDescriptorIds", "meshDescriptorNames",
    "learningMaterialTitles", "learningMaterialDescriptions", "fileLearningMaterialIds"]

/-- The course that a literal stands for; every field has a default. -/
def ofLiteral? (literal : Literal) : Option Course := do
  let record ← literal.record? fieldNames
  let id ← record.withDefault "id" Literal.signed64? 0
  let title ← record.text "title"
  let schoolId ← record.withDefault "schoolId" Literal.signed64? 0
  let schoolTitle ← record.text "schoolTitle"
  let year ← record.withDefault "year" Literal.signed32? 0
  let externalId ← record.optionalText "externalId"
  let clerkshipType ← record.optionalText "clerkshipType"
  let directors ← record.texts "directors"
  let administrators ← record.texts "administrators"
  let terms ← record.texts "terms"
  let objectives ← record.texts "objectives"
  let meshDescriptorIds ← record.texts "meshDescriptorIds"
  let meshDescriptorNames ← record.texts "meshDescriptorNames"
  let learningMaterialTitles ← record.texts "learningMaterialTitles"
  let learningMaterialDescriptions ← record.texts "learningMaterialDescriptions"
  let fileLearningMaterialIds ← record.integers "fileLearningMaterialIds"
  return {
    id, title, schoolId, schoolTitle, year, externalId, clerkshipType, directors,
    administrators, terms, objectives, meshDescriptorIds, meshDescriptorNames,
    learningMaterialTitles, learningMaterialDescriptions, fileLearningMaterialIds }

def toJson (course : Course) : Json :=
  .ofFields [
    ("id", .integer course.id),
    ("title", .string course.title),
    ("schoolId", .integer course.schoolId),
    ("schoolTitle", .string course.schoolTitle),
    ("year", .integer course.year),
    ("externalId", .optionalString course.externalId),
    ("clerkshipType", .optionalString course.clerkshipType),
    ("directors", .strings course.directors),
    ("administrators", .strings course.administrators),
    ("terms", .strings course.terms),
    ("objectives", .strings course.objectives),
    ("meshDescriptorIds", .strings course.meshDescriptorIds),
    ("meshDescriptorNames", .strings course.meshDescriptorNames),
    ("learningMaterialTitles", .strings course.learningMaterialTitles),
    ("learningMaterialDescriptions", .strings course.learningMaterialDescriptions),
    ("fileLearningMaterialIds", .integers course.fileLearningMaterialIds)]

/-- The fields of the course in the document of a session. -/
def documentFields (course : Course) : List (String × Json) :=
  [("courseId", .integer course.id),
    ("school", .string course.schoolTitle),
    ("schoolId", .integer course.schoolId),
    ("courseYear", .integer course.year),
    ("courseTitle", .string course.title),
    ("courseExternalId", .optionalString course.externalId),
    ("clerkshipType", .optionalString course.clerkshipType),
    ("courseDirectors", .strings course.directors),
    ("courseAdministrators", .strings course.administrators),
    ("courseTerms", .strings course.terms),
    ("courseObjectives", .strings course.objectives),
    ("courseMeshDescriptorIds", .strings course.meshDescriptorIds),
    ("courseMeshDescriptorNames", .strings course.meshDescriptorNames),
    ("courseLearningMaterialTitles", .strings course.learningMaterialTitles),
    ("courseLearningMaterialDescriptions", .strings course.learningMaterialDescriptions),
    ("courseFileLearningMaterialIds", .integers course.fileLearningMaterialIds)]

end Course

/-- A session of a course. -/
structure Session where
  id : Int := 0
  title : String := ""
  sessionType : String := ""
  description : Option String := none
  objectives : List String := []
  terms : List String := []
  meshDescriptorIds : List String := []
  meshDescriptorNames : List String := []
  learningMaterialTitles : List String := []
  learningMaterialDescriptions : List String := []
  /-- The ids of the learning materials that have a file. -/
  fileLearningMaterialIds : List Int := []
deriving DecidableEq, Repr

namespace Session

def fieldNames : List String :=
  ["id", "title", "sessionType", "description", "objectives", "terms", "meshDescriptorIds",
    "meshDescriptorNames", "learningMaterialTitles", "learningMaterialDescriptions",
    "fileLearningMaterialIds"]

def ofLiteral? (literal : Literal) : Option Session := do
  let record ← literal.record? fieldNames
  let id ← record.withDefault "id" Literal.signed64? 0
  let title ← record.text "title"
  let sessionType ← record.text "sessionType"
  let description ← record.optionalText "description"
  let objectives ← record.texts "objectives"
  let terms ← record.texts "terms"
  let meshDescriptorIds ← record.texts "meshDescriptorIds"
  let meshDescriptorNames ← record.texts "meshDescriptorNames"
  let learningMaterialTitles ← record.texts "learningMaterialTitles"
  let learningMaterialDescriptions ← record.texts "learningMaterialDescriptions"
  let fileLearningMaterialIds ← record.integers "fileLearningMaterialIds"
  return {
    id, title, sessionType, description, objectives, terms, meshDescriptorIds,
    meshDescriptorNames, learningMaterialTitles, learningMaterialDescriptions,
    fileLearningMaterialIds }

def toJson (session : Session) : Json :=
  .ofFields [
    ("id", .integer session.id),
    ("title", .string session.title),
    ("sessionType", .string session.sessionType),
    ("description", .optionalString session.description),
    ("objectives", .strings session.objectives),
    ("terms", .strings session.terms),
    ("meshDescriptorIds", .strings session.meshDescriptorIds),
    ("meshDescriptorNames", .strings session.meshDescriptorNames),
    ("learningMaterialTitles", .strings session.learningMaterialTitles),
    ("learningMaterialDescriptions", .strings session.learningMaterialDescriptions),
    ("fileLearningMaterialIds", .integers session.fileLearningMaterialIds)]

def documentFields (session : Session) : List (String × Json) :=
  [("sessionId", .integer session.id),
    ("sessionTitle", .string session.title),
    ("sessionType", .string session.sessionType),
    ("sessionDescription", .optionalString session.description),
    ("sessionObjectives", .strings session.objectives),
    ("sessionTerms", .strings session.terms),
    ("sessionMeshDescriptorIds", .strings session.meshDescriptorIds),
    ("sessionMeshDescriptorNames", .strings session.meshDescriptorNames),
    ("sessionLearningMaterialTitles", .strings session.learningMaterialTitles),
    ("sessionLearningMaterialDescriptions", .strings session.learningMaterialDescriptions),
    ("sessionFileLearningMaterialIds", .integers session.fileLearningMaterialIds)]

end Session

structure CompositeCourse where
  course : Course
  sessions : List Session := []
deriving DecidableEq, Repr

namespace CompositeCourse

def fieldNames : List String := ["course", "sessions"]

def ofLiteral? (literal : Literal) : Option CompositeCourse := do
  let record ← literal.record? fieldNames
  let course ← record.required "course" Course.ofLiteral?
  let sessions ← record.withDefault "sessions" (Literal.list? Session.ofLiteral?) []
  return { course, sessions }

def toJson (composite : CompositeCourse) : Json :=
  .ofFields [
    ("course", composite.course.toJson),
    ("sessions", .array (composite.sessions.map Session.toJson))]

def documentId (courseId sessionId : Int) : String :=
  "course_" ++ Text.signedDecimalString courseId ++ "_session_"
    ++ Text.signedDecimalString sessionId

/-- The document of one session. -/
def document (composite : CompositeCourse) (session : Session) : Document :=
  ((Document.new (documentId composite.course.id session.id)).setAll
    composite.course.documentFields).setAll session.documentFields

/-- The documents of a course, one for each session. -/
def documents (composite : CompositeCourse) : List Document :=
  composite.sessions.map composite.document

end CompositeCourse
end LearningIndex
