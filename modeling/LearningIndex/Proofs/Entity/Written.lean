import LearningIndex.Entity.Course
import LearningIndex.Entity.LearningMaterial
import LearningIndex.Entity.MeshDescriptor
import LearningIndex.Proofs.Json.Slots

/-!
# Entities come back from their records

Every entity is read back from each record that may be written for it, as long as its integers are
in range.  The record may leave out what is as by default: of a course and of a session every field
has a default, of a learning material, of a descriptor and of its concepts the fields after the
first two, and of a term no field.
-/

namespace LearningIndex

open Json (IsRecord Slot isSigned64)

theorem Literal.bind_of_some {α β : Type} {first : Option α} {part : α} {rest : α → Option β}
    {whole : Option β} (found : first = some part) (later : rest part = whole) :
    first.bind rest = whole := by
  rw [found, Option.bind_some, later]

open Literal (bind_of_some)

namespace LearningMaterial

/-- The fields of a learning material as they may be written. -/
def slots (material : LearningMaterial) : List Slot :=
  [.requiredInteger "id" material.id, .requiredText "title" material.title,
    .optionalText "description" material.description, .optionalText "filename" material.filename,
    .optionalText "relativePath" material.relativePath]

theorem isRecord_toJson (material : LearningMaterial) :
    IsRecord material.slots material.toJson := by
  refine Json.isRecord_ofFields (show _ = fieldNames from rfl) (by decide) ?_
  iterate 5 refine .cons ⟨rfl, rfl⟩ ?_
  exact .nil

theorem ofLiteral?_of_isRecord {material : LearningMaterial} {value : Json}
    (inRange : isSigned64 material.id = true) (isRecord : IsRecord material.slots value) :
    ofLiteral? (.ofValue value) = some material := by
  obtain ⟨record, read, found⟩ := isRecord.exists_record (show _ = fieldNames from rfl) (by decide)
  simp only [slots, List.forall_mem_cons] at found
  obtain ⟨id, title, description, filename, relativePath, -⟩ := found
  refine bind_of_some read ?_
  refine bind_of_some (id.required_integer inRange) ?_
  refine bind_of_some title.required_text ?_
  refine bind_of_some description.optionalText_eq ?_
  refine bind_of_some filename.optionalText_eq ?_
  refine bind_of_some relativePath.optionalText_eq ?_
  rfl

end LearningMaterial

/-! ## Courses -/

namespace Course

def slots (course : Course) : List Slot :=
  [.integer "id" course.id, .text "title" course.title, .integer "schoolId" course.schoolId,
    .text "schoolTitle" course.schoolTitle, .integer "year" course.year,
    .optionalText "externalId" course.externalId,
    .optionalText "clerkshipType" course.clerkshipType, .texts "directors" course.directors,
    .texts "administrators" course.administrators, .texts "terms" course.terms,
    .texts "objectives" course.objectives, .texts "meshDescriptorIds" course.meshDescriptorIds,
    .texts "meshDescriptorNames" course.meshDescriptorNames,
    .texts "learningMaterialTitles" course.learningMaterialTitles,
    .texts "learningMaterialDescriptions" course.learningMaterialDescriptions,
    .integers "fileLearningMaterialIds" course.fileLearningMaterialIds]

/-- The integers of a course have 64 bits with a sign, and its year has 32. -/
structure InRange (course : Course) : Prop where
  id : isSigned64 course.id = true
  schoolId : isSigned64 course.schoolId = true
  year : -0x80000000 ≤ course.year ∧ course.year < 0x80000000
  files : ∀ id ∈ course.fileLearningMaterialIds, isSigned64 id = true

theorem isRecord_toJson (course : Course) : IsRecord course.slots course.toJson := by
  refine Json.isRecord_ofFields (show _ = fieldNames from rfl) (by decide) ?_
  iterate 16 refine .cons ⟨rfl, rfl⟩ ?_
  exact .nil

theorem ofLiteral?_of_isRecord {course : Course} {value : Json} (inRange : course.InRange)
    (isRecord : IsRecord course.slots value) : ofLiteral? (.ofValue value) = some course := by
  obtain ⟨record, read, found⟩ := isRecord.exists_record (show _ = fieldNames from rfl) (by decide)
  simp only [slots, List.forall_mem_cons] at found
  obtain ⟨id, title, schoolId, schoolTitle, year, externalId, clerkshipType, directors,
    administrators, terms, objectives, meshDescriptorIds, meshDescriptorNames,
    learningMaterialTitles, learningMaterialDescriptions, files, -⟩ := found
  -- The fields are read in their declared order, whatever their order in the object is.
  refine bind_of_some read ?_
  refine bind_of_some (id.withDefault_integer (Literal.signed64?_ofValue inRange.id)) ?_
  refine bind_of_some title.text_eq ?_
  refine bind_of_some (schoolId.withDefault_integer (Literal.signed64?_ofValue inRange.schoolId)) ?_
  refine bind_of_some schoolTitle.text_eq ?_
  refine bind_of_some (year.withDefault_integer (Literal.signed32?_ofValue inRange.year)) ?_
  refine bind_of_some externalId.optionalText_eq ?_
  refine bind_of_some clerkshipType.optionalText_eq ?_
  refine bind_of_some directors.texts_eq ?_
  refine bind_of_some administrators.texts_eq ?_
  refine bind_of_some terms.texts_eq ?_
  refine bind_of_some objectives.texts_eq ?_
  refine bind_of_some meshDescriptorIds.texts_eq ?_
  refine bind_of_some meshDescriptorNames.texts_eq ?_
  refine bind_of_some learningMaterialTitles.texts_eq ?_
  refine bind_of_some learningMaterialDescriptions.texts_eq ?_
  refine bind_of_some (files.integers_eq inRange.files) ?_
  rfl

end Course

namespace Session

def slots (session : Session) : List Slot :=
  [.integer "id" session.id, .text "title" session.title,
    .text "sessionType" session.sessionType, .optionalText "description" session.description,
    .texts "objectives" session.objectives, .texts "terms" session.terms,
    .texts "meshDescriptorIds" session.meshDescriptorIds,
    .texts "meshDescriptorNames" session.meshDescriptorNames,
    .texts "learningMaterialTitles" session.learningMaterialTitles,
    .texts "learningMaterialDescriptions" session.learningMaterialDescriptions,
    .integers "fileLearningMaterialIds" session.fileLearningMaterialIds]

structure InRange (session : Session) : Prop where
  id : isSigned64 session.id = true
  files : ∀ id ∈ session.fileLearningMaterialIds, isSigned64 id = true

theorem isRecord_toJson (session : Session) : IsRecord session.slots session.toJson := by
  refine Json.isRecord_ofFields (show _ = fieldNames from rfl) (by decide) ?_
  iterate 11 refine .cons ⟨rfl, rfl⟩ ?_
  exact .nil

theorem ofLiteral?_of_isRecord {session : Session} {value : Json} (inRange : session.InRange)
    (isRecord : IsRecord session.slots value) : ofLiteral? (.ofValue value) = some session := by
  obtain ⟨record, read, found⟩ := isRecord.exists_record (show _ = fieldNames from rfl) (by decide)
  simp only [slots, List.forall_mem_cons] at found
  obtain ⟨id, title, sessionType, description, objectives, terms, meshDescriptorIds,
    meshDescriptorNames, learningMaterialTitles, learningMaterialDescriptions, files, -⟩ := found
  refine bind_of_some read ?_
  refine bind_of_some (id.withDefault_integer (Literal.signed64?_ofValue inRange.id)) ?_
  refine bind_of_some title.text_eq ?_
  refine bind_of_some sessionType.text_eq ?_
  refine bind_of_some description.optionalText_eq ?_
  refine bind_of_some objectives.texts_eq ?_
  refine bind_of_some terms.texts_eq ?_
  refine bind_of_some meshDescriptorIds.texts_eq ?_
  refine bind_of_some meshDescriptorNames.texts_eq ?_
  refine bind_of_some learningMaterialTitles.texts_eq ?_
  refine bind_of_some learningMaterialDescriptions.texts_eq ?_
  refine bind_of_some (files.integers_eq inRange.files) ?_
  rfl

end Session

namespace CompositeCourse

def slots (composite : CompositeCourse) : List Slot :=
  [.requiredRecord "course" composite.course.slots,
    .records "sessions" Session.slots composite.sessions]

structure InRange (composite : CompositeCourse) : Prop where
  course : composite.course.InRange
  sessions : ∀ session ∈ composite.sessions, session.InRange

theorem isRecord_toJson (composite : CompositeCourse) :
    IsRecord composite.slots composite.toJson := by
  refine Json.isRecord_ofFields (show _ = fieldNames from rfl) (by decide) ?_
  -- Here the fields are records again, and each of them may be any of its values.
  exact .cons ⟨rfl, composite.course.isRecord_toJson⟩
    (.cons ⟨rfl, Json.isRecords_map Session.isRecord_toJson composite.sessions⟩ .nil)

theorem ofLiteral?_of_isRecord {composite : CompositeCourse} {value : Json}
    (inRange : composite.InRange) (isRecord : IsRecord composite.slots value) :
    ofLiteral? (.ofValue value) = some composite := by
  obtain ⟨record, read, found⟩ := isRecord.exists_record (show _ = fieldNames from rfl) (by decide)
  simp only [slots, List.forall_mem_cons] at found
  obtain ⟨course, sessions, -⟩ := found
  have readCourse := course.required_record fun _ => Course.ofLiteral?_of_isRecord inRange.course
  have readSessions := sessions.withDefault_records fun session member _ =>
    Session.ofLiteral?_of_isRecord (inRange.sessions session member)
  refine bind_of_some read ?_
  refine bind_of_some readCourse ?_
  refine bind_of_some readSessions ?_
  rfl

end CompositeCourse

/-! ## Descriptors -/

namespace MeshTerm

def slots (term : MeshTerm) : List Slot :=
  [.requiredText "id" term.id, .requiredText "name" term.name]

theorem isRecord_toJson (term : MeshTerm) : IsRecord term.slots term.toJson := by
  refine Json.isRecord_ofFields (show _ = fieldNames from rfl) (by decide) ?_
  exact .cons ⟨rfl, rfl⟩ (.cons ⟨rfl, rfl⟩ .nil)

theorem ofLiteral?_of_isRecord {term : MeshTerm} {value : Json}
    (isRecord : IsRecord term.slots value) : ofLiteral? (.ofValue value) = some term := by
  obtain ⟨record, read, found⟩ := isRecord.exists_record (show _ = fieldNames from rfl) (by decide)
  simp only [slots, List.forall_mem_cons] at found
  obtain ⟨id, name, -⟩ := found
  refine bind_of_some read ?_
  refine bind_of_some id.required_text ?_
  refine bind_of_some name.required_text ?_
  rfl

end MeshTerm

namespace MeshConcept

def slots (concept : MeshConcept) : List Slot :=
  [.requiredText "id" concept.id, .requiredText "name" concept.name,
    .optionalText "scopeNote" concept.scopeNote, .optionalText "casn1Name" concept.casn1Name,
    .records "terms" MeshTerm.slots concept.terms]

theorem isRecord_toJson (concept : MeshConcept) : IsRecord concept.slots concept.toJson := by
  refine Json.isRecord_ofFields (show _ = fieldNames from rfl) (by decide) ?_
  iterate 4 refine .cons ⟨rfl, rfl⟩ ?_
  exact .cons ⟨rfl, Json.isRecords_map MeshTerm.isRecord_toJson concept.terms⟩ .nil

theorem ofLiteral?_of_isRecord {concept : MeshConcept} {value : Json}
    (isRecord : IsRecord concept.slots value) : ofLiteral? (.ofValue value) = some concept := by
  obtain ⟨record, read, found⟩ := isRecord.exists_record (show _ = fieldNames from rfl) (by decide)
  simp only [slots, List.forall_mem_cons] at found
  obtain ⟨id, name, scopeNote, casn1Name, terms, -⟩ := found
  have readTerms := terms.withDefault_records fun _ _ _ => MeshTerm.ofLiteral?_of_isRecord
  refine bind_of_some read ?_
  refine bind_of_some id.required_text ?_
  refine bind_of_some name.required_text ?_
  refine bind_of_some scopeNote.optionalText_eq ?_
  refine bind_of_some casn1Name.optionalText_eq ?_
  refine bind_of_some readTerms ?_
  rfl

end MeshConcept

namespace MeshDescriptor

def slots (descriptor : MeshDescriptor) : List Slot :=
  [.requiredText "id" descriptor.id, .requiredText "name" descriptor.name,
    .optionalText "annotation" descriptor.note,
    .texts "previousIndexing" descriptor.previousIndexing,
    .records "concepts" MeshConcept.slots descriptor.concepts]

theorem isRecord_toJson (descriptor : MeshDescriptor) :
    IsRecord descriptor.slots descriptor.toJson := by
  refine Json.isRecord_ofFields (show _ = fieldNames from rfl) (by decide) ?_
  iterate 4 refine .cons ⟨rfl, rfl⟩ ?_
  exact .cons ⟨rfl, Json.isRecords_map MeshConcept.isRecord_toJson descriptor.concepts⟩ .nil

theorem ofLiteral?_of_isRecord {descriptor : MeshDescriptor} {value : Json}
    (isRecord : IsRecord descriptor.slots value) :
    ofLiteral? (.ofValue value) = some descriptor := by
  obtain ⟨record, read, found⟩ := isRecord.exists_record (show _ = fieldNames from rfl) (by decide)
  simp only [slots, List.forall_mem_cons] at found
  obtain ⟨id, name, note, previousIndexing, concepts, -⟩ := found
  have readConcepts := concepts.withDefault_records fun _ _ _ => MeshConcept.ofLiteral?_of_isRecord
  refine bind_of_some read ?_
  refine bind_of_some id.required_text ?_
  refine bind_of_some name.required_text ?_
  refine bind_of_some note.optionalText_eq ?_
  refine bind_of_some previousIndexing.texts_eq ?_
  refine bind_of_some readConcepts ?_
  rfl

end MeshDescriptor
end LearningIndex
