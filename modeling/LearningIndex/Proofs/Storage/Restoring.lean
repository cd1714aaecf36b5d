import LearningIndex.Proofs.Entity.Written
import LearningIndex.Proofs.Program.Transcript
import LearningIndex.Proofs.Storage.Text
import LearningIndex.Rehearsal.Offline

/-!
# Snapshots come back from their files

A snapshot is written as three arrays of records, each into its file.  The directory is then loaded
as the snapshot that was written, whatever defaults were left out, in whatever order the fields of a
record were written, and however the text of a file was set.
-/

namespace LearningIndex

open Json (IsRecord IsRecords Slot isSigned64)

namespace Snapshot

/-- The integers of all entities are in range. -/
structure InRange (snapshot : Snapshot) : Prop where
  materials : ∀ material ∈ snapshot.learningMaterials, isSigned64 material.id = true
  courses : ∀ composite ∈ snapshot.courses, composite.InRange

/-- A repository finds all entities of a snapshot by their ids, and lists the ids in the order of
the snapshot. -/
structure IsServedBy (snapshot repository : Snapshot) : Prop where
  materials : ∀ ids, (∀ material ∈ snapshot.learningMaterials, material.id ∈ ids) →
    repository.findLearningMaterials ids = snapshot.learningMaterials
  courses : ∀ ids, (∀ composite ∈ snapshot.courses, composite.course.id ∈ ids) →
    repository.findCourses ids = snapshot.courses
  descriptors : ∀ ids, (∀ descriptor ∈ snapshot.meshDescriptors, descriptor.id ∈ ids) →
    repository.findMeshDescriptors ids = snapshot.meshDescriptors
  materialIds : repository.fileLearningMaterialIds =
    snapshot.learningMaterials.filterMap fun material =>
      material.relativePath.map fun _ => material.id
  courseIds : repository.courseIds = snapshot.courses.map fun composite => composite.course.id
  sessionCourseIds : repository.sessionCourseIds = (snapshot.courses.map fun composite =>
    composite.sessions.map fun session => (session.id, composite.course.id)).flatten
  descriptorIds : repository.meshDescriptorIds = snapshot.meshDescriptors.map (·.id)

theorem isServedBy_self (snapshot : Snapshot) : snapshot.IsServedBy snapshot where
  materials ids all := List.filter_eq_self.mpr fun material member =>
    List.contains_iff_mem.mpr (all material member)
  courses ids all := List.filter_eq_self.mpr fun composite member =>
    List.contains_iff_mem.mpr (all composite member)
  descriptors ids all := List.filter_eq_self.mpr fun descriptor member =>
    List.contains_iff_mem.mpr (all descriptor member)
  materialIds := by
    rw [fileLearningMaterialIds, ← List.filterMap_eq_filter, List.map_filterMap]
    refine List.filterMap_congr fun material _ => ?_
    cases at_path : material.relativePath <;> simp [LearningMaterial.hasFile, at_path, Option.guard]
  courseIds := rfl
  sessionCourseIds := List.flatMap_def
  descriptorIds := rfl

end Snapshot

namespace Storage

theorem entitiesAt_of_holds {α : Type} {read : Literal → Option α} {slots : α → List Slot}
    {items : List α} {value : Json} {bytes : ByteString} (wording : Wording)
    (path : String) (isRecords : IsRecords slots items value)
    (reads : ∀ item ∈ items, ∀ value, IsRecord (slots item) value →
      read (.ofValue value) = some item) (holds : Holds bytes value) :
    entitiesAt read wording path (.ok bytes) = .ok items := by
  obtain ⟨each⟩ := isRecords
  rw [entitiesAt, entities?, holds, Option.bind_some, Literal.list?_of_forall₂ each reads]

/-- What is written for a snapshot. -/
structure Archive where
  learningMaterials : Json
  courses : Json
  meshDescriptors : Json

namespace Archive

/-- An archive lists the records of the entities of a snapshot, each list in its order. -/
structure IsOf (archive : Archive) (snapshot : Snapshot) : Prop where
  materials : IsRecords LearningMaterial.slots snapshot.learningMaterials archive.learningMaterials
  courses : IsRecords CompositeCourse.slots snapshot.courses archive.courses
  descriptors : IsRecords MeshDescriptor.slots snapshot.meshDescriptors archive.meshDescriptors

/-- The archive of a snapshot with every field. -/
def full (snapshot : Snapshot) : Archive where
  learningMaterials := .array (snapshot.learningMaterials.map LearningMaterial.toJson)
  courses := .array (snapshot.courses.map CompositeCourse.toJson)
  meshDescriptors := .array (snapshot.meshDescriptors.map MeshDescriptor.toJson)

theorem isOf_full (snapshot : Snapshot) : (full snapshot).IsOf snapshot where
  materials := Json.isRecords_map LearningMaterial.isRecord_toJson snapshot.learningMaterials
  courses := Json.isRecords_map CompositeCourse.isRecord_toJson snapshot.courses
  descriptors := Json.isRecords_map MeshDescriptor.isRecord_toJson snapshot.meshDescriptors

/-- The arrays of an archive. -/
def values (archive : Archive) : List Json :=
  [archive.learningMaterials, archive.courses, archive.meshDescriptors]

theorem IsOf.isLegible {archive : Archive} {snapshot : Snapshot} (written : archive.IsOf snapshot) :
    ∀ value ∈ archive.values, value.IsLegible := by
  simp only [values, List.forall_mem_cons]
  exact ⟨written.materials.isLegible, written.courses.isLegible, written.descriptors.isLegible,
    by simp⟩

end Archive

section Loading

variable {σ : Type} (serve : (question : Machine.Request) → σ → Machine.Reply question × σ)

/-- Whether a machine reads a text of a value at a path, whenever it is asked. -/
def Keeps (path : String) (value : Json) : Prop :=
  ∀ state, ∃ bytes, (serve (.read path) state).1 = .ok bytes ∧ Holds bytes value

/-- A machine keeps an archive in the files of a directory. -/
structure KeepsArchive (directory : String) (archive : Archive) : Prop where
  materials : Keeps serve (join directory learningMaterialsFile) archive.learningMaterials
  courses : Keeps serve (join directory coursesFile) archive.courses
  descriptors : Keeps serve (join directory meshDescriptorsFile) archive.meshDescriptors

variable {serve} (wording : Wording)

theorem run_loadEntities {α : Type} {read : Literal → Option α} {slots : α → List Slot}
    {items : List α} {value : Json} {path : String} (keeps : Keeps serve path value)
    (isRecords : IsRecords slots items value)
    (reads : ∀ item ∈ items, ∀ value, IsRecord (slots item) value →
      read (.ofValue value) = some item) (state : σ) :
    (loadEntities read wording path).run serve state =
      (.ok items, (serve (.read path) state).2) := by
  obtain ⟨bytes, answered, holds⟩ := keeps state
  have listed := entitiesAt_of_holds wording path isRecords reads holds
  change (entitiesAt read wording path (serve (.read path) state).1, _) = _
  rw [answered, listed]

/-- A directory is loaded as the snapshot that its archive was written for. -/
theorem run_loadSnapshot {snapshot : Snapshot} (inRange : snapshot.InRange) {archive : Archive}
    (written : archive.IsOf snapshot) {directory : String}
    (kept : KeepsArchive serve directory archive) (state : σ) :
    ((loadSnapshot directory wording).run serve state).1 = .ok snapshot := by
  have materials := run_loadEntities wording kept.materials written.materials
    fun material member _ =>
      LearningMaterial.ofLiteral?_of_isRecord (inRange.materials material member)
  have courses := run_loadEntities wording kept.courses written.courses fun composite member _ =>
    CompositeCourse.ofLiteral?_of_isRecord (inRange.courses composite member)
  have descriptors := run_loadEntities wording kept.descriptors written.descriptors
    fun _ _ _ => MeshDescriptor.ofLiteral?_of_isRecord
  rw [loadSnapshot, Program.bind_eq_andThen, Program.run_andThen_of_ok (materials state),
    Program.bind_eq_andThen, Program.run_andThen_of_ok (courses _),
    Program.bind_eq_andThen, Program.run_andThen_of_ok (descriptors _)]
  rfl

end Loading

/-- An archive of a snapshot may be written with every field, or without some that are as by
default, and its compact text is one of its texts.  A directory that keeps any such archive is
loaded as a repository with the entities of the snapshot, no more and no less, in their order. -/
theorem snapshot_restored {snapshot : Snapshot} (inRange : snapshot.InRange) :
    (Archive.full snapshot).IsOf snapshot ∧
    ∀ archive : Archive, archive.IsOf snapshot →
      (∀ value ∈ archive.values, Holds (Utf8.ofString value.compact) value) ∧
      ∀ {σ : Type} (serve : (question : Machine.Request) → σ → Machine.Reply question × σ)
        (directory : String), KeepsArchive serve directory archive →
        ∀ (wording : Wording) (state : σ), ∃ repository,
          ((loadSnapshot directory wording).run serve state).1 = .ok repository ∧
          repository = snapshot ∧ snapshot.IsServedBy repository := by
  refine ⟨Archive.isOf_full snapshot, fun archive written => ⟨fun value member => ?_, ?_⟩⟩
  · exact holds_compact (written.isLegible value member)
  · intro σ serve directory kept wording state
    have loaded := run_loadSnapshot wording inRange written kept state
    exact ⟨snapshot, loaded, rfl, snapshot.isServedBy_self⟩

namespace Archive.Sample

/-- Two learning materials, a course with two sessions and a descriptor with a concept. -/
def snapshot : Snapshot where
  learningMaterials :=
    [⟨7, "Week \"1\"", none, some "w1.pdf", some "ab/w1"⟩, ⟨-8, "é", none, none, none⟩]
  courses := [{
    course := { id := 3, year := 2024, fileLearningMaterialIds := [7] },
    sessions := [{ id := 10, title := "Heart" }, {}] }]
  meshDescriptors := [{
    id := "D1", name := "Heart",
    concepts := [{ id := "M1", name := "Heart", terms := [⟨"T1", "Hearts"⟩] }] }]

/-- The archive of the snapshot with few of the fields that may be left out, in other orders. -/
def archive : Archive where
  learningMaterials := .array [
    .object [("relativePath", .string "ab/w1"), ("title", .string "Week \"1\""),
      ("filename", .string "w1.pdf"), ("id", .integer 7)],
    .object [("id", .integer (-8)), ("title", .string "é"), ("description", .null)]]
  courses := .array [
    .object [
      ("sessions", .array [.object [("title", .string "Heart"), ("id", .integer 10)], .object []]),
      ("course", .object [("id", .integer 3), ("fileLearningMaterialIds", .array [.integer 7]),
        ("year", .integer 2024)])]]
  meshDescriptors := .array [
    .object [("name", .string "Heart"), ("id", .string "D1"),
      ("concepts", .array [
        .object [("id", .string "M1"), ("name", .string "Heart"),
          ("terms", .array [.object [("name", .string "Hearts"), ("id", .string "T1")]])]])]]

def files : Tree :=
  .ofList [
    ("snap/learning_materials.json", some (Utf8.ofString archive.learningMaterials.compact)),
    ("snap/courses.json", some (Utf8.ofString archive.courses.compact)),
    ("snap/mesh_descriptors.json", some (Utf8.ofString archive.meshDescriptors.compact))]

def serve (question : Machine.Request) (state : Unit) : Machine.Reply question × Unit :=
  (Rehearsal.serveOffline files Calendar.Instant.epoch question, state)

theorem inRange : snapshot.InRange where
  materials := by decide
  courses := List.forall_mem_singleton.mpr {
    course := ⟨by decide, by decide, by decide, by decide⟩
    sessions := by
      simp only [List.forall_mem_cons]
      exact ⟨⟨by decide, by decide⟩, ⟨by decide, by decide⟩, by simp⟩ }

theorem materials_written :
    IsRecords LearningMaterial.slots snapshot.learningMaterials archive.learningMaterials := by
  refine .array (.cons (.object (by decide) ?_ ?_) (.cons (.object (by decide) ?_ ?_) .nil)) <;>
    simp [LearningMaterial.slots, Slot.requiredInteger, Slot.requiredText, Slot.optionalText,
      Slot.of, Json.optionalString]

theorem courses_written : IsRecords CompositeCourse.slots snapshot.courses archive.courses := by
  have course : IsRecord (Course.slots { id := 3, year := 2024, fileLearningMaterialIds := [7] })
      (.object [("id", .integer 3), ("fileLearningMaterialIds", .array [.integer 7]),
        ("year", .integer 2024)]) := by
    refine .object (by decide) ?_ ?_ <;>
      simp [Course.slots, Slot.integer, Slot.text, Slot.optionalText, Slot.texts, Slot.integers,
        Slot.of, Json.integers]
  have sessions : IsRecords Session.slots [{ id := 10, title := "Heart" }, {}]
      (.array [.object [("title", .string "Heart"), ("id", .integer 10)], .object []]) := by
    refine .array (.cons (.object (by decide) ?_ ?_) (.cons (.object (by decide) ?_ ?_) .nil)) <;>
      simp [Session.slots, Slot.integer, Slot.text, Slot.optionalText, Slot.texts, Slot.integers,
        Slot.of]
  refine .array (.cons (.object (by decide) ?_ ?_) .nil) <;>
    simp [CompositeCourse.slots, Slot.requiredRecord, Slot.records, course, sessions]

theorem descriptors_written :
    IsRecords MeshDescriptor.slots snapshot.meshDescriptors archive.meshDescriptors := by
  have terms : IsRecords MeshTerm.slots [⟨"T1", "Hearts"⟩]
      (.array [.object [("name", .string "Hearts"), ("id", .string "T1")]]) := by
    refine .array (.cons (.object (by decide) ?_ ?_) .nil) <;>
      simp [MeshTerm.slots, Slot.requiredText, Slot.of]
  have concepts : IsRecords MeshConcept.slots
      [{ id := "M1", name := "Heart", terms := [⟨"T1", "Hearts"⟩] }]
      (.array [.object [("id", .string "M1"), ("name", .string "Heart"),
        ("terms", .array [.object [("name", .string "Hearts"), ("id", .string "T1")]])]]) := by
    refine .array (.cons (.object (by decide) ?_ ?_) .nil) <;>
      simp [MeshConcept.slots, Slot.requiredText, Slot.optionalText, Slot.records, Slot.of, terms]
  refine .array (.cons (.object (by decide) ?_ ?_) .nil) <;>
    simp [MeshDescriptor.slots, Slot.requiredText, Slot.optionalText, Slot.texts, Slot.records,
      Slot.of, concepts]

theorem isOf : archive.IsOf snapshot :=
  ⟨materials_written, courses_written, descriptors_written⟩

theorem kept : KeepsArchive serve "snap" archive where
  materials _ := ⟨_, rfl, holds_compact (isOf.isLegible _ (by simp [values]))⟩
  courses _ := ⟨_, rfl, holds_compact (isOf.isLegible _ (by simp [values]))⟩
  descriptors _ := ⟨_, rfl, holds_compact (isOf.isLegible _ (by simp [values]))⟩

/-- The directory is loaded as the snapshot. -/
theorem loaded_from_sparse : snapshot.InRange ∧ archive.IsOf snapshot ∧
    KeepsArchive serve "snap" archive ∧
      ((loadSnapshot "snap").run serve ()).1 = .ok snapshot := by
  obtain ⟨_, loaded, rfl, -⟩ :=
    ((snapshot_restored inRange).2 archive isOf).2 serve "snap" kept (fun _ _ => none) ()
  exact ⟨inRange, isOf, kept, loaded⟩

end Archive.Sample

end Storage
end LearningIndex
