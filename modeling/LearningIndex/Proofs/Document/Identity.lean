import LearningIndex.Indexing.Curriculum
import LearningIndex.Indexing.LearningMaterials
import LearningIndex.Indexing.Mesh
import LearningIndex.Proofs.Document.Fields

/-!
# What a document is about

The id of a document is made from decimal numerals with underscores between them.  Numerals contain
no underscore and different numbers have different numerals, so the id tells which piece of which
material, or which session of which course, a document is.  The fields by which documents are found
tell the same.
-/

namespace LearningIndex

namespace Text

theorem toNat_digit {value : Nat} (small : value < 10) : (digit value).toNat = 48 + value := by
  have valid : (48 + value).isValidChar := by
    left
    omega
  rw [digit, Char.ofNat, dif_pos valid]
  rfl

theorem readDigits_append (start : Nat) (first second : List Char) :
    readDigits start (first ++ second) = readDigits (readDigits start first) second :=
  List.foldl_append

theorem readDigits_decimal (number : Nat) : readDigits 0 (decimal number) = number := by
  induction number using decimal.induct with
  | case1 number small =>
      rw [decimal, if_pos small]
      simp [readDigits, toNat_digit small]
  | case2 number large ih =>
      have last : number % 10 < 10 := Nat.mod_lt _ (by omega)
      rw [decimal, if_neg large, readDigits_append, ih]
      simp only [readDigits, List.foldl_cons, List.foldl_nil, toNat_digit last]
      omega

theorem decimal_injective : Function.Injective decimal := by
  intro first second same
  rw [← readDigits_decimal first, same, readDigits_decimal]

theorem toNat_of_mem_decimal {number : Nat} {character : Char}
    (member : character ∈ decimal number) : 48 ≤ character.toNat ∧ character.toNat < 58 := by
  induction number using decimal.induct with
  | case1 number small =>
      rw [decimal, if_pos small, List.mem_singleton] at member
      rw [member, toNat_digit small]
      omega
  | case2 number large ih =>
      have last : number % 10 < 10 := Nat.mod_lt _ (by omega)
      rw [decimal, if_neg large] at member
      rcases List.mem_append.mp member with earlier | final
      · exact ih earlier
      · rw [List.mem_singleton.mp final, toNat_digit last]
        omega

theorem notMem_decimal {character : Char} (outside : character.toNat < 48 ∨ 58 ≤ character.toNat)
    (number : Nat) : character ∉ decimal number := by
  intro member
  have digits := toNat_of_mem_decimal member
  omega

theorem notMem_signedDecimal {character : Char} (sign : character ≠ '-')
    (outside : character.toNat < 48 ∨ 58 ≤ character.toNat) (number : Int) :
    character ∉ signedDecimal number := by
  unfold signedDecimal
  split
  · exact List.mem_cons.not.mpr (not_or.mpr ⟨sign, notMem_decimal outside _⟩)
  · exact notMem_decimal outside _

theorem signedDecimal_injective : Function.Injective signedDecimal := by
  intro first second same
  have unsigned (number : Int) : '-' ∉ decimal number.natAbs := notMem_decimal (by decide) _
  unfold signedDecimal at same
  split at same <;> split at same
  · have magnitudes := decimal_injective (List.cons.inj same).2
    omega
  · exact absurd (same ▸ List.mem_cons_self) (unsigned second)
  · exact absurd (same ▸ List.mem_cons_self) (unsigned first)
  · have magnitudes := decimal_injective same
    omega

end Text

/-- What stands before and after the first mark of a list is determined by the list. -/
theorem append_mark_inj {κ : Type} {mark : κ} {first second after later : List κ}
    (absent : mark ∉ first) (absent' : mark ∉ second) :
    first ++ mark :: after = second ++ mark :: later ↔ first = second ∧ after = later := by
  constructor
  · intro same
    induction first generalizing second with
    | nil =>
        cases second with
        | nil => exact ⟨rfl, (List.cons.inj same).2⟩
        | cons item rest =>
            obtain ⟨rfl, _⟩ := List.cons.inj same
            exact absurd List.mem_cons_self absent'
    | cons item rest ih =>
        cases second with
        | nil =>
            obtain ⟨rfl, _⟩ := List.cons.inj same
            exact absurd List.mem_cons_self absent
        | cons other rest' =>
            obtain ⟨rfl, tails⟩ := List.cons.inj same
            obtain ⟨rfl, rfl⟩ := ih (List.not_mem_of_not_mem_cons absent)
              (List.not_mem_of_not_mem_cons absent') tails
            exact ⟨rfl, rfl⟩
  · rintro ⟨rfl, rfl⟩
    rfl

namespace LearningMaterialIndexer

theorem toList_documentId (chunk : Nat) (material : Int) :
    (documentId chunk material).toList =
      'l' :: 'm' :: '_' :: (Text.decimal chunk ++ '_' :: Text.signedDecimal material) := by
  simp [documentId, Text.decimalString, Text.signedDecimalString]

/-- The id of a piece tells the number of the piece and the material. -/
theorem documentId_inj {chunk other : Nat} {first second : Int} :
    documentId chunk first = documentId other second ↔ chunk = other ∧ first = second := by
  constructor
  · intro same
    have characters := congrArg String.toList same
    rw [toList_documentId, toList_documentId] at characters
    simp only [List.cons.injEq, true_and] at characters
    obtain ⟨chunks, materials⟩ :=
      (append_mark_inj (Text.notMem_decimal (by decide) _) (Text.notMem_decimal (by decide) _)).mp
        characters
    exact ⟨Text.decimal_injective chunks, Text.signedDecimal_injective materials⟩
  · rintro ⟨rfl, rfl⟩
    rfl

@[simp]
theorem id_chunkDocument (material : LearningMaterial) (ordinal : Nat) (chunk : ByteString) :
    (chunkDocument material ordinal chunk).id = documentId ordinal material.id := by
  simp [chunkDocument]

@[simp]
theorem get?_chunkDocument (material : LearningMaterial) (ordinal : Nat) (chunk : ByteString) :
    (chunkDocument material ordinal chunk).get? idField = some (.integer material.id) :=
  Document.get?_setAll_of_mem (by simp [idField]) List.mem_cons_self _

/-- The document is a piece of the material, and says so by its id and by its field. -/
structure IsPieceOf (document : Document) (material : Int) : Prop where
  named : ∃ ordinal, document.id = documentId ordinal material
  field : document.get? idField = some (.integer material)

theorem isPieceOf_chunkDocument (material : LearningMaterial) (ordinal : Nat)
    (chunk : ByteString) : IsPieceOf (chunkDocument material ordinal chunk) material.id :=
  ⟨⟨ordinal, id_chunkDocument material ordinal chunk⟩, get?_chunkDocument material ordinal chunk⟩

theorem IsPieceOf.eq_of_id_eq {document other : Document} {first second : Int}
    (piece : IsPieceOf document first) (piece' : IsPieceOf other second)
    (same : document.id = other.id) : first = second := by
  obtain ⟨ordinal, named⟩ := piece.named
  obtain ⟨ordinal', named'⟩ := piece'.named
  exact (documentId_inj.mp (named ▸ named' ▸ same)).2

end LearningMaterialIndexer

namespace CompositeCourse

theorem toList_documentId (course session : Int) :
    (documentId course session).toList =
      "course_".toList ++ (Text.signedDecimal course ++ '_' ::
        ("session_".toList ++ Text.signedDecimal session)) := by
  simp [documentId, Text.signedDecimalString]

theorem documentId_inj {course other session another : Int} :
    documentId course session = documentId other another ↔ course = other ∧ session = another := by
  constructor
  · intro same
    have characters := congrArg String.toList same
    rw [toList_documentId, toList_documentId] at characters
    obtain ⟨courses, sessions⟩ :=
      (append_mark_inj (Text.notMem_signedDecimal (by decide) (by decide) _)
        (Text.notMem_signedDecimal (by decide) (by decide) _)).mp
          (List.append_cancel_left characters)
    exact ⟨Text.signedDecimal_injective courses,
      Text.signedDecimal_injective (List.append_cancel_left sessions)⟩
  · rintro ⟨rfl, rfl⟩
    rfl

@[simp]
theorem id_document (composite : CompositeCourse) (session : Session) :
    (composite.document session).id = documentId composite.course.id session.id := by
  simp [document]

@[simp]
theorem get?_document_course (composite : CompositeCourse) (session : Session) :
    (composite.document session).get? CurriculumIndexer.courseIdField =
      some (.integer composite.course.id) := by
  rw [document, Document.get?_setAll_of_notMem]
  · exact Document.get?_setAll_of_mem (by simp) List.mem_cons_self _
  · simp [Session.documentFields, CurriculumIndexer.courseIdField]

@[simp]
theorem get?_document_session (composite : CompositeCourse) (session : Session) :
    (composite.document session).get? CurriculumIndexer.sessionIdField =
      some (.integer session.id) :=
  Document.get?_setAll_of_mem (by simp) List.mem_cons_self _

theorem get?_document_title (composite : CompositeCourse) (session : Session) :
    (composite.document session).get? "courseTitle" = some (.string composite.course.title) := by
  rw [document, Document.get?_setAll_of_notMem]
  · refine Document.get?_setAll_of_mem ?_ ?_ _
    · simp [Course.documentFields]
    · simp [Course.documentFields]
  · simp [Session.documentFields]

/-- The document is about a session of a course, and says so by its id and by its fields. -/
structure IsAbout (document : Document) (course session : Int) : Prop where
  named : document.id = documentId course session
  course : document.get? CurriculumIndexer.courseIdField = some (.integer course)
  session : document.get? CurriculumIndexer.sessionIdField = some (.integer session)

theorem isAbout_document (composite : CompositeCourse) (session : Session) :
    IsAbout (composite.document session) composite.course.id session.id :=
  ⟨id_document composite session, get?_document_course composite session,
    get?_document_session composite session⟩

theorem IsAbout.eq_of_id_eq {document twin : Document} {course other session another : Int}
    (about : IsAbout document course session) (about' : IsAbout twin other another)
    (same : document.id = twin.id) : course = other ∧ session = another :=
  documentId_inj.mp (about.named ▸ about'.named ▸ same)

end CompositeCourse

namespace MeshDescriptor

@[simp]
theorem id_document (descriptor : MeshDescriptor) (time : String) :
    (descriptor.document time).id = descriptor.id := by
  simp [document]

@[simp]
theorem get?_document (descriptor : MeshDescriptor) (time : String) :
    (descriptor.document time).get? MeshIndexer.idField = some (.string descriptor.id) := by
  rw [document, Document.get?_setAll_of_notMem]
  · exact Document.get?_new descriptor.id
  · simp [MeshIndexer.idField]

@[simp]
theorem get?_document_time (descriptor : MeshDescriptor) (time : String) :
    (descriptor.document time).get? Fields.timeField = some (.string time) :=
  Fields.get?_insert_self _ _ _

/-- The document is about a descriptor, and says so by its id and by its field. -/
structure IsEntryOf (document : Document) (descriptor : String) : Prop where
  named : document.id = descriptor
  field : document.get? MeshIndexer.idField = some (.string descriptor)

theorem isEntryOf_document (descriptor : MeshDescriptor) (time : String) :
    IsEntryOf (descriptor.document time) descriptor.id :=
  ⟨id_document descriptor time, get?_document descriptor time⟩

/-- The time at which a descriptor is indexed shows in the time of ingestion only. -/
theorem lasting_document (descriptor : MeshDescriptor) (time other : String) :
    (descriptor.document time).source.lasting = (descriptor.document other).source.lasting := by
  let fields : List (String × Json) := [
    ("name", .string descriptor.name),
    ("annotation", .optionalString descriptor.note),
    ("previousIndexing", .strings descriptor.previousIndexing),
    ("conceptNames", .strings (descriptor.concepts.map (·.name))),
    ("scopeNotes", .strings (descriptor.concepts.filterMap (·.scopeNote))),
    ("casn1Names", .strings (descriptor.concepts.filterMap (·.casn1Name))),
    ("termNames",
      .strings (descriptor.concepts.flatMap fun concept => concept.terms.map (·.name)))]
  have timeless (time : String) : (descriptor.document time).source.lasting =
      ((Document.new descriptor.id).setAll fields).source.lasting :=
    Fields.lasting_insert_time (.string time) ((Document.new descriptor.id).setAll fields).source
  rw [timeless, timeless]

end MeshDescriptor
end LearningIndex
