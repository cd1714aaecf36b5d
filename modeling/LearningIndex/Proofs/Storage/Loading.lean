import LearningIndex.Proofs.Handling
import LearningIndex.Storage.Snapshot

/-!
# Snapshots that are loaded

An id is read only where it is an integer of 64 bits with a sign, and an id that is missing is zero.
So the ids of every snapshot that comes from a directory fit the fields of the indexes.
-/

namespace LearningIndex

namespace Literal

theorem forall_of_bind {α β : Type} {holds : β → Prop} {first : Option α} {rest : α → Option β}
    (each : ∀ part, first = some part → ∀ item, rest part = some item → holds item) :
    ∀ item, first.bind rest = some item → holds item := by
  intro item read
  obtain ⟨part, found, read⟩ := Option.bind_eq_some_iff.mp read
  exact each part found item read

theorem isSigned64_of_signed64? {literal : Literal} {value : Int}
    (read : literal.signed64? = some value) : Json.isSigned64 value = true := by
  cases literal with
  | number digits =>
      obtain ⟨integer, _, kept⟩ := Option.bind_eq_some_iff.mp read
      split_ifs at kept with inside
      exact Option.some.inj kept ▸ inside
  | _ => cases read

theorem isSigned64_of_withDefault {record : Record} {name : String} {value : Int}
    (read : record.withDefault name signed64? 0 = some value) : Json.isSigned64 value = true := by
  unfold Record.withDefault at read
  split at read
  · exact isSigned64_of_signed64? read
  · exact Option.some.inj read ▸ by decide

theorem forall_of_list? {α : Type} {read : Literal → Option α} {holds : α → Prop}
    (each : ∀ literal item, read literal = some item → holds item) {literal : Literal}
    {items : List α} (found : literal.list? read = some items) : ∀ item ∈ items, holds item := by
  cases literal with
  | array literals =>
      change literals.mapM read = some items at found
      induction literals generalizing items with
      | nil =>
          obtain rfl := Option.some.inj found
          simp
      | cons first rest ih =>
          rw [List.mapM_cons] at found
          obtain ⟨item, one, later⟩ := Option.bind_eq_some_iff.mp found
          obtain ⟨others, more, whole⟩ := Option.bind_eq_some_iff.mp later
          obtain rfl := Option.some.inj whole
          rintro entry (_ | ⟨_, member⟩)
          · exact each first item one
          · exact ih more entry member
  | _ => cases found

end Literal

theorem LearningMaterial.isSigned64_id {literal : Literal} : ∀ material : LearningMaterial,
    ofLiteral? literal = some material → Json.isSigned64 material.id = true := by
  refine Literal.forall_of_bind fun record _ => Literal.forall_of_bind fun id present => ?_
  obtain ⟨_, _, found⟩ := Option.bind_eq_some_iff.mp present
  have inside := Literal.isSigned64_of_signed64? found
  iterate 4 refine Literal.forall_of_bind fun _ _ => ?_
  rintro _ ⟨⟩
  exact inside

theorem Session.isSigned64_id {literal : Literal} : ∀ session : Session,
    ofLiteral? literal = some session → Json.isSigned64 session.id = true := by
  refine Literal.forall_of_bind fun record _ => Literal.forall_of_bind fun id found => ?_
  have inside := Literal.isSigned64_of_withDefault found
  -- No field that is read after the id changes it.
  iterate 10 refine Literal.forall_of_bind fun _ _ => ?_
  rintro _ ⟨⟩
  exact inside

theorem Course.isSigned64_id {literal : Literal} : ∀ course : Course,
    ofLiteral? literal = some course → Json.isSigned64 course.id = true := by
  refine Literal.forall_of_bind fun record _ => Literal.forall_of_bind fun id found => ?_
  have inside := Literal.isSigned64_of_withDefault found
  iterate 15 refine Literal.forall_of_bind fun _ _ => ?_
  rintro _ ⟨⟩
  exact inside

/-- The ids of a course and of its sessions fit. -/
structure CompositeCourse.Fits (composite : CompositeCourse) : Prop where
  course : Json.isSigned64 composite.course.id = true
  sessions : ∀ session ∈ composite.sessions, Json.isSigned64 session.id = true

theorem CompositeCourse.fits_of_ofLiteral? {literal : Literal} {composite : CompositeCourse}
    (read : CompositeCourse.ofLiteral? literal = some composite) : composite.Fits := by
  obtain ⟨record, _, read⟩ := Option.bind_eq_some_iff.mp read
  obtain ⟨course, first, read⟩ := Option.bind_eq_some_iff.mp read
  obtain ⟨sessions, second, whole⟩ := Option.bind_eq_some_iff.mp read
  obtain rfl := Option.some.inj whole
  obtain ⟨_, _, found⟩ := Option.bind_eq_some_iff.mp first
  refine ⟨Course.isSigned64_id course found, ?_⟩
  unfold Literal.Record.withDefault at second
  split at second
  · exact Literal.forall_of_list? (fun _ => Session.isSigned64_id) second
  · obtain rfl := Option.some.inj second
    simp

namespace Storage

theorem forall_of_entitiesAt {α : Type} {read : Literal → Option α} {holds : α → Prop}
    (each : ∀ literal item, read literal = some item → holds item) {wording : Wording}
    {path : String} {outcome : Except ReadError ByteString} {entities : List α}
    (listed : entitiesAt read wording path outcome = .ok entities) :
    ∀ entity ∈ entities, holds entity := by
  unfold entitiesAt at listed
  split at listed
  · split at listed
    · next found =>
        obtain rfl := Except.ok.inj listed
        obtain ⟨literal, _, items⟩ := Option.bind_eq_some_iff.mp found
        exact Literal.forall_of_list? each items
    · cases listed
  · obtain rfl := Except.ok.inj listed
    simp
  · cases listed

theorem forall_of_yields_loadEntities {α : Type} {read : Literal → Option α} {holds : α → Prop}
    (each : ∀ literal item, read literal = some item → holds item) {wording : Wording}
    {path : String} {trace : List (Exchange machine)} {entities : List α}
    (loaded : (loadEntities read wording path).Yields trace (.ok entities)) :
    ∀ entity ∈ entities, holds entity := by
  obtain ⟨outcome, _, _, ended⟩ := Program.yields_ask_iff.mp loaded
  obtain ⟨_, listed⟩ := Program.yields_done_iff.mp ended
  exact forall_of_entitiesAt each listed.symm

/-- Every snapshot that is loaded fits, whatever is in the files. -/
theorem fits_of_yields_loadSnapshot {directory : String} {wording : Wording}
    {trace : List (Exchange machine)} {snapshot : Snapshot}
    (loaded : (loadSnapshot directory wording).Yields trace (.ok snapshot)) :
    snapshot.Fits := by
  obtain ⟨materials, _, _, _, first, loaded⟩ := Program.yields_andThen_ok_iff.mp loaded
  obtain ⟨courses, _, _, _, second, loaded⟩ := Program.yields_andThen_ok_iff.mp loaded
  obtain ⟨descriptors, _, _, _, _, loaded⟩ := Program.yields_andThen_ok_iff.mp loaded
  obtain ⟨_, whole⟩ := Program.yields_done_iff.mp loaded
  obtain rfl := Except.ok.inj whole
  have fits := forall_of_yields_loadEntities (fun _ _ => CompositeCourse.fits_of_ofLiteral?) second
  exact {
    materials := forall_of_yields_loadEntities (fun _ => LearningMaterial.isSigned64_id) first
    courses := fun composite member => (fits composite member).course
    sessions := fun composite member => (fits composite member).sessions }

end Storage

end LearningIndex
