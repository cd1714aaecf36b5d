import LearningIndex.Proofs.Handling

/-!
# What indexing leaves in the indexes

Indexes that were empty once and have been changed by handled messages only, over any snapshots,
hold documents of the kind that the indexers make: the id and the fields of a document agree on
which entity it is about.
-/

namespace LearningIndex

variable {σ : Type}

/-- A document is of the kind that the indexer of an index makes. -/
structure Belongs (index : String) (document : Document) : Prop where
  piece : index = LearningMaterialIndexer.indexName →
    ∃ id, Json.isSigned64 id = true ∧ LearningMaterialIndexer.IsPieceOf document id
  about : index = CurriculumIndexer.indexName →
    ∃ course session, Json.isSigned64 course = true ∧ Json.isSigned64 session = true ∧
      CompositeCourse.IsAbout document course session
  entry : index = MeshIndexer.indexName → ∃ id, MeshDescriptor.IsEntryOf document id

/-- A request of the kind that the indexers make when they index or delete. -/
def Service.Request.IsProper : Service.Request → Prop
  | .engine (.bulk operations) =>
    ∀ operation ∈ operations,
      Belongs operation.action.index ⟨operation.action.id, operation.document⟩
  | .engine (.deleteByQuery _ (.term _ _)) => True
  | .engine (.deleteByQuery _ _) => False
  | .engine (.createIndex _ _) => False
  | .engine (.deleteIndex _) => False
  | _ => True

/-- All documents are of the kind that the indexers make. -/
def Orderly (backend : Backend σ) (state : σ) : Prop :=
  ∀ index, ∀ document ∈ backend.documents state index, Belongs index document

/-- States in which the indexes have been changed by handled messages only. -/
inductive Reachable (backend : Backend σ) : σ → Prop
  | empty {state : σ} (nothing : ∀ index, backend.documents state index = []) :
      Reachable backend state
  /-- A message over some snapshot is handled, and a request is made for it. -/
  | handling {state : σ} (earlier : Reachable backend state) {snapshot : Snapshot}
      (fits : snapshot.Fits) (keepAlive : String) (uploadLimit : Nat) (message : IndexMessage)
      {request : Service.Request}
      (asked :
        (Handler.handle ⟨.of snapshot, .new true keepAlive uploadLimit⟩ message).Asks request) :
      Reachable backend (backend.serve request state).2
  /-- Something happens that leaves the documents as they are. -/
  | idle {before after : σ} (earlier : Reachable backend before)
      (same : backend.SameDocuments before after) : Reachable backend after

theorem belongs_of_isPieceOf {document : Document} {id : Int} (fits : Json.isSigned64 id = true)
    (piece : LearningMaterialIndexer.IsPieceOf document id) :
    Belongs LearningMaterialIndexer.indexName document where
  piece _ := ⟨id, fits, piece⟩
  about other := absurd other (by decide)
  entry other := absurd other (by decide)

theorem belongs_of_isAbout {document : Document} {course session : Int}
    (fits : Json.isSigned64 course = true) (fits' : Json.isSigned64 session = true)
    (about : CompositeCourse.IsAbout document course session) :
    Belongs CurriculumIndexer.indexName document where
  piece other := absurd other (by decide)
  about _ := ⟨course, session, fits, fits', about⟩
  entry other := absurd other (by decide)

theorem belongs_of_isEntryOf {document : Document} {descriptor : String}
    (entry : MeshDescriptor.IsEntryOf document descriptor) :
    Belongs MeshIndexer.indexName document where
  piece other := absurd other (by decide)
  about other := absurd other (by decide)
  entry _ := ⟨descriptor, entry⟩

theorem Belongs.of_lasting_eq {index id : String} {fields others : Fields}
    (belongs : Belongs index ⟨id, fields⟩) (same : fields.lasting = others.lasting) :
    Belongs index ⟨id, others⟩ where
  piece known := by
    obtain ⟨material, fits, piece⟩ := belongs.piece known
    exact ⟨material, fits, piece.named,
      (Fields.get?_eq_of_lasting_eq (by decide) same).symm.trans piece.field⟩
  about known := by
    obtain ⟨course, session, fits, fits', about⟩ := belongs.about known
    exact ⟨course, session, fits, fits', about.named,
      (Fields.get?_eq_of_lasting_eq (by decide) same).symm.trans about.course,
      (Fields.get?_eq_of_lasting_eq (by decide) same).symm.trans about.session⟩
  entry known := by
    obtain ⟨descriptor, entry⟩ := belongs.entry known
    exact ⟨descriptor, entry.named,
      (Fields.get?_eq_of_lasting_eq (by decide) same).symm.trans entry.field⟩

/-- A proper request keeps the documents orderly, also if it fails. -/
theorem Orderly.serve {backend : Backend σ} (exact : backend.Exact) {state : σ}
    (orderly : Orderly backend state) {request : Service.Request} (proper : request.IsProper) :
    Orderly backend (backend.serve request state).2 := by
  intro index document member
  have present := (Backend.mem_documents_iff exact).mp member
  have earlier : backend.stored (backend.serve request state).2 index document.id =
      backend.stored state index document.id → Belongs index document := by
    intro same
    rw [same] at present
    exact orderly index document ((Backend.mem_documents_iff exact).mpr present)
  by_cases touched : request.Touches index
  · cases request with
    | engine call =>
        cases call with
        | bulk operations =>
            rcases exact.replaced operations state index document.id with
              same | ⟨operation, inside, action, lasting⟩
            · exact earlier same
            · have belongs := proper operation inside
              rw [action] at belongs
              refine belongs.of_lasting_eq (Option.some.inj ?_)
              rw [← lasting, Backend.lasting, present, Option.map_some]
        | deleteByQuery name query =>
            cases query with
            | term field value =>
                obtain rfl : name = index := touched
                rcases exact.spared_term name field value state document.id with same | ⟨gone, _⟩
                · exact earlier same
                · rw [gone] at present
                  cases present
            | _ => exact proper.elim
        | createIndex => exact proper.elim
        | deleteIndex => exact proper.elim
        | _ => exact touched.elim
    | _ => exact touched.elim
  · exact earlier (Backend.stored_eq_of_documents_eq (exact.kept request state index touched) _)

section Confined

/-- A program of the indexers: all that it asks is proper. -/
abbrev Task.Proper {α : Type} (promised : α → Prop) (task : Task α) : Prop :=
  task.Confined Service.Request.IsProper promised

theorem Task.proper_engine {call : EngineCall} (proper : (Service.Request.engine call).IsProper) :
    (Task.engine call).Proper fun _ => True :=
  ⟨proper, fun _ => Program.confined_ofExcept fun _ _ => trivial⟩

namespace Catalog

theorem proper_requireEngine (catalog : Catalog) : catalog.requireEngine.Proper fun _ => True := by
  unfold requireEngine
  split <;> trivial

theorem proper_foundIn {κ : Type} [Key κ] (catalog : Catalog) (field : String)
    (since : Option (String × Calendar.Instant)) (portions : List (List κ)) :
    (catalog.foundIn field since portions).Proper fun _ => True := by
  induction portions with
  | nil => trivial
  | cons portion rest ih =>
      refine (Task.proper_engine ?_).andThen fun answer _ => ?_
      · trivial
      · refine (Program.confined_ofExcept fun _ _ => trivial).andThen fun found _ => ?_
        exact ih.andThen fun _ _ => trivial

theorem proper_skipSet {κ : Type} [DecidableEq κ] [Key κ] (catalog : Catalog) (field : String)
    (candidates : List κ) (since : Option (String × Calendar.Instant)) :
    (catalog.skipSet field candidates since).Proper fun _ => True :=
  (proper_requireEngine catalog).andThen fun _ _ =>
    (proper_foundIn catalog field since _).andThen fun _ _ => trivial

theorem proper_write {catalog : Catalog} {documents : List Document}
    (belong : ∀ document ∈ documents, Belongs catalog.index document) :
    (catalog.write documents).Proper fun _ => True := by
  refine (proper_requireEngine catalog).andThen fun _ _ => ?_
  split
  · trivial
  · refine (Task.proper_engine ?_).andThen fun _ _ => trivial
    intro operation member
    obtain ⟨document, inside, rfl⟩ := List.mem_map.mp member
    exact belong document inside

theorem proper_deleteWhere (catalog : Catalog) (field : String) (value : Json) :
    (catalog.deleteWhere field value).Proper fun _ => True := by
  refine (proper_requireEngine catalog).andThen fun _ _ => ?_
  refine (Task.proper_engine ?_).andThen fun _ _ => trivial
  trivial

end Catalog

namespace LearningMaterialIndexer

theorem proper_fileText (material : LearningMaterial) :
    (fileText material).Proper fun _ => True := by
  unfold fileText
  cases material.relativePath with
  | none => trivial
  | some path => exact ⟨trivial, fun reply => by cases reply <;> trivial⟩

theorem proper_documentsOf (indexer : LearningMaterialIndexer)
    (materials : List LearningMaterial) :
    (indexer.documentsOf materials).Proper fun documents => ∀ document ∈ documents,
      ∃ material ∈ materials, IsPieceOf document material.id := by
  induction materials with
  | nil => exact fun document member => absurd member List.not_mem_nil
  | cons material rest ih =>
      refine (proper_fileText material).andThen fun text _ => ih.andThen fun others pieces => ?_
      intro document member
      rcases List.mem_append.mp member with own | other
      · obtain ⟨ordinal, chunk, rfl⟩ := mem_documents own
        exact ⟨material, List.mem_cons_self, isPieceOf_chunkDocument material ordinal chunk⟩
      · obtain ⟨source, inside, piece⟩ := pieces document other
        exact ⟨source, List.mem_cons_of_mem material inside, piece⟩

theorem proper_index (keepAlive : String) (uploadLimit : Nat)
    {materials : List LearningMaterial}
    (fits : ∀ material ∈ materials, Json.isSigned64 material.id = true) (force : Bool) :
    ((LearningMaterialIndexer.new true keepAlive uploadLimit).index
      (materials.map .learningMaterial) force).Proper fun _ => True := by
  have accepted : expectAll .learningMaterial Entity.learningMaterial?
      (materials.map .learningMaterial) = .ok materials :=
    expectAll_map Entity.learningMaterial (fun _ => rfl) materials
  rw [index, accepted]
  refine (Catalog.proper_requireEngine _).andThen fun _ _ => ?_
  have skipped : ((LearningMaterialIndexer.new true keepAlive uploadLimit).skipped materials
      force).Proper fun _ => True := by
    unfold skipped
    split
    · trivial
    · exact Catalog.proper_skipSet _ _ _ _
  refine skipped.andThen fun skip _ => ?_
  refine (proper_documentsOf _ _).andThen fun documents pieces => ?_
  refine Catalog.proper_write fun document member => ?_
  obtain ⟨material, inside, piece⟩ := pieces document member
  exact belongs_of_isPieceOf (fits material (List.mem_of_mem_filter inside)) piece

end LearningMaterialIndexer

theorem CurriculumIndexer.proper_index (keepAlive : String) {courses : List CompositeCourse}
    (fits : ∀ composite ∈ courses, Json.isSigned64 composite.course.id = true)
    (fits' : ∀ composite ∈ courses, ∀ session ∈ composite.sessions,
      Json.isSigned64 session.id = true) (stamp : Calendar.Instant) :
    ((CurriculumIndexer.new true keepAlive).index (courses.map .course) stamp).Proper
      fun _ => True := by
  have accepted : expectAll .course Entity.course? (courses.map .course) = .ok courses :=
    expectAll_map Entity.course (fun _ => rfl) courses
  have outdated : ((CurriculumIndexer.new true keepAlive).outdated (courses.map .course)
      stamp).Proper fun found => found ⊆ courses := by
    rw [outdated, accepted]
    exact (Catalog.proper_skipSet _ _ _ _).andThen fun skip _ => List.filter_subset_self _
  refine outdated.andThen fun found within => Catalog.proper_write fun document member => ?_
  obtain ⟨composite, inside, written⟩ := List.mem_flatMap.mp member
  obtain ⟨session, among, rfl⟩ := List.mem_map.mp written
  exact belongs_of_isAbout (fits composite (within inside))
    (fits' composite (within inside) session among)
    (CompositeCourse.isAbout_document composite session)

theorem MeshIndexer.proper_index (keepAlive : String) (descriptors : List MeshDescriptor)
    (stamp : Calendar.Instant) :
    ((MeshIndexer.new true keepAlive).index (descriptors.map .meshDescriptor) stamp).Proper
      fun _ => True := by
  have accepted : expectAll .meshDescriptor Entity.meshDescriptor?
      (descriptors.map .meshDescriptor) = .ok descriptors :=
    expectAll_map Entity.meshDescriptor (fun _ => rfl) descriptors
  rw [index, accepted]
  refine (Catalog.proper_requireEngine _).andThen fun _ _ => ?_
  refine (Catalog.proper_skipSet _ _ _ _).andThen fun skip _ => ?_
  have clock : Task.clock.Proper fun _ => True := ⟨trivial, fun _ => trivial⟩
  refine clock.andThen fun now _ => Catalog.proper_write fun document member => ?_
  obtain ⟨descriptor, _, rfl⟩ := List.mem_map.mp member
  exact belongs_of_isEntryOf (MeshDescriptor.isEntryOf_document descriptor _)

theorem Handler.proper_handle {snapshot : Snapshot} (fits : snapshot.Fits) (keepAlive : String)
    (uploadLimit : Nat) (message : IndexMessage) :
    (Handler.handle ⟨.of snapshot, .new true keepAlive uploadLimit⟩ message).Proper
      fun _ => True := by
  cases message with
  | indexLearningMaterials ids force =>
      exact LearningMaterialIndexer.proper_index keepAlive uploadLimit
        (fun material member => fits.materials material (List.mem_of_mem_filter member)) force
  | indexCourses ids stamp =>
      exact CurriculumIndexer.proper_index keepAlive
        (fun composite member => fits.courses composite (List.mem_of_mem_filter member))
        (fun composite member => fits.sessions composite (List.mem_of_mem_filter member)) stamp
  | indexMeshDescriptors ids stamp => exact MeshIndexer.proper_index keepAlive _ stamp
  | deleteLearningMaterial id => exact Catalog.proper_deleteWhere _ _ _
  | deleteCourse id => exact Catalog.proper_deleteWhere _ _ _
  | deleteSession id => exact Catalog.proper_deleteWhere _ _ _
  | deleteMeshDescriptor id => exact Catalog.proper_deleteWhere _ _ _

end Confined

theorem Reachable.orderly {backend : Backend σ} (exact : backend.Exact) {state : σ}
    (reachable : Reachable backend state) : Orderly backend state := by
  induction reachable with
  | empty nothing =>
      intro index document member
      rw [nothing index] at member
      exact absurd member List.not_mem_nil
  | handling _ fits keepAlive uploadLimit message asked ih =>
      exact ih.serve exact
        ((Handler.proper_handle fits keepAlive uploadLimit message).of_asks asked)
  | idle _ same ih =>
      intro index document member
      rw [same index] at member
      exact ih index document member

end LearningIndex
